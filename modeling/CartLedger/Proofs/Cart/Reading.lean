import CartLedger.Proofs.Cart.Codec
import CartLedger.Proofs.Json.Choice

/-! What is read of carts and of their messages.

A basket depends on the quantity under each name and on nothing else (`basketEntries_iff`), so
the order of its entries is of no account (`reads_basket`). Everything else about carts is made
of records and choices, and reads their shapes. -/
namespace CartLedger.Cart
open CartLedger.Json (Draft Fault Shape Decoder)
open CartLedger.Json.Decoder
open CartLedger.Time (Timestamp)

variable {room : Nat}

theorem reads_timestamp : Reads room .whole timestamp := reads_text.bind _

theorem reads_item : Reads room .whole item := reads_text.bind _

/-! ### Baskets -/

/-- What stands under a name, as a quantity if it is one. -/
def quantityAt (ms : List Draft.Member) (name : String) : Option (Option UInt32) :=
  (find? name ms).map fun d => (word32 d).toOption

/-- The basket has the quantities that stand under the names of items, and otherwise what it started with. -/
structure Holds (start : Basket) (under : String → Option (Option UInt32)) (b : Basket) : Prop where
  named : under "" = none
  counted : ∀ name, under name ≠ some none
  quantity : ∀ item : ItemId, b.get? item = (under item.text).getD (start.get? item)

theorem quantityAt_cons (name : String) (d : Draft) (rest : List Draft.Member) (name' : String) :
    quantityAt ((some name, d) :: rest) name' =
      if name = name' then some (word32 d).toOption else quantityAt rest name' := by
  rw [quantityAt, find?_cons, apply_ite (Option.map _)]
  rfl

theorem eq_of_text {i j : ItemId} (h : i.text = j.text) : i = j := by
  cases i
  cases j
  cases h
  rfl

/-- An entry is put into the basket before the others, under none of whose names it stands. -/
theorem holds_cons {start b : Basket} {i : ItemId} {n : UInt32} {d : Draft} {rest : List Draft.Member}
    (hnew : find? i.text rest = none) (hn : word32 d = .ok n) :
    Holds start (quantityAt ((some i.text, d) :: rest)) b ↔ Holds (start.insert i n) (quantityAt rest) b := by
  have habsent : quantityAt rest i.text = none := by rw [quantityAt, hnew]; rfl
  have hquantity : ∀ item : ItemId, (quantityAt ((some i.text, d) :: rest) item.text).getD (start.get? item) =
      (quantityAt rest item.text).getD ((start.insert i n).get? item) := by
    intro item
    rw [quantityAt_cons, OrderedMap.get?_insert]
    by_cases hitem : i = item
    · subst hitem
      rw [if_pos rfl, if_pos rfl, habsent, hn]
      rfl
    · rw [if_neg fun he => hitem (eq_of_text he), if_neg hitem]
  constructor
  · rintro ⟨hnamed, hcounted, hholds⟩
    refine ⟨?_, fun name => ?_, fun item => (hholds item).trans (hquantity item)⟩
    · rwa [quantityAt_cons, if_neg i.nonempty] at hnamed
    · have hname := hcounted name
      rw [quantityAt_cons] at hname
      split at hname
      · next he => simp [← he, habsent]
      · exact hname
  · rintro ⟨hnamed, hcounted, hholds⟩
    refine ⟨?_, fun name => ?_, fun item => (hholds item).trans (hquantity item).symm⟩
    · rwa [quantityAt_cons, if_neg i.nonempty]
    · rw [quantityAt_cons, hn]
      split
      · exact fun he => by cases he
      · exact hcounted name

/-- **A basket is told from the quantities under its names.** -/
theorem basketEntries_iff {ms : List Draft.Member} (hnamed : Draft.Named ms) {start b : Basket} :
    basketEntries start ms = .ok b ↔ Holds start (quantityAt ms) b := by
  induction ms generalizing start with
  | nil =>
    constructor
    · intro h
      obtain rfl := Except.ok.inj h
      exact ⟨rfl, fun _ he => (by cases he), fun _ => rfl⟩
    · rintro ⟨-, -, hholds⟩
      exact congrArg Except.ok (OrderedMap.ext_get? hholds).symm
  | cons m rest ih =>
    obtain ⟨key, d, rfl, hnew, hrest⟩ := hnamed.uncons
    rw [basketEntries]
    by_cases hkey : key = ""
    · subst hkey
      refine ⟨fun h => (by cases h), fun h => ?_⟩
      have hnamed := h.named
      rw [quantityAt_cons, if_pos rfl] at hnamed
      cases hnamed
    · obtain ⟨i, rfl⟩ : ∃ i : ItemId, i.text = key := ⟨⟨key, hkey⟩, rfl⟩
      rw [itemOf_text, ok_bind]
      cases hn : word32 d with
      | error e =>
        refine ⟨fun h => (by cases h), fun h => absurd ?_ (h.counted i.text)⟩
        rw [quantityAt_cons, if_pos rfl, hn]
        rfl
      | ok n => exact (ih hrest).trans (holds_cons hnew hn).symm

theorem quantityAt_stands {ms : List Draft.Member} {kept : List (String × Json)} (h : Draft.MembersStand room ms kept) :
    quantityAt ms = quantityAt (Draft.ofMembers kept) := by
  funext name
  rw [quantityAt, quantityAt, find?_ofMembers]
  obtain ⟨hnone, hnone'⟩ | ⟨d, v, hd, hv, hstands⟩ := h.found name
  · rw [show find? name ms = none from hnone, hnone']
    rfl
  · rw [show find? name ms = some d from hd, hv]
    exact congrArg some (reads_word32.same hstands)

theorem reads_basket : Reads room .whole basket := by
  refine ⟨fun {d v} hstands => ?_⟩
  cases hstands.view with
  | object hroom hmembers =>
    refine toOption_congr fun b => ?_
    refine (basketEntries_iff hmembers.named).trans ?_
    rw [quantityAt_stands hmembers]
    exact (basketEntries_iff (Draft.named_ofMembers hmembers.ascending)).symm
  | _ => rfl

/-! ### Carts and commands -/

def shape : Shape := .flat ["items", "checkout_date"]

theorem reads_decoder : Reads (room + 1) shape decoder :=
  reads_recordWith (by rfl) (by decide) ⟨reads_field reads_basket, reads_field (reads_option reads_timestamp), trivial⟩
    (builds_required (by decide) reads_basket fun _ =>
      builds_optional (by decide) (reads_option reads_timestamp) fun _ => builds_pure _)

theorem reads_quantified {quantity : Decoder α} (h : Reads room .whole quantity) (build : ItemId → α → β) :
    Reads (room + 1) (.flat ["item_id", "quantity"]) (quantified quantity build) :=
  reads_objectOnly (by rfl) ⟨reads_field reads_item, reads_field h, trivial⟩
    (builds_required (by decide) reads_item fun _ => builds_required (by decide) h fun _ => builds_pure _)

def Command.shape : Shape := .choice fun
  | "AddItem" => .flat ["item_id", "quantity"]
  | "RemoveItem" => .flat ["item_id"]
  | "AdjustItemQuantity" => .flat ["item_id", "quantity"]
  | _ => .whole

theorem Command.reads_decoder : Reads Draft.depthLimit shape decoder :=
  reads_tagged ⟨reads_quantified reads_signed32 _,
    reads_objectOnly (by rfl) ⟨reads_field reads_item, trivial⟩
      (builds_required (by decide) reads_item fun _ => builds_pure _),
    reads_quantified reads_signed32 _, reads_unit _ _, reads_unit _ _, trivial⟩

/-! ### Events -/

theorem reads_changedItem (build : String → ItemId → UInt32 → Timestamp → Event) :
    Reads (room + 1) (.flat ["cart_id", "item_id", "quantity", "time"]) (changedItem build) :=
  reads_objectOnly (by rfl)
    ⟨reads_field reads_text, reads_field reads_item, reads_field reads_word32, reads_field reads_timestamp, trivial⟩
    (builds_required (by decide) reads_text fun _ => builds_required (by decide) reads_item fun _ =>
      builds_required (by decide) reads_word32 fun _ => builds_required (by decide) reads_timestamp fun _ =>
        builds_pure _)

def Event.shape : Shape := .choice fun
  | "ItemAdded" => .flat ["cart_id", "item_id", "quantity", "time"]
  | "ItemRemoved" => .flat ["cart_id", "item_id", "time"]
  | "ItemQuantityAdjusted" => .flat ["cart_id", "item_id", "quantity", "time"]
  | "CheckedOut" => .flat ["cart_id", "time"]
  | _ => .whole

theorem Event.reads_decoder : Reads Draft.depthLimit shape decoder :=
  reads_tagged ⟨reads_changedItem _,
    reads_objectOnly (by rfl)
      ⟨reads_field reads_text, reads_field reads_item, reads_field reads_timestamp, trivial⟩
      (builds_required (by decide) reads_text fun _ => builds_required (by decide) reads_item fun _ =>
        builds_required (by decide) reads_timestamp fun _ => builds_pure _),
    reads_changedItem _,
    reads_objectOnly (by rfl) ⟨reads_field reads_text, reads_field reads_timestamp, trivial⟩
      (builds_required (by decide) reads_text fun _ => builds_required (by decide) reads_timestamp fun _ =>
        builds_pure _),
    trivial⟩

/-! ### Replies -/

def Summary.shape : Shape := .flat ["items", "checked_out", "checkout_date"]

theorem Summary.reads_decoder : Reads (room + 1) shape decoder :=
  reads_recordWith (by rfl) (by decide)
    ⟨reads_field reads_basket, reads_field reads_flag, reads_field (reads_option reads_timestamp), trivial⟩
    (builds_required (by decide) reads_basket fun _ => builds_required (by decide) reads_flag fun _ =>
      builds_optional (by decide) (reads_option reads_timestamp) fun _ => builds_pure _)

def Reply.shape : Shape := .choice fun
  | "Accepted" => Summary.shape
  | "Rejected" => .flat ["reason"]
  | "Summary" => Summary.shape
  | _ => .whole

theorem Reply.reads_decoder : Reads Draft.depthLimit shape decoder :=
  reads_tagged ⟨Summary.reads_decoder.map _,
    reads_objectOnly (by rfl) ⟨reads_field reads_text, trivial⟩
      (builds_required (by decide) reads_text fun _ => builds_pure _),
    Summary.reads_decoder.map _, trivial⟩

end CartLedger.Cart
