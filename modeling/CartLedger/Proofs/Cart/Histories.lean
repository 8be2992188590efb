import CartLedger.Cart.Decision
import CartLedger.OrderedMap.Lemmas
import Mathlib.Data.List.Induction

/-! Which histories a cart can have.

`emitted` is what a sequence of commands leaves behind in the history of a cart that
begins empty. `Legal` says of a list of events, without any cart, when it is a history:
each event is in its place among those before it, and a checkout ends it. The two agree
exactly (`emitted_iff_legal`): a cart's items and its checkout date are functions of the
history alone (`contains_replay`, `isCheckedOut_replay`), and an event is one that some
command causes just when it is `Due`. -/
namespace CartLedger.Cart
open CartLedger.Time (Timestamp)

/-- The events that commands cause, each with the time at which it is taken up. -/
def emitted (id : String) (c : Cart) : List (Timestamp × Command) → List Event
  | [] => []
  | (now, command) :: rest =>
    (c.act id now command).2.1.toList ++ emitted id (c.act id now command).1 rest

/-! ### Legal histories -/

/-- The item an event is about. -/
def Event.item? : Event → Option ItemId
  | .itemAdded _ item _ _ => some item
  | .itemRemoved _ item _ => some item
  | .itemQuantityAdjusted _ item _ _ => some item
  | .checkedOut .. => none

/-- Whether the item of an event is in the cart after it. -/
def Event.leavesItem : Event → Bool
  | .itemAdded .. => true
  | .itemQuantityAdjusted .. => true
  | .itemRemoved .. => false
  | .checkedOut .. => false

/-- The latest event about an item. -/
def latest? (item : ItemId) (past : List Event) : Option Event :=
  past.reverse.find? (fun e => e.item? = some item)

/-- The latest event about the item has left it in the cart. -/
def Present (item : ItemId) (past : List Event) : Prop :=
  ∃ e, latest? item past = some e ∧ e.leavesItem

/-- A quantity that a command can ask for: quantities of commands have 31 bits and a sign. -/
def Countable (quantity : UInt32) : Prop := 1 ≤ quantity.toNat ∧ quantity.toNat ≤ 2147483647

/-- An event that may come after the past it has. -/
def Due (id : String) (past : List Event) (e : Event) : Prop :=
  e.cart = id ∧
    match e with
    | .itemAdded _ item quantity _ => ¬ Present item past ∧ Countable quantity
    | .itemQuantityAdjusted _ item quantity _ => Present item past ∧ Countable quantity
    | .itemRemoved _ item _ => Present item past
    | .checkedOut .. => ∃ item, Present item past

structure Legal (id : String) (events : List Event) : Prop where
  due : ∀ {past e rest}, events = past ++ e :: rest → Due id past e
  checkout_last : ∀ {past cart time rest}, events = past ++ .checkedOut cart time :: rest → rest = []

/-- A checkout is among the events. -/
def Closed (past : List Event) : Prop := ∃ cart time, Event.checkedOut cart time ∈ past

theorem legal_nil (id : String) : Legal id [] where
  due h := by simp at h
  checkout_last h := by simp at h

/-- A legal history goes on with what is due, until it is closed. -/
theorem legal_concat {id : String} {past : List Event} {e : Event} :
    Legal id (past ++ [e]) ↔ Legal id past ∧ ¬ Closed past ∧ Due id past e := by
  constructor
  · intro h
    have hsplit : ∀ {before x after}, past = before ++ x :: after →
        past ++ [e] = before ++ x :: (after ++ [e]) := by
      rintro before x after rfl
      rw [List.append_assoc, List.cons_append]
    refine ⟨⟨fun heq => h.due (hsplit heq), fun heq => ?_⟩, ?_, h.due rfl⟩
    · exact absurd (h.checkout_last (hsplit heq)) (by simp)
    · rintro ⟨cart, time, hmem⟩
      obtain ⟨before, after, heq⟩ := List.append_of_mem hmem
      exact absurd (h.checkout_last (hsplit heq)) (by simp)
  · rintro ⟨h, hopen, hdue⟩
    -- What a split of the longer list shows is the new event or a split of the past.
    have hcases : ∀ {before x rest}, past ++ [e] = before ++ x :: rest →
        (before = past ∧ x = e ∧ rest = []) ∨ ∃ after, past = before ++ x :: after := by
      intro before x rest heq
      obtain rfl | ⟨after, last, rfl⟩ := List.eq_nil_or_concat rest
      · obtain ⟨hpast, hlast⟩ := List.append_inj' heq rfl
        exact .inl ⟨hpast.symm, (List.singleton_inj.1 hlast).symm, rfl⟩
      · rw [List.concat_eq_append, ← List.cons_append, ← List.append_assoc] at heq
        exact .inr ⟨after, (List.append_inj' heq rfl).1⟩
    refine ⟨fun heq => ?_, fun heq => ?_⟩
    · obtain ⟨rfl, rfl, -⟩ | ⟨after, hpast⟩ := hcases heq
      · exact hdue
      · exact h.due hpast
    · obtain ⟨-, -, hrest⟩ | ⟨after, hpast⟩ := hcases heq
      · exact hrest
      · exact absurd ⟨_, _, hpast ▸ List.mem_append_right _ (List.mem_cons_self ..)⟩ hopen

/-! ### The cart that a history leaves -/

theorem replay_concat (c : Cart) (past : List Event) (e : Event) :
    c.replay (past ++ [e]) = (c.replay past).apply e := List.foldl_append

theorem latest?_concat (item : ItemId) (past : List Event) (e : Event) :
    latest? item (past ++ [e]) = if e.item? = some item then some e else latest? item past := by
  rw [latest?, List.reverse_append, List.reverse_singleton, List.singleton_append, List.find?_cons]
  by_cases h : e.item? = some item <;> simp [h, latest?]

theorem present_concat (item : ItemId) (past : List Event) (e : Event) :
    Present item (past ++ [e]) ↔ if e.item? = some item then e.leavesItem = true else Present item past := by
  rw [Present, latest?_concat]
  split
  · simp
  · rfl

theorem contains_apply (c : Cart) (e : Event) (item : ItemId) :
    (c.apply e).items.contains item =
      if e.item? = some item then e.leavesItem else c.items.contains item := by
  rw [OrderedMap.contains_eq_isSome, OrderedMap.contains_eq_isSome]
  cases e <;> simp only [apply, Event.item?, Event.leavesItem, OrderedMap.get?_insert,
    OrderedMap.get?_erase, Option.some.injEq, reduceCtorEq, if_false] <;> split <;> rfl

/-- A cart holds the items that its history leaves present. -/
theorem contains_replay (item : ItemId) (past : List Event) :
    (replay .empty past).items.contains item = true ↔ Present item past := by
  induction past using List.reverseRecOn with
  | nil => simp [replay, empty, OrderedMap.empty, OrderedMap.contains, Present, latest?]
  | append_singleton past e ih =>
    rw [replay_concat, contains_apply, present_concat]
    split
    · rfl
    · exact ih

theorem isEmpty_replay (past : List Event) :
    (replay .empty past).items.isEmpty = false ↔ ∃ item, Present item past := by
  have hkey : ∀ m : Basket, m.isEmpty = false ↔ ∃ item, m.contains item = true := by
    rintro ⟨entries, -⟩
    cases entries <;> simp [OrderedMap.isEmpty, OrderedMap.contains]
  rw [hkey]
  exact exists_congr fun item => contains_replay item past

/-- A cart is checked out when its history holds a checkout. -/
theorem isCheckedOut_replay (past : List Event) :
    (replay .empty past).isCheckedOut = true ↔ Closed past := by
  induction past using List.reverseRecOn with
  | nil => simp [replay, empty, isCheckedOut, Closed]
  | append_singleton past e ih =>
    rw [replay_concat]
    cases e with
    | checkedOut cart time =>
      exact iff_of_true rfl ⟨cart, time, List.mem_append_right _ (List.mem_singleton_self _)⟩
    | _ => simpa [apply, isCheckedOut, Closed] using ih

/-! ### What commands cause -/

/-- A number of 32 bits read with a sign. -/
theorem toInt_eq (quantity : Int32) :
    quantity.toInt = if 2 * quantity.toUInt32.toNat < UInt32.size then (quantity.toUInt32.toNat : Int)
      else quantity.toUInt32.toNat - UInt32.size := BitVec.toInt_eq_toNat_cond _

theorem positive?_iff (n : UInt32) : (∃ quantity, positive? quantity = some n) ↔ Countable n := by
  have hsize : UInt32.size = 4294967296 := rfl
  rw [Countable]
  constructor
  · rintro ⟨quantity, h⟩
    rw [positive?] at h
    split at h
    · next hpos =>
      cases h
      have hlt : 0 < quantity.toInt := Int32.lt_iff_toInt_lt.1 hpos
      have hsign := toInt_eq quantity
      have hle := quantity.toUInt32.toNat_lt
      split at hsign <;> omega
    · cases h
  · rintro ⟨hlow, hhigh⟩
    have hsign := toInt_eq n.toInt32
    rw [UInt32.toUInt32_toInt32, if_pos (by omega)] at hsign
    refine ⟨n.toInt32, ?_⟩
    rw [positive?, if_pos, UInt32.toUInt32_toInt32]
    rw [Int32.lt_iff_toInt_lt, hsign]
    exact Int.natCast_pos.2 hlow

section
variable (c : Cart) (id : String) (now : Timestamp) (e : Event)

theorem decideAdd_eq_persist (item : ItemId) (quantity : Int32) :
    c.decideAdd id now item quantity = .persist e ↔
      c.isCheckedOut = false ∧ c.items.contains item = false ∧
        ∃ n, positive? quantity = some n ∧ e = .itemAdded id item n now := by
  rw [decideAdd]
  cases c.isCheckedOut <;> cases c.items.contains item <;> cases positive? quantity <;>
    simp [eq_comm]

theorem decideRemove_eq_persist (item : ItemId) :
    c.decideRemove id now item = .persist e ↔
      c.isCheckedOut = false ∧ c.items.contains item = true ∧ e = .itemRemoved id item now := by
  rw [decideRemove]
  cases c.isCheckedOut <;> cases c.items.contains item <;> simp [eq_comm]

theorem decideAdjust_eq_persist (item : ItemId) (quantity : Int32) :
    c.decideAdjust id now item quantity = .persist e ↔
      c.isCheckedOut = false ∧ c.items.contains item = true ∧
        ∃ n, positive? quantity = some n ∧ e = .itemQuantityAdjusted id item n now := by
  rw [decideAdjust]
  cases c.isCheckedOut <;> cases c.items.contains item <;> cases positive? quantity <;>
    simp [eq_comm]

theorem decideCheckout_eq_persist :
    c.decideCheckout id now = .persist e ↔
      c.isCheckedOut = false ∧ c.items.isEmpty = false ∧ e = .checkedOut id now := by
  rw [decideCheckout]
  cases c.isCheckedOut <;> cases c.items.isEmpty <;> simp [eq_comm]

end

/-- On the cart that a history leaves, what a command causes is due, and the history is
not closed. -/
theorem due_of_decide {id : String} {past : List Event} {now : Timestamp} {command : Command} {e : Event}
    (h : (replay .empty past).decide id now command = .persist e) : ¬ Closed past ∧ Due id past e := by
  rw [← isCheckedOut_replay, Bool.not_eq_true]
  cases command with
  | addItem item quantity =>
    obtain ⟨hopen, habsent, n, hn, rfl⟩ := (decideAdd_eq_persist ..).1 h
    have hpresent := contains_replay item past
    rw [habsent] at hpresent
    exact ⟨hopen, rfl, fun hp => Bool.noConfusion (hpresent.2 hp), (positive?_iff n).1 ⟨_, hn⟩⟩
  | removeItem item =>
    obtain ⟨hopen, hcontains, rfl⟩ := (decideRemove_eq_persist ..).1 h
    exact ⟨hopen, rfl, (contains_replay item past).1 hcontains⟩
  | adjustItemQuantity item quantity =>
    obtain ⟨hopen, hcontains, n, hn, rfl⟩ := (decideAdjust_eq_persist ..).1 h
    exact ⟨hopen, rfl, (contains_replay item past).1 hcontains, (positive?_iff n).1 ⟨_, hn⟩⟩
  | get => cases h
  | checkout =>
    obtain ⟨hopen, hitems, rfl⟩ := (decideCheckout_eq_persist ..).1 h
    exact ⟨hopen, rfl, (isEmpty_replay past).1 hitems⟩

/-- A command for each event that is due. -/
theorem exists_decide {id : String} {past : List Event} {e : Event} (hclosed : ¬ Closed past)
    (hdue : Due id past e) :
    ∃ now command, (replay .empty past).decide id now command = .persist e := by
  rw [← isCheckedOut_replay, Bool.not_eq_true] at hclosed
  cases e with
  | itemAdded cart item n time =>
    obtain ⟨rfl, habsent, hn⟩ := hdue
    obtain ⟨quantity, hquantity⟩ := (positive?_iff n).2 hn
    rw [← contains_replay, Bool.not_eq_true] at habsent
    exact ⟨time, .addItem item quantity,
      (decideAdd_eq_persist ..).2 ⟨hclosed, habsent, n, hquantity, rfl⟩⟩
  | itemRemoved cart item time =>
    obtain ⟨rfl, hpresent⟩ := hdue
    exact ⟨time, .removeItem item,
      (decideRemove_eq_persist ..).2 ⟨hclosed, (contains_replay item past).2 hpresent, rfl⟩⟩
  | itemQuantityAdjusted cart item n time =>
    obtain ⟨rfl, hpresent, hn⟩ := hdue
    obtain ⟨quantity, hquantity⟩ := (positive?_iff n).2 hn
    exact ⟨time, .adjustItemQuantity item quantity, (decideAdjust_eq_persist ..).2
      ⟨hclosed, (contains_replay item past).2 hpresent, n, hquantity, rfl⟩⟩
  | checkedOut cart time =>
    obtain ⟨rfl, hitem⟩ := hdue
    exact ⟨time, .checkout,
      (decideCheckout_eq_persist ..).2 ⟨hclosed, (isEmpty_replay past).2 hitem, rfl⟩⟩

theorem act_event (c : Cart) (id : String) (now : Timestamp) (command : Command) (e : Event) :
    (c.act id now command).2.1 = some e ↔ c.decide id now command = .persist e := by
  rw [act]
  split <;> simp [*]

theorem act_cart (c : Cart) (id : String) (now : Timestamp) (command : Command) :
    (c.act id now command).1 = c.replay (c.act id now command).2.1.toList := by
  rw [act]
  split <;> rfl

/-! ### Emitted histories -/

theorem emitted_concat (id : String) (c : Cart) (commands : List (Timestamp × Command))
    (now : Timestamp) (command : Command) :
    emitted id c (commands ++ [(now, command)]) = emitted id c commands ++
      ((c.replay (emitted id c commands)).act id now command).2.1.toList := by
  induction commands generalizing c with
  | nil => rw [List.nil_append, emitted, emitted, emitted, List.append_nil]; rfl
  | cons first rest ih =>
    rw [List.cons_append, emitted, emitted, ih, List.append_assoc, replay, replay, List.foldl_append, act_cart]
    rfl

theorem legal_emitted (id : String) (commands : List (Timestamp × Command)) :
    Legal id (emitted id .empty commands) := by
  induction commands using List.reverseRecOn with
  | nil => exact legal_nil id
  | append_singleton commands last ih =>
    obtain ⟨now, command⟩ := last
    rw [emitted_concat]
    cases he : ((replay .empty (emitted id .empty commands)).act id now command).2.1 with
    | none => simpa using ih
    | some e =>
      exact legal_concat.2 ⟨ih, due_of_decide ((act_event ..).1 he)⟩

/-- **A list of events is the history of some commands on a cart exactly when it is
legal.** -/
theorem emitted_iff_legal (id : String) (events : List Event) :
    (∃ commands, emitted id .empty commands = events) ↔ Legal id events := by
  constructor
  · rintro ⟨commands, rfl⟩
    exact legal_emitted id commands
  · intro h
    induction events using List.reverseRecOn with
    | nil => exact ⟨[], rfl⟩
    | append_singleton past e ih =>
      obtain ⟨hpast, hclosed, hdue⟩ := legal_concat.1 h
      obtain ⟨commands, rfl⟩ := ih hpast
      obtain ⟨now, command, hdecide⟩ := exists_decide hclosed hdue
      refine ⟨commands ++ [(now, command)], ?_⟩
      rw [emitted_concat, (act_event ..).2 hdecide]
      rfl

end CartLedger.Cart
