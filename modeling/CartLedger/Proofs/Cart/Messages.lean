import CartLedger.Proofs.Cart.Codec

/-! What is said to carts and by carts survives being written.

Commands, events and replies are choices with a name and data, which stand in either order:
the name comes first in a text and the data come first in a value, where they are read in
full before the name is known. Either way the same variant gets the same data to understand
(`decode_tagged`). The members of a summary, which may be data of a reply, have one order in a
text and another in a value. -/
namespace CartLedger.Cart
open CartLedger.Json (Draft Decoder RoundTrips roundTrips_of)
open CartLedger.Json.Decoder

/-! ### Names and data -/

theorem decode_tagged {α : Type} {d : Decoder α} {name : String} {members : List (String × Json)} {a : α}
    (h : Understands d name (Draft.ofJson (.object members)) a) :
    Json.decode d (taggedJson name members) = .ok a := h.typeFirst

/-- The same as a value, whose data have come into canonical form. -/
theorem decode_tagged_canonical {α : Type} {d : Decoder α} {name : String} {members : List (String × Json)} {a : α}
    (hdepth : (Json.object members).depth ≤ Draft.depthLimit - 1)
    (h : Understands d name (Draft.ofJson (Json.object members).canonical) a) :
    Json.decode d (taggedJson name members).canonical = .ok a :=
  h.dataFirst (Draft.toJson?_ofJson _ (Nat.le_trans (Json.depth_canonical_le _) hdepth))

/-! ### Commands -/

theorem whole_quantity32 (n : Int32) : Json.Whole (.integer n.toInt) := by
  have hlow := n.le_toInt
  have hhigh := n.toInt_lt
  exact ⟨by omega, by omega⟩

theorem quantified_data {build : ItemId → Int32 → β} (i : ItemId) (n : Int32) :
    quantified Decoder.signed32 build
      (Draft.ofJson (.object [("item_id", .text i.text), ("quantity", .integer n.toInt)])) = .ok (build i n) := by
  have hitem := item_text i
  have hquantity := signed32_eq n
  refine (objectOnly_ok (by rfl) ?_).trans ?_
  · exact checkMembers_ok (by simp [Draft.ofMembers]) ⟨fits_field rfl hitem, fits_field rfl hquantity, trivial⟩
  · rw [required_eq rfl hitem, ok_bind, required_eq rfl hquantity, ok_bind, pure_ok]

theorem removed_data (i : ItemId) :
    objectOnly [field "item_id" item] (fun ms => return .removeItem (← required "item_id" item ms))
      (Draft.ofJson (.object [("item_id", .text i.text)])) = .ok (Command.removeItem i) := by
  have hitem := item_text i
  refine (objectOnly_ok (by rfl) ?_).trans ?_
  · exact checkMembers_ok (by simp [Draft.ofMembers]) ⟨fits_field rfl hitem, trivial⟩
  · rw [required_eq rfl hitem, ok_bind, pure_ok]

namespace Command

theorem whole_toJson (c : Command) : Json.Whole c.toJson := by
  cases c with
  | addItem _ quantity => exact ⟨trivial, ⟨trivial, whole_quantity32 quantity, trivial⟩, trivial⟩
  | removeItem => exact ⟨trivial, ⟨trivial, trivial⟩, trivial⟩
  | adjustItemQuantity _ quantity => exact ⟨trivial, ⟨trivial, whole_quantity32 quantity, trivial⟩, trivial⟩
  | get => exact ⟨trivial, trivial⟩
  | checkout => exact ⟨trivial, trivial⟩

theorem decode_toJson (c : Command) : Json.decode Command.decoder c.toJson = .ok c := by
  cases c with
  | addItem i quantity => exact decode_tagged ⟨_, _, rfl, rfl, quantified_data i quantity⟩
  | removeItem i => exact decode_tagged ⟨_, _, rfl, rfl, removed_data i⟩
  | adjustItemQuantity i quantity => exact decode_tagged ⟨_, _, rfl, rfl, quantified_data i quantity⟩
  | get => exact tagged_bare rfl rfl
  | checkout => exact tagged_bare rfl rfl

theorem decode_canonical (c : Command) : Json.decode Command.decoder c.toJson.canonical = .ok c := by
  cases c with
  | addItem i quantity =>
    exact decode_tagged_canonical (Nat.le_of_ble_eq_true rfl) ⟨_, _, rfl, rfl, quantified_data i quantity⟩
  | removeItem i =>
    exact decode_tagged_canonical (Nat.le_of_ble_eq_true rfl) ⟨_, _, rfl, rfl, removed_data i⟩
  | adjustItemQuantity i quantity =>
    exact decode_tagged_canonical (Nat.le_of_ble_eq_true rfl) ⟨_, _, rfl, rfl, quantified_data i quantity⟩
  | get => exact tagged_bare rfl rfl
  | checkout => exact tagged_bare rfl rfl

theorem roundTrips : RoundTrips Command.toJson Command.decoder fun _ => True :=
  roundTrips_of (fun c _ => whole_toJson c) (fun c _ => decode_toJson c) (fun c _ => decode_canonical c)
    fun _ => trivial

end Command

/-! ### Events -/

namespace Event

theorem canonical_data (e : Event) : (Json.object e.data).canonical = .object e.data := by
  cases e <;> rfl

theorem depth_data (e : Event) : (Json.object e.data).depth ≤ Draft.depthLimit - 1 := by
  cases e <;> exact Nat.le_of_ble_eq_true rfl

theorem decode_canonical (e : Event) : Json.decode Event.decoder e.toJson.canonical = .ok e := by
  refine decode_tagged_canonical (depth_data e) ?_
  rw [canonical_data]
  exact understands_event e

theorem roundTrips : RoundTrips Event.toJson Event.decoder fun _ => True :=
  roundTrips_of (fun e _ => ⟨trivial, whole_data e, trivial⟩) (fun e _ => decode_tagged (understands_event e))
    (fun e _ => decode_canonical e) fun _ => trivial

end Event

/-! ### Summaries and replies -/

namespace Summary

theorem whole_members (s : Summary) : Json.Whole (.object s.members) :=
  ⟨whole_basketJson s.items, trivial, whole_dateJson s.checkoutDate, trivial⟩

theorem decode_toJson (s : Summary) : Json.decode Summary.decoder s.toJson = .ok s := by
  have hitems := basket_basketJson s.items
  have hflag : Decoder.flag (Draft.ofJson (.bool s.checkedOut)) = .ok s.checkedOut := rfl
  have hdate := option_dateJson s.checkoutDate
  refine (record_ok (by rfl) ?_).trans ?_
  · exact checkMembers_ok (by simp [members, Draft.ofMembers])
      ⟨fits_field rfl hitems, fits_field rfl hflag, fits_field rfl hdate, trivial⟩
  · rw [required_eq rfl hitems, ok_bind, required_eq rfl hflag, ok_bind, optional_eq rfl hdate, ok_bind, pure_ok]

theorem decode_canonical (s : Summary) : Json.decode Summary.decoder s.toJson.canonical = .ok s := by
  refine Json.decode_record_canonical (fun _ _ h => by simp only [required, Decoder.optional, h]) (by simp [members]) ?_
  rw [members, List.map_cons, List.map_cons, List.map_cons, canonical_basketJson, canonical_dateJson]
  exact decode_toJson s

theorem roundTrips : RoundTrips Summary.toJson Summary.decoder fun _ => True :=
  roundTrips_of (fun s _ => whole_members s) (fun s _ => decode_toJson s) (fun s _ => decode_canonical s)
    fun _ => trivial

/-- A summary is no deeper than its basket. -/
theorem depth_members (s : Summary) : (Json.object s.members).depth ≤ Draft.depthLimit - 1 := by
  have hbasket : ∀ entries : List (ItemId × UInt32),
      Json.depthMembers (entries.map fun e => (e.1.text, .natural e.2.toNat)) = 0 := by
    intro entries
    induction entries with
    | nil => rfl
    | cons e rest ih => exact (Nat.zero_max _).trans ih
  have hdate : (dateJson s.checkoutDate).depth = 0 := by
    cases s.checkoutDate <;> rfl
  rw [members, Json.depth, Json.depthMembers, Json.depthMembers, Json.depthMembers, Json.depthMembers, hdate,
    basketJson, Json.depth, hbasket]
  exact Nat.le_of_ble_eq_true rfl

end Summary

namespace Reply

theorem whole_toJson (r : Reply) : Json.Whole r.toJson := by
  cases r with
  | accepted s => exact ⟨trivial, s.whole_members, trivial⟩
  | rejected => exact ⟨trivial, ⟨trivial, trivial⟩, trivial⟩
  | summary s => exact ⟨trivial, s.whole_members, trivial⟩

theorem reason_data (reason : String) :
    objectOnly [field "reason" Decoder.text] (fun ms => return .rejected (← required "reason" Decoder.text ms))
      (Draft.ofJson (.object [("reason", .text reason)])) = .ok (Reply.rejected reason) := by
  have hreason := text_eq reason
  refine (objectOnly_ok (by rfl) ?_).trans ?_
  · exact checkMembers_ok (by simp [Draft.ofMembers]) ⟨fits_field rfl hreason, trivial⟩
  · rw [required_eq rfl hreason, ok_bind, pure_ok]

theorem decode_toJson (r : Reply) : Json.decode Reply.decoder r.toJson = .ok r := by
  cases r with
  | accepted s => exact decode_tagged ⟨_, _, rfl, rfl, congrArg (Except.map Reply.accepted) s.decode_toJson⟩
  | rejected reason => exact decode_tagged ⟨_, _, rfl, rfl, reason_data reason⟩
  | summary s => exact decode_tagged ⟨_, _, rfl, rfl, congrArg (Except.map Reply.summary) s.decode_toJson⟩

theorem decode_canonical (r : Reply) : Json.decode Reply.decoder r.toJson.canonical = .ok r := by
  cases r with
  | accepted s =>
    exact decode_tagged_canonical s.depth_members
      ⟨_, _, rfl, rfl, congrArg (Except.map Reply.accepted) s.decode_canonical⟩
  | rejected reason =>
    exact decode_tagged_canonical (Nat.le_of_ble_eq_true rfl) ⟨_, _, rfl, rfl, reason_data reason⟩
  | summary s =>
    exact decode_tagged_canonical s.depth_members
      ⟨_, _, rfl, rfl, congrArg (Except.map Reply.summary) s.decode_canonical⟩

theorem roundTrips : RoundTrips Reply.toJson Reply.decoder fun _ => True :=
  roundTrips_of (fun r _ => whole_toJson r) (fun r _ => decode_toJson r) (fun r _ => decode_canonical r)
    fun _ => trivial

end Reply

end CartLedger.Cart
