import CartLedger.OrderedMap.Lemmas
import CartLedger.Proofs.Json.Canonical
import CartLedger.Proofs.Time.Timestamp
import CartLedger.Record.Codec

/-! Carts and events are decoded as what they were written from.

A cart is written with its basket as an object, one member for each item; reading enters
the items one after another and arrives at the same basket, since that is in order
(`decode_toJson`). An event's data are decoded under the event's name (`event?_ofEvent`). -/
namespace CartLedger.Cart
open CartLedger.Json (Draft Decoder)
open CartLedger.Json.Decoder
open CartLedger.Time (Timestamp)

/-! ### Parts -/

theorem text_eq (s : String) : Decoder.text (.text (some s)) = .ok s := rfl

theorem timestamp_toString (t : Timestamp) : timestamp (.text (some t.toString)) = .ok t := by
  rw [timestamp, text_eq, ok_bind]
  simp only [Timestamp.ofString?_toString]

theorem itemOf_text (i : ItemId) : itemOf i.text = .ok i := by
  rw [itemOf, ItemId.of?, dif_neg i.nonempty]

theorem item_text (i : ItemId) : item (.text (some i.text)) = .ok i := itemOf_text i

/-! ### Events -/

theorem changedItem_data (build : String → ItemId → UInt32 → Timestamp → Event) (cart : String)
    (i : ItemId) (quantity : UInt32) (time : Timestamp) :
    changedItem build (.object [(some "cart_id", .text (some cart)),
      (some "item_id", .text (some i.text)),
      (some "quantity", .number (some (.integer quantity.toNat))),
      (some "time", .text (some time.toString))]) = .ok (build cart i quantity time) := by
  have hcart := text_eq cart
  have hitem := item_text i
  have hquantity := word32_eq quantity
  have htime := timestamp_toString time
  refine (objectOnly_ok (by rfl) ?_).trans ?_
  · exact checkMembers_ok (by simp) ⟨fits_field rfl hcart, fits_field rfl hitem,
      fits_field rfl hquantity, fits_field rfl htime, trivial⟩
  · rw [required_eq rfl hcart, ok_bind, required_eq rfl hitem, ok_bind, required_eq rfl hquantity,
      ok_bind, required_eq rfl htime, ok_bind, pure_ok]

theorem understands_event (e : Event) :
    Understands Event.decoder e.typeName (Draft.ofJson (.object e.data)) e := by
  cases e with
  | itemAdded cart i quantity time => exact ⟨_, _, rfl, rfl, changedItem_data .itemAdded cart i quantity time⟩
  | itemQuantityAdjusted cart i quantity time =>
    exact ⟨_, _, rfl, rfl, changedItem_data .itemQuantityAdjusted cart i quantity time⟩
  | itemRemoved cart i time =>
    have hcart := text_eq cart
    have hitem := item_text i
    have htime := timestamp_toString time
    refine ⟨_, _, rfl, rfl, ?_⟩
    dsimp only
    refine (objectOnly_ok (by rfl) ?_).trans ?_
    · exact checkMembers_ok (by simp [Event.data, Draft.ofMembers]) ⟨fits_field rfl hcart, fits_field rfl hitem,
        fits_field rfl htime, trivial⟩
    · rw [required_eq rfl hcart, ok_bind, required_eq rfl hitem, ok_bind, required_eq rfl htime,
        ok_bind, pure_ok]
  | checkedOut cart time =>
    have hcart := text_eq cart
    have htime := timestamp_toString time
    refine ⟨_, _, rfl, rfl, ?_⟩
    dsimp only
    refine (objectOnly_ok (by rfl) ?_).trans ?_
    · exact checkMembers_ok (by simp [Event.data, Draft.ofMembers]) ⟨fits_field rfl hcart, fits_field rfl htime, trivial⟩
    · rw [required_eq rfl hcart, ok_bind, required_eq rfl htime, ok_bind, pure_ok]

/-- The data of an event are kept as they are, deep enough below the surface. -/
theorem toJson?_data (e : Event) {room : Nat} (h : 0 < room) :
    (Draft.ofJson (.object e.data)).toJson? room = some (.object e.data) := by
  obtain ⟨room, rfl⟩ : ∃ r, room = r + 1 := ⟨room - 1, by omega⟩
  cases e <;> rfl

/-- An event is decoded from its data and its name, in whichever order they stand. -/
theorem decode_dataFirst (e : Event) :
    Json.decode Event.decoder (.object [("data", .object e.data), ("type", .text e.typeName)]) =
      .ok e :=
  (understands_event e).dataFirst (toJson?_data e (by decide))

/-- The event in a record that was made of it. -/
theorem event?_ofEvent (entry : Record.Entry) (e : Event) :
    (Record.ofEvent entry e).event? = some e := by
  have htagged : (Record.ofEvent entry e).taggedJson =
      .object [("data", .object e.data), ("type", .text e.typeName)] := rfl
  rw [Record.event?, htagged, decode_dataFirst]
  rfl

theorem whole_quantity (n : UInt32) : Json.Whole (.natural n.toNat) :=
  Json.whole_natural (Nat.lt_trans n.toNat_lt (by decide))

theorem whole_data (e : Event) : Json.Whole (.object e.data) := by
  cases e with
  | itemAdded _ _ quantity _ => exact ⟨trivial, trivial, whole_quantity quantity, trivial, trivial⟩
  | itemQuantityAdjusted _ _ quantity _ =>
    exact ⟨trivial, trivial, whole_quantity quantity, trivial, trivial⟩
  | itemRemoved => exact ⟨trivial, trivial, trivial, trivial⟩
  | checkedOut => exact ⟨trivial, trivial, trivial⟩

/-! ### Baskets -/

theorem basketEntries_map (kept : Basket) (rest : List (ItemId × UInt32)) :
    basketEntries kept (Draft.ofMembers (rest.map fun e => (e.1.text, .natural e.2.toNat))) =
      .ok (rest.foldl (fun items e => items.insert e.1 e.2) kept) := by
  induction rest generalizing kept with
  | nil => rfl
  | cons e rest ih =>
    rw [List.map_cons, Draft.ofMembers, basketEntries, itemOf_text, ok_bind,
      show Draft.ofJson (.natural e.2.toNat) = .number (some (.integer e.2.toNat)) from rfl,
      word32_eq, ok_bind, ih]
    rfl

theorem basket_basketJson (items : Basket) : basket (Draft.ofJson (basketJson items)) = .ok items :=
  (basketEntries_map .empty items.entries).trans (congrArg Except.ok (OrderedMap.ofList_entries items))

theorem canonicalMembers_map (kept : List (String × Json)) (rest : List (ItemId × UInt32))
    (h : Entries.Ascending (kept ++ rest.map fun e => (e.1.text, Json.natural e.2.toNat))) :
    Json.canonicalMembers kept (rest.map fun e => (e.1.text, .natural e.2.toNat)) =
      kept ++ rest.map fun e => (e.1.text, .natural e.2.toNat) := by
  induction rest generalizing kept with
  | nil => exact (List.append_nil _).symm
  | cons e rest ih =>
    have hput : Entries.put e.1.text (Json.natural e.2.toNat) kept =
        kept ++ [(e.1.text, .natural e.2.toNat)] :=
      Entries.put_last fun e' he => (List.pairwise_append.1 h).2.2 e' he _ (List.mem_cons_self ..)
    have hassoc : ∀ l : List (String × Json), (kept ++ [(e.1.text, .natural e.2.toNat)]) ++ l =
        kept ++ (e.1.text, .natural e.2.toNat) :: l := fun l => by
      rw [List.append_assoc]
      rfl
    rw [List.map_cons, Json.canonicalMembers, show (Json.natural e.2.toNat).canonical =
      .natural e.2.toNat from rfl, hput, ih _ (by rw [hassoc]; exact h), hassoc]

/-- A basket is written in canonical form. -/
theorem canonical_basketJson (items : Basket) : (basketJson items).canonical = basketJson items := by
  have hascending : Entries.Ascending
      (([] : List (String × Json)) ++ items.entries.map fun e => (e.1.text, Json.natural e.2.toNat)) :=
    List.Pairwise.map _ (fun _ _ h => h) items.ascending
  exact congrArg Json.object (canonicalMembers_map [] items.entries hascending)

theorem whole_basketJson (items : Basket) : Json.Whole (basketJson items) := by
  refine Json.wholeMembers_iff.2 fun m hm => ?_
  obtain ⟨e, -, rfl⟩ := List.mem_map.1 hm
  exact whole_quantity e.2

/-! ### Carts -/

theorem option_dateJson (date : Option Timestamp) :
    Decoder.option timestamp (Draft.ofJson (dateJson date)) = .ok date := by
  cases date with
  | none => rfl
  | some t => exact congrArg (Except.map some) (timestamp_toString t)

theorem whole_dateJson (date : Option Timestamp) : Json.Whole (dateJson date) := by
  cases date <;> trivial

theorem canonical_dateJson (date : Option Timestamp) : (dateJson date).canonical = dateJson date := by
  cases date <;> rfl

theorem whole_toJson (c : Cart) : Json.Whole c.toJson :=
  ⟨whole_basketJson c.items, whole_dateJson c.checkoutDate, trivial⟩

theorem decode_toJson (c : Cart) : Json.decode Cart.decoder c.toJson = .ok c := by
  have hitems := basket_basketJson c.items
  have hdate := option_dateJson c.checkoutDate
  refine (record_ok (by rfl) ?_).trans ?_
  · exact checkMembers_ok (by simp [Draft.ofMembers]) ⟨fits_field rfl hitems, fits_field rfl hdate, trivial⟩
  · rw [required_eq rfl hitems, ok_bind, optional_eq rfl hdate, ok_bind, pure_ok]

/-- A cart that was kept as a value, with its members in the order of their names. -/
theorem decode_canonical (c : Cart) : Json.decode Cart.decoder c.toJson.canonical = .ok c := by
  refine Json.decode_record_canonical (fun _ _ h => by simp only [required, Decoder.optional, h]) (by simp) ?_
  rw [List.map_cons, List.map_cons, canonical_basketJson, canonical_dateJson]
  exact decode_toJson c

end CartLedger.Cart
