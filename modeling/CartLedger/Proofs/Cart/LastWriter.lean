import CartLedger.Proofs.Cart.Histories
import CartLedger.Proofs.Time.Timestamp

/-! What a replay leaves, of events that need not be a history.

Of each item only the latest event about it counts, and of checkouts the latest one
(`get?_replay`, `checkoutDate_replay`); where there is none, the cart is as it was. Lists of
events with the same latest ones therefore lead to the same cart (`replay_congr`). So it does
no harm to drop an event that a later one overwrites, or to let two neighbours about
different items change places. -/
namespace CartLedger.Cart
open CartLedger.Time (Timestamp)

/-- The quantity of its item that an event leaves, if it leaves any. -/
def Event.quantity? : Event → Option UInt32
  | .itemAdded _ _ quantity _ => some quantity
  | .itemQuantityAdjusted _ _ quantity _ => some quantity
  | .itemRemoved .. => none
  | .checkedOut .. => none

def Event.checkoutTime? : Event → Option Timestamp
  | .checkedOut _ time => some time
  | _ => none

/-- The time of the latest checkout. -/
def latestCheckout? (past : List Event) : Option Timestamp := past.reverse.findSome? Event.checkoutTime?

theorem Event.checkoutTime?_eq_none {e : Event} {item : ItemId} (h : e.item? = some item) :
    e.checkoutTime? = none := by
  cases e with
  | checkedOut => cases h
  | _ => rfl

/-! ### One event -/

theorem get?_apply (c : Cart) (e : Event) (item : ItemId) :
    (c.apply e).items.get? item = if e.item? = some item then e.quantity? else c.items.get? item := by
  cases e with
  | itemAdded => simp [apply, Event.item?, Event.quantity?, OrderedMap.get?_insert]
  | itemQuantityAdjusted => simp [apply, Event.item?, Event.quantity?, OrderedMap.get?_insert]
  | itemRemoved => simp [apply, Event.item?, Event.quantity?, OrderedMap.get?_erase]
  | checkedOut => rfl

theorem checkoutDate_apply (c : Cart) (e : Event) :
    (c.apply e).checkoutDate = e.checkoutTime?.or c.checkoutDate := by
  cases e <;> rfl

/-! ### All events -/

theorem latest?_append (item : ItemId) (past more : List Event) :
    latest? item (past ++ more) = (latest? item more).or (latest? item past) := by
  rw [latest?, List.reverse_append, List.find?_append]
  rfl

theorem latest?_cons (item : ItemId) (e : Event) (rest : List Event) :
    latest? item (e :: rest) = (latest? item rest).or (if e.item? = some item then some e else none) := by
  rw [← List.singleton_append, latest?_append]
  by_cases h : e.item? = some item <;> simp [latest?, h]

theorem latestCheckout?_append (past more : List Event) :
    latestCheckout? (past ++ more) = (latestCheckout? more).or (latestCheckout? past) := by
  rw [latestCheckout?, List.reverse_append, List.findSome?_append]
  rfl

theorem latestCheckout?_cons_item {e : Event} {item : ItemId} (h : e.item? = some item) (rest : List Event) :
    latestCheckout? (e :: rest) = latestCheckout? rest := by
  rw [← List.singleton_append, latestCheckout?_append]
  simp [latestCheckout?, Event.checkoutTime?_eq_none h]

theorem get?_replay (c : Cart) (events : List Event) (item : ItemId) :
    (c.replay events).items.get? item =
      match latest? item events with
      | some e => e.quantity?
      | none => c.items.get? item := by
  induction events using List.reverseRecOn with
  | nil => rfl
  | append_singleton past e ih =>
    rw [replay_concat, get?_apply, latest?_concat]
    split
    · rfl
    · exact ih

theorem checkoutDate_replay (c : Cart) (events : List Event) :
    (c.replay events).checkoutDate = (latestCheckout? events).or c.checkoutDate := by
  induction events using List.reverseRecOn with
  | nil => rfl
  | append_singleton past e ih =>
    rw [replay_concat, checkoutDate_apply, ih, latestCheckout?_append, Option.or_assoc]
    cases e <;> rfl

theorem ext_cart {c c' : Cart} (hitems : ∀ item, c.items.get? item = c'.items.get? item)
    (hdate : c.checkoutDate = c'.checkoutDate) : c = c' := by
  obtain ⟨items, date⟩ := c
  obtain ⟨items', date'⟩ := c'
  obtain rfl : items = items' := OrderedMap.ext_get? hitems
  obtain rfl : date = date' := hdate
  rfl

/-- Only the latest events matter. -/
theorem replay_congr (c : Cart) {events events' : List Event}
    (hitems : ∀ item, latest? item events = latest? item events')
    (hcheckout : latestCheckout? events = latestCheckout? events') : c.replay events = c.replay events' := by
  refine ext_cart (fun item => ?_) ?_
  · rw [get?_replay, get?_replay, hitems]
  · rw [checkoutDate_replay, checkoutDate_replay, hcheckout]

/-! ### What may be left out, and what may change places -/

/-- An event is overwritten by a later one about its item. -/
theorem replay_overwritten (c : Cart) (past : List Event) {e : Event} {rest : List Event} {item : ItemId}
    (he : e.item? = some item) (hlater : ∃ later ∈ rest, later.item? = some item) :
    c.replay (past ++ e :: rest) = c.replay (past ++ rest) := by
  refine replay_congr c (fun other => ?_) ?_
  · rw [latest?_append, latest?_append, latest?_cons]
    by_cases hother : e.item? = some other
    · obtain rfl : item = other := Option.some.inj (he.symm.trans hother)
      obtain ⟨later, hmem, hitem⟩ := hlater
      have hfound : (latest? item rest).isSome = true := by
        rw [latest?, List.find?_isSome]
        exact ⟨later, List.mem_reverse.2 hmem, decide_eq_true hitem⟩
      rw [Option.or_of_isSome hfound]
    · rw [if_neg hother, Option.or_none]
  · rw [latestCheckout?_append, latestCheckout?_append, latestCheckout?_cons_item he]

/-- Neighbours about different items do not see each other. -/
theorem replay_swapped (c : Cart) (past : List Event) {e e' : Event} (rest : List Event) {item item' : ItemId}
    (he : e.item? = some item) (he' : e'.item? = some item') (hne : item ≠ item') :
    c.replay (past ++ e :: e' :: rest) = c.replay (past ++ e' :: e :: rest) := by
  refine replay_congr c (fun i => ?_) ?_
  · rw [latest?_append, latest?_append, latest?_cons, latest?_cons, latest?_cons, latest?_cons, he, he']
    by_cases hi : item = i
    · have hi' : item' ≠ i := fun h => hne (hi.trans h.symm)
      simp [hi']
    · simp [hi]
  · rw [latestCheckout?_append, latestCheckout?_append, latestCheckout?_cons_item he,
      latestCheckout?_cons_item he', latestCheckout?_cons_item he', latestCheckout?_cons_item he]

/-- What replaying the events on the cart comes to. -/
structure LastWriterWins (c : Cart) (events : List Event) : Prop where
  /-- The latest event about an item says how much of it there is, -/
  items : ∀ item, (c.replay events).items.get? item =
    match latest? item events with
    | some e => e.quantity?
    | none => c.items.get? item
  /-- and the latest checkout when it was. -/
  checkoutDate : (c.replay events).checkoutDate = (latestCheckout? events).or c.checkoutDate
  /-- An event that a later one about its item follows may be left out. -/
  overwritten : ∀ {past e rest item}, events = past ++ e :: rest → e.item? = some item →
    (∃ later ∈ rest, later.item? = some item) → c.replay (past ++ rest) = c.replay events
  /-- Neighbours about different items may change places. -/
  swapped : ∀ {past e e' rest item item'}, events = past ++ e :: e' :: rest → e.item? = some item →
    e'.item? = some item' → item ≠ item' → c.replay (past ++ e' :: e :: rest) = c.replay events

/-- **The last writer of an item wins**, whatever the events are and whatever they meet. -/
theorem replay_last_writer_wins (c : Cart) (events : List Event) : LastWriterWins c events where
  items := get?_replay c events
  checkoutDate := checkoutDate_replay c events
  overwritten heq he hlater := heq ▸ (replay_overwritten c _ he hlater).symm
  swapped heq he he' hne := heq ▸ (replay_swapped c _ _ he he' hne).symm

/-- An item that is removed, and added again after another one: the removal may come later, or not
at all. -/
theorem removed_and_added_again :
    let a : ItemId := ⟨"a", by decide⟩
    let b : ItemId := ⟨"b", by decide⟩
    let added (item : ItemId) (quantity : UInt32) : Event := .itemAdded "cart" item quantity .epoch
    let removed : Event := .itemRemoved "cart" a .epoch
    let c : Cart := ⟨OrderedMap.ofList [(a, 1)], none⟩
    c.replay [added b 2, added a 3] = c.replay [removed, added b 2, added a 3] ∧
      c.replay [added b 2, removed, added a 3] = c.replay [removed, added b 2, added a 3] := by
  intro a b added removed c
  have hwins := replay_last_writer_wins c [removed, added b 2, added a 3]
  have hoverwritten : c.replay ([] ++ [added b 2, added a 3]) = _ :=
    hwins.overwritten rfl rfl ⟨added a 3, by simp, rfl⟩
  have hswapped : c.replay ([] ++ [added b 2, removed, added a 3]) = _ :=
    hwins.swapped rfl rfl rfl (by decide)
  exact ⟨hoverwritten, hswapped⟩

end CartLedger.Cart
