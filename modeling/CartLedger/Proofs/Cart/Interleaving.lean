import CartLedger.Proofs.Cart.LastWriter
import CartLedger.Proofs.Cart.Reachable

/-! Commands about different items do not see each other.

What becomes of a command about an item depends on no more of a cart than two carts have in
common that are `Alike` in it, and a command about another item changes nothing of that. So of
any commands about items, those about one of them fare as if they were alone
(`Alike.outcomes`), and how the commands of all the items are shuffled is of no consequence
(`interleaving_irrelevant`). -/
namespace CartLedger.Cart
open CartLedger.Time (Timestamp)

/-- The item a command is about. -/
def Command.item? : Command → Option ItemId
  | .addItem item _ => some item
  | .removeItem item => some item
  | .adjustItemQuantity item _ => some item
  | .get => none
  | .checkout => none

def Command.isAbout (item : ItemId) (command : Command) : Bool := command.item? = some item

def Event.isAbout (item : ItemId) (e : Event) : Bool := e.item? = some item

def Reply.isAccepted : Reply → Bool
  | .accepted _ => true
  | _ => false

/-- A command that was taken up, and what became of it. -/
structure Outcome where
  time : Timestamp
  command : Command
  event : Option Event
  accepted : Bool
  refusal : Option String

def outcome (c : Cart) (id : String) (now : Timestamp) (command : Command) : Outcome where
  time := now
  command := command
  event := (c.act id now command).2.1
  accepted := (c.act id now command).2.2.isAccepted
  refusal := (c.act id now command).2.2.rejectionReason?

@[simp] theorem outcome_command (c : Cart) (id : String) (now : Timestamp) (command : Command) :
    (c.outcome id now command).command = command := rfl

/-- What becomes of commands, each with the time at which it is taken up. -/
def outcomes (id : String) (c : Cart) : List (Timestamp × Command) → List Outcome
  | [] => []
  | (now, command) :: rest => c.outcome id now command :: outcomes id (c.act id now command).1 rest

/-- Two carts that have the same to show of an item. -/
structure Alike (item : ItemId) (c c' : Cart) : Prop where
  items : c.items.get? item = c'.items.get? item
  checkoutDate : c.checkoutDate = c'.checkoutDate

/-! ### One command -/

/-- An event is about the item of the command that causes it. -/
theorem item?_of_decide {c : Cart} {id : String} {now : Timestamp} {command : Command} {e : Event}
    (h : c.decide id now command = .persist e) : e.item? = command.item? := by
  cases command with
  | addItem item quantity =>
    obtain ⟨-, -, n, -, rfl⟩ := (decideAdd_eq_persist ..).1 h
    rfl
  | removeItem item =>
    obtain ⟨-, -, rfl⟩ := (decideRemove_eq_persist ..).1 h
    rfl
  | adjustItemQuantity item quantity =>
    obtain ⟨-, -, n, -, rfl⟩ := (decideAdjust_eq_persist ..).1 h
    rfl
  | get => cases h
  | checkout =>
    obtain ⟨-, -, rfl⟩ := (decideCheckout_eq_persist ..).1 h
    rfl

namespace Alike
variable {item : ItemId} {c c' : Cart}

theorem refl (item : ItemId) (c : Cart) : Alike item c c := ⟨rfl, rfl⟩

theorem apply (h : Alike item c c') (e : Event) : Alike item (c.apply e) (c'.apply e) where
  items := by rw [get?_apply, get?_apply, h.items]
  checkoutDate := by rw [checkoutDate_apply, checkoutDate_apply, h.checkoutDate]

/-- An event about another item goes unnoticed. -/
theorem apply_other (h : Alike item c c') {e : Event} {other : ItemId} (he : e.item? = some other)
    (hne : other ≠ item) : Alike item (c.apply e) c' where
  items := by rw [get?_apply, he, if_neg (fun h => hne (Option.some.inj h)), h.items]
  checkoutDate := by rw [checkoutDate_apply, Event.checkoutTime?_eq_none he, Option.none_or, h.checkoutDate]

/-- A command about the item fares the same on both carts. -/
theorem outcome (h : Alike item c c') (id : String) (now : Timestamp) {command : Command}
    (hitem : command.item? = some item) : c.outcome id now command = c'.outcome id now command := by
  have hout : c.isCheckedOut = c'.isCheckedOut := congrArg Option.isSome h.checkoutDate
  have hin : c.items.contains item = c'.items.contains item := by
    rw [OrderedMap.contains_eq_isSome, OrderedMap.contains_eq_isSome, h.items]
  cases command with
  | addItem i quantity =>
    obtain rfl : i = item := Option.some.inj hitem
    simp only [Cart.outcome, act, decide, decideAdd, hout, hin]
    cases c'.isCheckedOut <;> cases c'.items.contains i <;> cases positive? quantity <;> rfl
  | removeItem i =>
    obtain rfl : i = item := Option.some.inj hitem
    simp only [Cart.outcome, act, decide, decideRemove, hout, hin]
    cases c'.isCheckedOut <;> cases c'.items.contains i <;> rfl
  | adjustItemQuantity i quantity =>
    obtain rfl : i = item := Option.some.inj hitem
    simp only [Cart.outcome, act, decide, decideAdjust, hout, hin]
    cases c'.isCheckedOut <;> cases c'.items.contains i <;> cases positive? quantity <;> rfl
  | get => cases hitem
  | checkout => cases hitem

/-- The carts that a command about the item leaves are alike in it. -/
theorem act (h : Alike item c c') (id : String) (now : Timestamp) {command : Command}
    (hitem : command.item? = some item) :
    Alike item (c.act id now command).1 (c'.act id now command).1 := by
  have hevent : (c.act id now command).2.1 = (c'.act id now command).2.1 :=
    congrArg Outcome.event (h.outcome id now hitem)
  rw [act_cart, act_cart, hevent]
  cases (c'.act id now command).2.1 with
  | none => exact h
  | some e => exact h.apply e

theorem act_other (h : Alike item c c') (id : String) (now : Timestamp) {command : Command} {other : ItemId}
    (hitem : command.item? = some other) (hne : other ≠ item) : Alike item (c.act id now command).1 c' := by
  rw [act_cart]
  cases hevent : (c.act id now command).2.1 with
  | none => exact h
  | some e => exact h.apply_other ((item?_of_decide ((act_event ..).1 hevent)).trans hitem) hne

/-! ### All commands -/

/-- **Commands about an item fare as if they were alone**, and leave of it what they would leave. -/
theorem outcomes (h : Alike item c c') (id : String) {commands : List (Timestamp × Command)}
    (hitems : ∀ x ∈ commands, ∃ i, x.2.item? = some i) :
    (Cart.outcomes id c commands).filter (·.command.isAbout item) =
        Cart.outcomes id c' (commands.filter (·.2.isAbout item)) ∧
      Alike item (course id c commands) (course id c' (commands.filter (·.2.isAbout item))) := by
  induction commands generalizing c c' with
  | nil => exact ⟨rfl, h⟩
  | cons first rest ih =>
    obtain ⟨now, command⟩ := first
    have hrest : ∀ x ∈ rest, ∃ i, x.2.item? = some i := fun x hx => hitems x (List.mem_cons_of_mem _ hx)
    simp only [Cart.outcomes, course, List.filter_cons, outcome_command]
    by_cases hitem : command.item? = some item
    · obtain ⟨houtcomes, hcourse⟩ := ih (h.act id now hitem) hrest
      have habout : command.isAbout item = true := decide_eq_true hitem
      simp only [habout, if_true, Cart.outcomes, course]
      exact ⟨by rw [h.outcome id now hitem, houtcomes], hcourse⟩
    · obtain ⟨i, hi⟩ := hitems _ (List.mem_cons_self ..)
      have habout : command.isAbout item = false := decide_eq_false hitem
      simp only [habout, Bool.false_eq_true, if_false]
      exact ih (h.act_other id now hi fun he => hitem (he ▸ hi)) hrest

end Alike

/-- The events about an item are those of the commands about it. -/
theorem filter_emitted (id : String) (c : Cart) (commands : List (Timestamp × Command)) (item : ItemId) :
    (emitted id c commands).filter (·.isAbout item) =
      ((outcomes id c commands).filter (·.command.isAbout item)).filterMap Outcome.event := by
  induction commands generalizing c with
  | nil => rfl
  | cons first rest ih =>
    obtain ⟨now, command⟩ := first
    rw [emitted, outcomes, List.filter_append, ih, List.filter_cons, outcome_command]
    have hevent : (c.outcome id now command).event = (c.act id now command).2.1 := rfl
    cases hact : (c.act id now command).2.1 with
    | none => cases command.isAbout item <;> simp [hevent, hact]
    | some e =>
      have hsame : e.isAbout item = command.isAbout item := by
        rw [Event.isAbout, item?_of_decide ((act_event ..).1 hact), Command.isAbout]
      cases habout : command.isAbout item <;> simp [hevent, hact, hsame, habout]

/-- Commands about items check nothing out. -/
theorem checkoutDate_course (id : String) (c : Cart) {commands : List (Timestamp × Command)}
    (hitems : ∀ x ∈ commands, ∃ item, x.2.item? = some item) :
    (course id c commands).checkoutDate = c.checkoutDate := by
  induction commands generalizing c with
  | nil => rfl
  | cons first rest ih =>
    obtain ⟨now, command⟩ := first
    obtain ⟨item, hitem⟩ := hitems _ (List.mem_cons_self ..)
    rw [course, ih _ fun x hx => hitems x (List.mem_cons_of_mem _ hx), act_cart]
    cases hact : (c.act id now command).2.1 with
    | none => rfl
    | some e =>
      have he : e.item? = some item := (item?_of_decide ((act_event ..).1 hact)).trans hitem
      exact (checkoutDate_apply c e).trans (by rw [Event.checkoutTime?_eq_none he, Option.none_or])

/-- **How commands about items are shuffled does not matter**, as long as those about one item
keep their order: the cart is the same in the end, every item sees the same events, and every
command is accepted, or refused for the same reason, as before. -/
theorem interleaving_irrelevant (id : String) (c : Cart) {commands commands' : List (Timestamp × Command)}
    (hitems : ∀ x ∈ commands, ∃ item, x.2.item? = some item)
    (hitems' : ∀ x ∈ commands', ∃ item, x.2.item? = some item)
    (hsame : ∀ item, commands.filter (·.2.isAbout item) = commands'.filter (·.2.isAbout item)) :
    course id c commands = course id c commands' ∧ ∀ item,
      (emitted id c commands).filter (·.isAbout item) = (emitted id c commands').filter (·.isAbout item) ∧
        (outcomes id c commands).filter (·.command.isAbout item) =
          (outcomes id c commands').filter (·.command.isAbout item) := by
  have halone := fun item => (Alike.refl item c).outcomes id hitems
  have halone' := fun item => (Alike.refl item c).outcomes id hitems'
  have houtcomes : ∀ item, (outcomes id c commands).filter (·.command.isAbout item) =
      (outcomes id c commands').filter (·.command.isAbout item) := by
    intro item
    rw [(halone item).1, (halone' item).1, hsame]
  refine ⟨ext_cart (fun item => ?_) ?_, fun item => ⟨?_, houtcomes item⟩⟩
  · rw [(halone item).2.items, (halone' item).2.items, hsame]
  · rw [checkoutDate_course id c hitems, checkoutDate_course id c hitems']
  · rw [filter_emitted, filter_emitted, houtcomes]

/-- Two commands about each of two items, of which one is refused, one after another and in turns. -/
theorem two_items_in_turns :
    let a : ItemId := ⟨"a", by decide⟩
    let b : ItemId := ⟨"b", by decide⟩
    let at_ (command : Command) : Timestamp × Command := (.epoch, command)
    let c : Cart := ⟨OrderedMap.ofList [(a, 1)], none⟩
    let apart := [at_ (.adjustItemQuantity a 0), at_ (.removeItem a), at_ (.addItem b 2), at_ (.removeItem b)]
    let turns := [at_ (.addItem b 2), at_ (.adjustItemQuantity a 0), at_ (.removeItem b), at_ (.removeItem a)]
    (∀ x ∈ apart, ∃ item, x.2.item? = some item) ∧ (∀ x ∈ turns, ∃ item, x.2.item? = some item) ∧
      (∀ item, apart.filter (·.2.isAbout item) = turns.filter (·.2.isAbout item)) ∧
      course "cart" c apart = course "cart" c turns ∧ ∀ item,
        (emitted "cart" c apart).filter (·.isAbout item) = (emitted "cart" c turns).filter (·.isAbout item) ∧
          (outcomes "cart" c apart).filter (·.command.isAbout item) =
            (outcomes "cart" c turns).filter (·.command.isAbout item) := by
  intro a b at_ c apart turns
  have hne : a ≠ b := by decide
  have hapart : ∀ x ∈ apart, ∃ item, x.2.item? = some item := by simp [apart, at_, Command.item?]
  have hturns : ∀ x ∈ turns, ∃ item, x.2.item? = some item := by simp [turns, at_, Command.item?]
  have hsame : ∀ item, apart.filter (·.2.isAbout item) = turns.filter (·.2.isAbout item) := by
    intro item
    by_cases ha : a = item
    · have hb : b ≠ item := fun hb => hne (ha.trans hb.symm)
      simp [apart, turns, at_, Command.isAbout, Command.item?, ha, hb]
    · by_cases hb : b = item <;> simp [apart, turns, at_, Command.isAbout, Command.item?, ha, hb]
  exact ⟨hapart, hturns, hsame, interleaving_irrelevant "cart" c hapart hturns hsame⟩

end CartLedger.Cart
