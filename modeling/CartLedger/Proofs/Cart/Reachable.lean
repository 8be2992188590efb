import CartLedger.Proofs.Cart.Histories
import CartLedger.Proofs.Time.Timestamp

/-! Which carts there are.

A cart that begins empty follows the `course` of the commands that it is given. Wherever
they lead, its quantities are such as a command can ask for, and it was not empty when it
was checked out: no decision leads from such a cart to another (`Sound.act`). Every such cart is
also reached, since its items can be put in one by one in the order of their ids
(`exists_course_open`) and a checkout can come last. So these are all the carts there are
(`reachable_iff_sound`), and a reply never shows any other. -/
namespace CartLedger.Cart
open CartLedger.Time (Timestamp)

/-- The cart that commands leave, each with the time at which it is taken up. -/
def course (id : String) (c : Cart) : List (Timestamp × Command) → Cart
  | [] => c
  | (now, command) :: rest => course id (c.act id now command).1 rest

/-- What the commands are answered. -/
def replies (id : String) (c : Cart) : List (Timestamp × Command) → List Reply
  | [] => []
  | (now, command) :: rest => (c.act id now command).2.2 :: replies id (c.act id now command).1 rest

/-- Every item is there in a number that can be asked for, and there are items if it is checked out. -/
structure Sound (c : Cart) : Prop where
  countable : ∀ e ∈ c.items.entries, Countable e.2
  stocked : c.isCheckedOut = true → c.items.isEmpty = false

/-- A summary of a sound cart: it agrees with itself on whether the cart is checked out. -/
structure Summary.Sound (s : Summary) : Prop where
  countable : ∀ e ∈ s.items.entries, Countable e.2
  dated : s.checkedOut = true ↔ s.checkoutDate.isSome = true
  stocked : s.checkedOut = true → s.items.isEmpty = false

/-! ### What commands preserve -/

namespace Sound
variable {c : Cart} {id : String} {now : Timestamp} {command : Command}

theorem empty : Sound .empty := ⟨fun _ he => absurd he List.not_mem_nil, fun h => nomatch h⟩

/-- As long as a cart is open, it matters only what is in it. -/
theorem of_open {items : Basket} (hitems : ∀ e ∈ items.entries, Countable e.2) (hopen : c.isCheckedOut = false) :
    Sound { c with items := items } where
  countable := hitems
  stocked hout := absurd (hopen.symm.trans hout) Bool.false_ne_true

theorem insert (h : Sound c) (hopen : c.isCheckedOut = false) (item : ItemId) {n : UInt32} (hn : Countable n) :
    Sound { c with items := c.items.insert item n } := by
  refine of_open (fun e he => ?_) hopen
  obtain rfl | hold := Entries.mem_put he
  · exact hn
  · exact h.countable e hold

theorem erase (h : Sound c) (hopen : c.isCheckedOut = false) (item : ItemId) :
    Sound { c with items := c.items.erase item } :=
  of_open (fun e he => h.countable e (List.mem_filter.1 he).1) hopen

/-- An event that a command causes leads from a sound cart to a sound cart. -/
theorem apply (h : Sound c) {e : Event} (hdecide : c.decide id now command = .persist e) : Sound (c.apply e) := by
  cases command with
  | addItem item quantity =>
    obtain ⟨hopen, -, n, hn, rfl⟩ := (decideAdd_eq_persist ..).1 hdecide
    exact h.insert hopen item ((positive?_iff n).1 ⟨_, hn⟩)
  | removeItem item =>
    obtain ⟨hopen, -, rfl⟩ := (decideRemove_eq_persist ..).1 hdecide
    exact h.erase hopen item
  | adjustItemQuantity item quantity =>
    obtain ⟨hopen, -, n, hn, rfl⟩ := (decideAdjust_eq_persist ..).1 hdecide
    exact h.insert hopen item ((positive?_iff n).1 ⟨_, hn⟩)
  | get => cases hdecide
  | checkout =>
    obtain ⟨-, hitems, rfl⟩ := (decideCheckout_eq_persist ..).1 hdecide
    exact ⟨h.countable, fun _ => hitems⟩

/-- **One command.** -/
theorem act (h : Sound c) (id : String) (now : Timestamp) (command : Command) : Sound (c.act id now command).1 := by
  rw [act_cart]
  cases hevent : (c.act id now command).2.1 with
  | none => exact h
  | some e => exact h.apply ((act_event ..).1 hevent)

theorem course (h : Sound c) (id : String) (commands : List (Timestamp × Command)) :
    Sound (course id c commands) := by
  induction commands generalizing c with
  | nil => exact h
  | cons first rest ih => exact ih (h.act id first.1 first.2)

theorem summary (h : Sound c) : c.summary.Sound := ⟨h.countable, Iff.rfl, h.stocked⟩

end Sound

/-! ### What replies show -/

theorem summary?_of_reply {c : Cart} {id : String} {now : Timestamp} {command : Command} {reply : Reply}
    (h : c.decide id now command = .reply reply) : reply.summary? = some c.summary := by
  cases command with
  | addItem item quantity =>
    rw [decide, decideAdd] at h
    repeat' split at h
    all_goals cases h
  | removeItem item =>
    rw [decide, decideRemove] at h
    repeat' split at h
    all_goals cases h
    rfl
  | adjustItemQuantity item quantity =>
    rw [decide, decideAdjust] at h
    repeat' split at h
    all_goals cases h
  | get =>
    cases h
    rfl
  | checkout =>
    rw [decide, decideCheckout] at h
    repeat' split at h
    all_goals cases h

/-- A reply that shows a cart shows the one that the command leaves. -/
theorem summary_of_act {c : Cart} {id : String} {now : Timestamp} {command : Command} {s : Summary}
    (h : (c.act id now command).2.2.summary? = some s) : s = (c.act id now command).1.summary := by
  rw [act] at h ⊢
  split at h
  · cases h
  · next hdecide => exact Option.some.inj (h.symm.trans (summary?_of_reply hdecide))
  · exact (Option.some.inj h).symm

theorem Sound.replies {c : Cart} (h : Sound c) (id : String) (commands : List (Timestamp × Command)) :
    ∀ reply ∈ replies id c commands, ∀ s, reply.summary? = some s → s.Sound := by
  induction commands generalizing c with
  | nil => exact fun _ hmem => absurd hmem List.not_mem_nil
  | cons first rest ih =>
    intro reply hmem s hs
    have hnext := h.act id first.1 first.2
    obtain rfl | hmem := List.mem_cons.1 hmem
    · exact summary_of_act hs ▸ hnext.summary
    · exact ih hnext reply hmem s hs

/-! ### How a cart is reached -/

theorem course_concat (id : String) (c : Cart) (commands : List (Timestamp × Command)) (now : Timestamp)
    (command : Command) :
    course id c (commands ++ [(now, command)]) = ((course id c commands).act id now command).1 := by
  induction commands generalizing c with
  | nil => rfl
  | cons first rest ih => exact ih _

/-- A command that causes an event leads where the event does. -/
theorem course_persist {id : String} {c c' : Cart} {commands : List (Timestamp × Command)}
    (hcourse : course id c commands = c') {now : Timestamp} {command : Command} {e : Event}
    (hdecide : c'.decide id now command = .persist e) :
    course id c (commands ++ [(now, command)]) = c'.apply e := by
  rw [course_concat, hcourse, act_cart, (act_event ..).2 hdecide]
  rfl

/-- Items are put into a cart one after another, each behind those that are there. -/
theorem exists_course_open (id : String) (now : Timestamp) {entries : List (ItemId × UInt32)}
    (hascending : Entries.Ascending entries) (hcountable : ∀ e ∈ entries, Countable e.2) :
    ∃ commands, course id .empty commands = ⟨⟨entries, hascending⟩, none⟩ := by
  induction entries using List.reverseRecOn with
  | nil => exact ⟨[], rfl⟩
  | append_singleton past last ih =>
    obtain ⟨hpast, -, hlast⟩ := List.pairwise_append.1 hascending
    have hbehind : ∀ e ∈ past, e.1 < last.1 := fun e he => hlast e he last (List.mem_singleton_self last)
    obtain ⟨commands, hcourse⟩ := ih hpast fun e he => hcountable e (List.mem_append_left _ he)
    obtain ⟨quantity, hquantity⟩ :=
      (positive?_iff last.2).2 (hcountable last (List.mem_append_right _ (List.mem_singleton_self last)))
    have habsent : OrderedMap.contains (⟨past, hpast⟩ : Basket) last.1 = false := by
      refine List.any_eq_false.2 fun e he heq => ?_
      exact OrderedKey.irrefl last.1 (of_decide_eq_true heq ▸ hbehind e he)
    have hdecide : decide ⟨⟨past, hpast⟩, none⟩ id now (.addItem last.1 quantity) =
        .persist (.itemAdded id last.1 last.2 now) :=
      (decideAdd_eq_persist ..).2 ⟨rfl, habsent, last.2, hquantity, rfl⟩
    have hentries : (OrderedMap.insert (⟨past, hpast⟩ : Basket) last.1 last.2).entries = past ++ [last] :=
      Entries.put_last hbehind
    refine ⟨commands ++ [(now, .addItem last.1 quantity)], ?_⟩
    rw [course_persist hcourse hdecide, apply]
    simp only [Cart.mk.injEq, and_true]
    exact OrderedMap.ext_get? fun item => congrArg (Entries.find? item) hentries

theorem exists_course_sound {c : Cart} (h : Sound c) (id : String) : ∃ commands, course id .empty commands = c := by
  obtain ⟨items, date⟩ := c
  obtain ⟨commands, hcourse⟩ := exists_course_open id .epoch items.ascending h.countable
  cases date with
  | none => exact ⟨commands, hcourse⟩
  | some time =>
    have hdecide : decide ⟨items, none⟩ id time .checkout = .persist (.checkedOut id time) :=
      (decideCheckout_eq_persist ..).2 ⟨rfl, h.stocked rfl, rfl⟩
    exact ⟨commands ++ [(time, .checkout)], course_persist hcourse hdecide⟩

/-- **The carts that commands lead to are the sound ones**, all of them and no others, and on the
way every reply shows a sound cart. -/
theorem reachable_iff_sound (id : String) :
    (∀ c, (∃ commands, course id .empty commands = c) ↔ Sound c) ∧
      ∀ commands, ∀ reply ∈ replies id .empty commands, ∀ s, reply.summary? = some s → s.Sound := by
  refine ⟨fun c => ⟨?_, fun h => exists_course_sound h id⟩, fun commands => Sound.empty.replies id commands⟩
  rintro ⟨commands, rfl⟩
  exact Sound.empty.course id commands

end CartLedger.Cart
