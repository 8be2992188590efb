import CartLedger.Proofs.Entity.Beginning
import Mathlib.Data.List.Induction

/-! No two histories of one cart.

Any number of stores, of instances aside from stores and of instances that outlived their
stores may act on one storage, in any order: the stream of a cart is one history, each
event of it decided on all the events before it (`Untouched.safe`). Nothing but the numbering
of records keeps the instances apart. -/
namespace CartLedger.Entity
open CartLedger.Cart (Event)
open CartLedger.Storage (Backend View Correct Memory Files memory files memoryView filesView)
open CartLedger.Time (Timestamp)
open Instance (Message Answer)

/-! ### New events -/

variable {σ : Type} {B : Backend σ} {V : View σ} {w : World σ}

theorem history_grows {rs rs' : List Record} (h : rs <+: rs') : history rs <+: history rs' := by
  obtain ⟨more, rfl⟩ := h
  rw [history_append]
  exact List.prefix_append _ _

/-- What comes new into a history was decided on everything before it. -/
theorem Told.decided {id : String} {clock : Timestamp} {rs rs' : List Record} {messages : List Message}
    {answers : List Answer} (h : Told id clock rs messages answers rs') {i : Nat} {event : Event}
    (hi : (history rs')[i]? = some event) (hnew : (history rs).length ≤ i) :
    ∃ command context, .ask command context ∈ messages ∧
      (Cart.replay .empty ((history rs').take i)).decide id clock command = .persist event := by
  induction h with
  | nil => exact absurd (List.getElem?_eq_some_iff.1 hi).1 (Nat.not_lt.2 hnew)
  | @cons rs rs₁ rs' message messages answer answers hfirst hrest ih =>
    by_cases hlater : (history rs₁).length ≤ i
    · obtain ⟨command, context, hmem, hdecide⟩ := ih hi hlater
      exact ⟨command, context, List.mem_cons_of_mem _ hmem, hdecide⟩
    · cases hfirst with
      | @recorded command context event' entry hdecide hown =>
        -- The event is the one that this message added, behind all of `rs`.
        rw [history_concat, List.length_append, List.length_singleton] at hlater
        obtain rfl : i = (history rs).length := by omega
        have hgrown := history_grows hrest.grows.1
        rw [history_concat] at hgrown
        obtain ⟨more, hmore⟩ := hgrown
        rw [← hmore, List.append_assoc] at hi ⊢
        rw [List.getElem?_append_right (Nat.le_refl _), Nat.sub_self] at hi
        obtain rfl := Option.some.inj hi
        rw [List.take_left' rfl]
        rw [cartAt_length] at hdecide
        exact ⟨command, context, List.mem_cons_self .., hdecide⟩
      | replied => exact absurd hnew hlater
      | observed => exact absurd hnew hlater
      | passivated => exact absurd hnew hlater
      | unanswered => exact absurd hnew hlater
      | unobserved => exact absurd hnew hlater

/-! ### All events -/

/-- The event was decided on the events before it, by the clock of the moment, for a command
that an instance of the cart was asked in one of the steps. -/
def DecidedIn (B : Backend σ) (w : World σ) (steps : List Step) (id : String) (past : List Event)
    (event : Event) : Prop :=
  ∃ before step after messages command context, steps = before ++ step :: after ∧
    (w.run B before).2.addressed step = some (id, messages) ∧ .ask command context ∈ messages ∧
    (Cart.replay .empty past).decide id (w.run B before).2.clock command = .persist event

theorem DecidedIn.append {steps : List Step} {id : String} {past : List Event} {event : Event}
    (h : DecidedIn B w steps id past event) (more : List Step) :
    DecidedIn B w (steps ++ more) id past event := by
  obtain ⟨before, step, after, messages, command, context, rfl, hrest⟩ := h
  exact ⟨before, step, after ++ more, messages, command, context, by simp, hrest⟩

/-- What a step leaves of a history is the history as it was, or goes on from it with events
that were decided in the step. -/
theorem Explained.decided {step : Step} (h : Explained B w step) (id : String) :
    history (w.records B (.ofCart id)) <+: history ((w.act B step).2.records B (.ofCart id)) ∧
      ∀ {i event}, (history ((w.act B step).2.records B (.ofCart id)))[i]? = some event →
        (history (w.records B (.ofCart id))).length ≤ i →
        ∃ messages command context, w.addressed step = some (id, messages) ∧
          .ask command context ∈ messages ∧
          (Cart.replay .empty ((history ((w.act B step).2.records B (.ofCart id))).take i)).decide id w.clock
            command = .persist event := by
  have hsame (he : (w.act B step).2.records B (.ofCart id) = w.records B (.ofCart id)) :
      history (w.records B (.ofCart id)) <+: history ((w.act B step).2.records B (.ofCart id)) ∧
        ∀ {i event}, (history ((w.act B step).2.records B (.ofCart id)))[i]? = some event →
          ¬ (history (w.records B (.ofCart id))).length ≤ i := by
    rw [he]
    exact ⟨List.prefix_refl _, fun hi => Nat.not_le.2 (List.getElem?_eq_some_iff.1 hi).1⟩
  cases haddressed : w.addressed step with
  | none =>
    simp only [Explained, haddressed] at h
    obtain ⟨hgrows, hold⟩ := hsame (h.1 _)
    exact ⟨hgrows, fun hi hnew => absurd hnew (hold hi)⟩
  | some addressee =>
    obtain ⟨id', messages⟩ := addressee
    simp only [Explained, haddressed] at h
    obtain ⟨htold, hothers⟩ := h
    by_cases hid : id = id'
    · subst hid
      refine ⟨history_grows htold.grows.1, fun hi hnew => ?_⟩
      obtain ⟨command, context, hasked, hdecide⟩ := htold.decided hi hnew
      exact ⟨messages, command, context, rfl, hasked, hdecide⟩
    · obtain ⟨hgrows, hold⟩ := hsame (hothers _ fun he => hid (congrArg StreamId.entityId he))
      exact ⟨hgrows, fun hi hnew => absurd hnew (hold hi)⟩

/-- **Every event of a history was decided on the events before it.** -/
theorem Untouched.decided (C : Correct B V) (h : Untouched B V w) (steps : List Step)
    (hfits : ∀ n ≤ (w.run B steps).2.issued, V.Fits n) (id : String) {i : Nat} {event : Event}
    (hi : (history ((w.run B steps).2.records B (.ofCart id)))[i]? = some event) :
    DecidedIn B w steps id ((history ((w.run B steps).2.records B (.ofCart id))).take i) event := by
  induction steps using List.reverseRecOn generalizing i event with
  | nil =>
    rw [World.run, h.records] at hi
    cases hi
  | append_singleton before step ih =>
    have hlast : (w.run B (before ++ [step])).2 = ((w.run B before).2.act B step).2 := by
      rw [World.run_append]
      rfl
    have hexplained := (h.consistent.explained C hfits).2
    rw [hlast] at hi hfits ⊢
    obtain ⟨hgrows, hnew⟩ := hexplained.decided id
    by_cases hlater : (history ((w.run B before).2.records B (.ofCart id))).length ≤ i
    · obtain ⟨messages, command, context, haddressed, hasked, hdecide⟩ := hnew hi hlater
      exact ⟨before, step, [], messages, command, context, rfl, haddressed, hasked, hdecide⟩
    · -- The event was there before the step, and the events before it were.
      obtain ⟨more, hmore⟩ := hgrows
      have hlt := Nat.not_le.1 hlater
      rw [← hmore, List.getElem?_append_left hlt] at hi
      rw [← hmore, List.take_append_of_le_length (Nat.le_of_lt hlt)]
      exact (ih (fun n hn => hfits n (Nat.le_trans hn (World.issued_le_act _ step))) hi).append [step]

/-! ### One history -/

/-- The stream of a cart is one history. -/
structure OneHistory (B : Backend σ) (w : World σ) (steps : List Step) (id : String) (rs : List Record) :
    Prop where
  read : B.readFrom (.ofCart id) 0 (w.run B steps).2.storage = .ok rs
  numbered : rs.map (·.sequenceNr) = List.range' 1 rs.length
  legible : rs.map Record.event? = (history rs).map some
  decided : ∀ {i event}, (history rs)[i]? = some event → DecidedIn B w steps id ((history rs).take i) event

/-- Every cart that is taken has one history, and every step of the run is explained. -/
structure Safe (B : Backend σ) (takes : StreamId → Prop) (w : World σ) (steps : List Step) : Prop where
  history : ∀ id, takes (.ofCart id) → ∃ rs, OneHistory B w steps id rs
  explained : ∀ {before step after}, steps = before ++ step :: after → Explained B (w.run B before).2 step

theorem Untouched.safe (C : Correct B V) (h : Untouched B V w) (steps : List Step)
    (hfits : ∀ n ≤ (w.run B steps).2.issued, V.Fits n) : Safe B V.Takes w steps where
  history id hid := by
    have hhealthy := (h.consistent.run C steps hfits).healthy
    exact ⟨_, C.readAll hhealthy.inv hid, (C.tidy hhealthy.inv).numbered _, (hhealthy.legible _).map,
      h.decided C steps hfits id⟩
  explained he := by
    subst he
    exact (h.consistent.explained C hfits).2

/-- **One history.** Whatever instances share a storage, in memory or in an empty directory, and
in whatever order they act, no cart gets a second history, and what callers are told is
true. Numbers of records in files have 64 bits, so fewer messages than that are sent there. -/
theorem one_history :
    (∀ w : World Memory, w.Fresh → w.storage = .empty → ∀ steps, Safe memory (fun _ => True) w steps) ∧
      ∀ w : World Files, w.Fresh → w.storage.disk = .empty → w.storage.tails = [] → ∀ steps,
        (w.run files steps).2.issued < UInt64.size → Safe files Storage.Layout.Usable w steps := by
  constructor
  · intro w hfresh hstorage steps
    exact (untouched_memory hfresh hstorage).safe Storage.correct_memory steps fun _ _ => trivial
  · intro w hfresh hdisk htails steps hissued
    exact (untouched_files hfresh hdisk htails).safe Storage.correct_files steps fun n hn =>
      Nat.lt_of_le_of_lt hn hissued

/-- Two stores, the second of which starts its instance before the first records anything. -/
theorem two_stores_one_history :
    let settings : Settings := ⟨300000, ⟨1, 1⟩, Settings.cartShards 10, 32⟩
    let steps : List Step := [.observe 1 "a" (some "late"), .ask 0 "a" (.addItem ⟨"x", by decide⟩ 1) .anonymous,
      .send "late" [.ask (.addItem ⟨"x", by decide⟩ 2) .anonymous], .ask 1 "a" .checkout .anonymous]
    let remembered : World Memory := .begin memory .empty Timestamp.epoch settings 0 2
    let filed : World Files := .begin files (.onDisk .empty) Timestamp.epoch settings 0 2
    (filed.run files steps).2.issued < UInt64.size ∧ Safe memory (fun _ => True) remembered steps ∧
      Safe files Storage.Layout.Usable filed steps := by
  intro settings steps remembered filed
  have hissued : (filed.run files steps).2.issued < UInt64.size := by decide +kernel
  exact ⟨hissued, one_history.1 remembered ⟨rfl, by decide, rfl⟩ rfl steps,
    one_history.2 filed ⟨rfl, by decide, rfl⟩ rfl rfl steps hissued⟩

end CartLedger.Entity
