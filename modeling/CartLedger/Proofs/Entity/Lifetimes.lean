import CartLedger.Proofs.Entity.Beginning

/-! How long an instance lives.

An instance is heard of with every message that it handles, and stops when it is asked to,
when an event of it is not recorded, and when it has been silent for too long. All of this
can be told from outside: from the messages, from the answers to them and from the time that
passes. `Timed` says so of a single instance, given for how long it has been silent; each of
the things that can happen to an instance keeps it up. -/
namespace CartLedger.Entity
open CartLedger.Storage (Backend)
open Instance (Message Answer Surroundings)

/-! ### Answers -/

namespace Instance

/-- Whether the answer was given by an instance that handled the message. -/
def Answer.isGiven : Answer → Bool
  | .reply (.ok _) => true
  | .state (.ok _) => true
  | _ => false

/-- Whether a reply is missing, since the instance stopped over the command or in front of it. -/
def Answer.isMissing : Answer → Bool
  | .reply (.error .noReply) => true
  | _ => false

end Instance

/-- For how long an instance has been silent after it was sent messages, nothing if it has
ended: what it handles ends its silence, and a request to stop or a missing reply ends it. -/
def heed (messages : List Message) (answers : List Answer) (silence : Option Nat) : Option Nat :=
  if messages.any Message.isPassivate || answers.any Answer.isMissing then none
  else if answers.any Answer.isGiven then some 0
  else silence

/-- When nothing is handled any more once the instance has ended, it does not matter in how many
parts messages come. -/
theorem heed_append {messages messages' : List Message} {answers answers' : List Answer} {silence : Option Nat}
    (h : heed messages answers silence = none → answers'.any Answer.isGiven = false) :
    heed (messages ++ messages') (answers ++ answers') silence =
      heed messages' answers' (heed messages answers silence) := by
  unfold heed at h ⊢
  rw [List.any_append, List.any_append, List.any_append]
  by_cases hends : (messages.any Message.isPassivate || answers.any Answer.isMissing) = true
  · rw [if_pos hends] at h ⊢
    rw [h rfl]
    rcases Bool.or_eq_true_iff.1 hends with hasked | hmissing
    · simp [hasked]
    · simp [hmissing]
  · rw [if_neg hends]
    obtain ⟨hasked, hmissing⟩ := Bool.or_eq_false_iff.1 (Bool.not_eq_true _ ▸ hends)
    rw [hasked, hmissing, Bool.false_or, Bool.false_or]
    cases answers.any Answer.isGiven <;> simp

theorem not_given_abandoned (messages : List Message) :
    (messages.map Message.abandoned).any Answer.isGiven = false := by
  rw [List.any_map, List.any_eq_false]
  intro message _ hgiven
  cases message <;> cases hgiven

theorem not_given_refused (messages : List Message) :
    (messages.map Message.refused).any Answer.isGiven = false := by
  rw [List.any_map, List.any_eq_false]
  intro message _ hgiven
  cases message <;> cases hgiven

theorem not_missing_refused (messages : List Message) :
    (messages.map Message.refused).any Answer.isMissing = false := by
  rw [List.any_map, List.any_eq_false]
  intro message _ hmissing
  cases message <;> cases hmissing

/-! ### What messages do to an instance -/

variable {σ : Type} {B : Backend σ} {i : Instance} {s : σ}

theorem ask_outcome (env : Surroundings) (command : Cart.Command) (context : Context) :
    (∃ reply i' s', Instance.ask B env i command context s = (some reply, i', s') ∧ i'.lastHeard = i.lastHeard ∧
        i'.running = i.running) ∨
      ∃ s', Instance.ask B env i command context s = (none, { i with running := false }, s') := by
  unfold Instance.ask
  split
  · exact .inl ⟨_, i, s, rfl, rfl, rfl⟩
  · exact .inl ⟨_, i, s, rfl, rfl, rfl⟩
  · split
    · exact .inr ⟨_, rfl⟩
    · exact .inl ⟨_, _, _, rfl, rfl, rfl⟩

/-- A message is handled, and the instance runs on; or a reply is missing, and it has stopped. -/
theorem answer_outcome (env : Surroundings) (message : Message) :
    ∃ a i' s', Instance.answer B env i s message = (a, i', s') ∧ i'.lastHeard = i.lastHeard ∧
      (i.running = true → i'.running = !a.isMissing) ∧
      (message.isPassivate = false → a.isMissing = false → a.isGiven = true) := by
  cases message with
  | observe => exact ⟨_, i, s, rfl, rfl, fun h => h, fun _ _ => rfl⟩
  | passivate => exact ⟨_, i, s, rfl, rfl, fun h => h, fun h => by cases h⟩
  | ask command context =>
    obtain ⟨reply, i', s', hask, hheard, hrunning⟩ | ⟨s', hask⟩ :=
      ask_outcome (B := B) (i := i) (s := s) env command context
    · refine ⟨.reply (.ok reply), i', s', ?_, hheard, fun h => hrunning.trans h, fun _ _ => rfl⟩
      simp only [Instance.answer, hask]
    · refine ⟨.reply (.error .noReply), { i with running := false }, s', ?_, rfl, fun _ => rfl, fun _ h => by cases h⟩
      simp only [Instance.answer, hask]

/-- Messages in line: the instance runs on unless a reply is missing. -/
theorem serve_outcome (messages : List Message) (hrunning : i.running = true) (env : Surroundings) :
    ∃ answers i' s', Instance.serve B env i s messages = (answers, i', s') ∧ i'.lastHeard = i.lastHeard ∧
      i'.running = !answers.any Answer.isMissing ∧
      (messages ≠ [] → messages.any Message.isPassivate = false → answers.any Answer.isMissing = false →
        answers.any Answer.isGiven = true) := by
  induction messages generalizing i s env with
  | nil => exact ⟨[], i, s, rfl, rfl, hrunning, fun h => absurd rfl h⟩
  | cons message rest ih =>
    obtain ⟨a, i₁, s₁, hanswer, hheard, hruns, hgiven⟩ := answer_outcome (B := B) (i := i) (s := s) env message
    have hruns := hruns hrunning
    have hfirst : (message :: rest).any Message.isPassivate = false → a.isMissing = false → a.isGiven = true :=
      fun hstays hpresent => hgiven (Bool.or_eq_false_iff.1 hstays).1 hpresent
    cases hmissing : a.isMissing with
    | false =>
      rw [hmissing] at hruns
      obtain ⟨as, i₂, s₂, hserve, hheard', hruns', -⟩ := ih (s := s₁) hruns { env with issued := env.issued + 1 }
      refine ⟨a :: as, i₂, s₂, ?_, hheard'.trans hheard, ?_, fun _ hstays _ => ?_⟩
      · simp only [Instance.serve, hrunning, hanswer, hserve]
        rfl
      · rw [hruns', List.any_cons, hmissing, Bool.false_or]
      · rw [List.any_cons, hfirst hstays hmissing, Bool.true_or]
    | true =>
      rw [hmissing] at hruns
      have hserve : Instance.serve B { env with issued := env.issued + 1 } i₁ s₁ rest =
          (rest.map Message.abandoned, i₁, s₁) := by
        cases rest with
        | nil => rfl
        | cons next rest => exact if_neg (by rw [hruns]; exact Bool.false_ne_true)
      refine ⟨a :: rest.map Message.abandoned, i₁, s₁, ?_, hheard, ?_, fun _ _ hnone => ?_⟩
      · simp only [Instance.serve, hrunning, hanswer, hserve]
        rfl
      · rw [hruns, List.any_cons, hmissing, Bool.true_or]
      · rw [List.any_cons, hmissing] at hnone
        cases hnone

/-- Messages that are handed over to a running instance. -/
theorem receive_heard (messages : List Message) (hrunning : i.running = true) (hsome : messages ≠ [])
    (env : Surroundings) (now : Nat) :
    ∃ answers i' s', Instance.receive B env now i messages s = (answers, i', s') ∧ i'.lastHeard = now ∧
      i'.running = !(messages.any Message.isPassivate || answers.any Answer.isMissing) ∧
      (i'.running = true → answers.any Answer.isGiven = true) := by
  obtain ⟨answers, i₁, s₁, hserve, hheard, hruns, hgiven⟩ :=
    serve_outcome (B := B) (i := { i with lastHeard := now }) (s := s) messages hrunning env
  refine ⟨answers, { i₁ with running := i₁.running && !messages.any Message.isPassivate }, s₁, ?_, hheard, ?_,
    fun hruns' => ?_⟩
  · rw [Instance.receive, if_pos ⟨hrunning, hsome⟩, hserve]
  · show (i₁.running && !messages.any Message.isPassivate) = _
    rw [hruns, Bool.not_or, Bool.and_comm]
  · obtain ⟨hpresent, hstays⟩ := Bool.and_eq_true_iff.1 hruns'
    rw [hruns] at hpresent
    exact hgiven hsome (by simpa using hstays) (by simpa using hpresent)

theorem receive_unheard (messages : List Message) (h : ¬ (i.running = true ∧ messages ≠ [])) (env : Surroundings)
    (now : Nat) : Instance.receive B env now i messages s = (messages.map Message.refused, i, s) := if_neg h

/-! ### Silence -/

/-- At the time `now` the instance, silent for so long or ended, runs or not as it should. -/
structure Timed (now : Nat) (i : Instance) (silence : Option Nat) : Prop where
  running : i.running = true → ∃ t, silence = some t ∧ i.lastHeard + t = now ∧ t < i.settings.idle
  stopped : i.running = false → ∀ t, silence = some t → i.settings.idle ≤ t

namespace Timed
variable {now : Nat} {silence : Option Nat}

theorem running_iff (h : Timed now i silence) : i.running = true ↔ ∃ t, silence = some t ∧ t < i.settings.idle := by
  constructor
  · intro hrunning
    obtain ⟨t, ht, -, hlt⟩ := h.running hrunning
    exact ⟨t, ht, hlt⟩
  · rintro ⟨t, ht, hlt⟩
    refine Decidable.byContradiction fun hstopped => ?_
    exact absurd hlt (Nat.not_lt.2 (h.stopped (by simpa using hstopped) t ht))

/-- Nothing can be wrong with an instance that has stopped and is known to have ended. -/
theorem ended (h : i.running = false) : Timed now i none where
  running hrunning := by
    rw [h] at hrunning
    cases hrunning
  stopped _ t ht := by cases ht

theorem heard (hrunning : i.running = true) (hheard : i.lastHeard = now) (hidle : 0 < i.settings.idle) :
    Timed now i (some 0) where
  running _ := ⟨0, rfl, hheard, hidle⟩
  stopped h := by
    rw [hrunning] at h
    cases h

/-- A new instance has been silent for no time, or has ended if it did not recover. -/
theorem start {id : String} {journal : Nat} {settings : Settings} (hidle : 0 < settings.idle) :
    Timed now (Instance.start B id journal settings now s)
      (if (Instance.recover B (.ofCart id) s).isSome then some 0 else none) := by
  rw [Instance.start]
  cases Instance.recover B (.ofCart id) s with
  | none => exact ended rfl
  | some recovered => exact heard rfl rfl hidle

theorem abandoned (h : Timed now i silence) (hstopped : i.running = false) (messages : List Message) :
    Timed now i (heed messages (messages.map Message.abandoned) silence) := by
  unfold heed
  rw [not_given_abandoned, if_neg Bool.false_ne_true]
  split
  · exact ended hstopped
  · exact h

/-- **Messages are heeded.** -/
theorem receive (h : Timed now i silence) (hidle : 0 < i.settings.idle) (messages : List Message)
    (env : Surroundings) : Timed now (Instance.receive B env now i messages s).2.1
      (heed messages (Instance.receive B env now i messages s).1 silence) := by
  by_cases hheard : i.running = true ∧ messages ≠ []
  · have hsettings := (same_receive (B := B) (i := i) (s := s) env now messages).settings
    obtain ⟨answers, i', s', hreceive, htime, hruns, hgiven⟩ :=
      receive_heard (B := B) (s := s) messages hheard.1 hheard.2 env now
    rw [hreceive] at hsettings ⊢
    dsimp only at hsettings ⊢
    unfold heed
    split
    · next hends =>
      rw [hends] at hruns
      exact ended hruns
    · next hends =>
      rw [Bool.not_eq_true] at hends
      rw [hends] at hruns
      rw [if_pos (hgiven hruns)]
      exact heard hruns htime (hsettings ▸ hidle)
  · rw [receive_unheard messages hheard, heed, not_missing_refused, not_given_refused, Bool.or_false,
      if_neg Bool.false_ne_true]
    split
    · next hends =>
      have hstopped : i.running = false := by
        rw [← Bool.not_eq_true]
        rintro hrunning
        refine hheard ⟨hrunning, ?_⟩
        rintro rfl
        cases hends
      exact ended hstopped
    · exact h

theorem expire (h : Timed now i silence) (ms : Nat) :
    Timed (now + ms) (i.expire (now + ms)) (silence.map (· + ms)) := by
  unfold Instance.expire
  split
  · next hidle =>
    refine ⟨fun hrunning => absurd hrunning Bool.false_ne_true, fun _ t' ht' => ?_⟩
    obtain ⟨t, ht, rfl⟩ := Option.map_eq_some_iff.1 ht'
    show i.settings.idle ≤ t + ms
    cases hrunning : i.running with
    | true =>
      obtain ⟨t₁, ht₁, htime, -⟩ := h.running hrunning
      obtain rfl := Option.some.inj (ht.symm.trans ht₁)
      omega
    | false => exact Nat.le_add_right_of_le (h.stopped hrunning t ht)
  · next hidle =>
    refine ⟨fun hrunning => ?_, fun hstopped t' ht' => ?_⟩
    · obtain ⟨t, ht, htime, -⟩ := h.running hrunning
      exact ⟨t + ms, by rw [ht]; rfl, by omega, by omega⟩
    · obtain ⟨t, ht, rfl⟩ := Option.map_eq_some_iff.1 ht'
      exact Nat.le_add_right_of_le (h.stopped hstopped t ht)

end Timed

end CartLedger.Entity
