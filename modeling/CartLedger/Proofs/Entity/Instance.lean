import CartLedger.Proofs.Entity.Recovery

/-! What an instance tells those who ask it.

A running instance is somewhere on its stream (`Follows`), not necessarily at its end:
another instance may have gone ahead. Its answers are told by `Answered`: either it records
an event, and then it was at the end of the stream; or it speaks from where it is and
records nothing; or it does not answer. `serve_told` says so of every batch of messages. -/
namespace CartLedger.Cart

/-- The reply to a command that leaves no event. -/
def Effect.reply? : Effect → Option Reply
  | .reject why => some (.rejected why.message)
  | .reply r => some r
  | .persist _ => none

theorem Effect.persist_of_reply?_eq_none {effect : Effect} (h : effect.reply? = none) :
    ∃ event, effect = .persist event := by
  cases effect with
  | persist event => exact ⟨event, rfl⟩
  | reject => simp [reply?] at h
  | reply => simp [reply?] at h

end CartLedger.Cart

namespace CartLedger.Entity
open CartLedger.Cart (Command Reply Event)
open CartLedger.Journal (extend extend_self extend_of_ne)
open CartLedger.Storage (Backend View Correct Unchanged)
open CartLedger.Time (Timestamp)
open Instance (Message Answer Surroundings)

/-! ### Answers -/

/-- The record is the next of the cart's stream, recorded for who asked, at the time of the
clock. -/
structure Own (id : String) (clock : Timestamp) (context : Context) (rs : List Record)
    (entry : Record.Entry) : Prop where
  stream : entry.stream = .ofCart id
  sequenceNr : entry.sequenceNr = rs.length + 1
  context : entry.context = context
  time : entry.time = clock

/-- How a message to an instance of the cart `id` may be answered when the stream holds `rs`,
and what the stream holds afterwards. -/
inductive Answered (id : String) (clock : Timestamp) (rs : List Record) :
    Message → Answer → List Record → Prop
  /-- The event is decided on the whole stream, recorded behind it, and acknowledged with it. -/
  | recorded {command context event entry}
      (hdecide : (cartAt rs rs.length).decide id clock command = .persist event)
      (hown : Own id clock context rs entry) :
      Answered id clock rs (.ask command context)
        (.reply (.ok (cartAt (rs ++ [.ofEvent entry event]) (rs.length + 1)).acknowledge))
        (rs ++ [.ofEvent entry event])
  /-- The instance replies from where it is. -/
  | replied {command context k reply} (hk : k ≤ rs.length)
      (hreply : ((cartAt rs k).decide id clock command).reply? = some reply) :
      Answered id clock rs (.ask command context) (.reply (.ok reply)) rs
  | observed {k} (hk : k ≤ rs.length) : Answered id clock rs .observe (.state (.ok (cartAt rs k, k))) rs
  | passivated : Answered id clock rs .passivate .done rs
  | unanswered {message e} : Answered id clock rs message (.reply (.error e)) rs
  | unobserved {e} : Answered id clock rs .observe (.state (.error e)) rs

/-- How messages may be answered one after another. -/
inductive Told (id : String) (clock : Timestamp) :
    List Record → List Message → List Answer → List Record → Prop
  | nil {rs} : Told id clock rs [] [] rs
  | cons {rs rs' rs'' message messages answer answers} (hfirst : Answered id clock rs message answer rs')
      (hrest : Told id clock rs' messages answers rs'') :
      Told id clock rs (message :: messages) (answer :: answers) rs''

section
variable {id : String} {clock : Timestamp} {rs rs' : List Record}

theorem Answered.grows {message : Message} {answer : Answer} (h : Answered id clock rs message answer rs') :
    rs <+: rs' ∧ rs'.length ≤ rs.length + 1 := by
  cases h with
  | recorded => exact ⟨List.prefix_append _ _, by simp⟩
  | replied => exact ⟨List.prefix_refl _, Nat.le_succ _⟩
  | observed => exact ⟨List.prefix_refl _, Nat.le_succ _⟩
  | passivated => exact ⟨List.prefix_refl _, Nat.le_succ _⟩
  | unanswered => exact ⟨List.prefix_refl _, Nat.le_succ _⟩
  | unobserved => exact ⟨List.prefix_refl _, Nat.le_succ _⟩

/-- A stream only grows, by no more than there are messages. -/
theorem Told.grows {messages : List Message} {answers : List Answer}
    (h : Told id clock rs messages answers rs') :
    rs <+: rs' ∧ rs'.length ≤ rs.length + messages.length := by
  induction h with
  | nil => exact ⟨List.prefix_refl _, Nat.le_refl _⟩
  | cons hfirst _ ih =>
    obtain ⟨hgrow, hlength⟩ := hfirst.grows
    refine ⟨hgrow.trans ih.1, ?_⟩
    have := ih.2
    rw [List.length_cons]
    omega

theorem Told.append {rs'' : List Record} {messages messages' : List Message} {answers answers' : List Answer}
    (h : Told id clock rs messages answers rs') (h' : Told id clock rs' messages' answers' rs'') :
    Told id clock rs (messages ++ messages') (answers ++ answers') rs'' := by
  induction h with
  | nil => exact h'
  | cons hfirst _ ih => exact .cons hfirst (ih h')

theorem told_refused (id : String) (clock : Timestamp) (rs : List Record) (messages : List Message) :
    Told id clock rs messages (messages.map Message.refused) rs := by
  induction messages with
  | nil => exact .nil
  | cons message rest ih =>
    refine .cons ?_ ih
    cases message with
    | ask => exact .unanswered
    | observe => exact .unobserved
    | passivate => exact .passivated

theorem told_abandoned (id : String) (clock : Timestamp) (rs : List Record) (messages : List Message) :
    Told id clock rs messages (messages.map Message.abandoned) rs := by
  induction messages with
  | nil => exact .nil
  | cons message rest ih =>
    refine .cons ?_ ih
    cases message with
    | ask => exact .unanswered
    | observe => exact .unobserved
    | passivate => exact .passivated

end

/-! ### Where an instance is -/

variable {σ : Type} {B : Backend σ} {V : View σ} {s s' : σ} {i : Instance}

/-- The instance is at a point of its stream. -/
structure Follows (B : Backend σ) (V : View σ) (s : σ) (i : Instance) : Prop where
  takes : V.Takes i.stream
  le : i.sequenceNr ≤ (B.recorded s i.stream).length
  cart : i.cart = cartAt (B.recorded s i.stream) i.sequenceNr

/-- No other instance has gone ahead. -/
def Current (B : Backend σ) (s : σ) (i : Instance) : Prop := i.sequenceNr = (B.recorded s i.stream).length

instance : Decidable (Current B s i) := inferInstanceAs (Decidable (_ = _))

/-- An instance stays where it is while its stream goes on. -/
theorem Follows.grown (h : Follows B V s i) (hgrown : B.recorded s i.stream <+: B.recorded s' i.stream) :
    Follows B V s' i := by
  obtain ⟨more, hmore⟩ := hgrown
  refine ⟨h.takes, ?_, ?_⟩
  · rw [← hmore, List.length_append]
    exact Nat.le_add_right_of_le h.le
  · rw [← hmore, cartAt_append h.le]
    exact h.cart

theorem Follows.cart_of_current (h : Follows B V s i) (hcurrent : Current B s i) :
    i.cart = cartAt (B.recorded s i.stream) (B.recorded s i.stream).length := by
  rw [h.cart, hcurrent]

/-- A new instance is at the end of its stream. -/
theorem start_eq (C : Correct B V) (h : Healthy B V s) {id : String} (hid : V.Takes (.ofCart id))
    (journal : Nat) (settings : Settings) (now : Nat) :
    Instance.start B id journal settings now s =
      ⟨id, journal, settings, cartAt (B.recorded s (.ofCart id)) (B.recorded s (.ofCart id)).length,
        (B.recorded s (.ofCart id)).length, true, now⟩ := by
  rw [Instance.start, recover_eq C h hid]

theorem start_foreign (C : Correct B V) (h : Healthy B V s) {id : String} (hid : ¬ V.Takes (.ofCart id))
    (journal : Nat) (settings : Settings) (now : Nat) :
    Instance.start B id journal settings now s = ⟨id, journal, settings, .empty, 0, false, now⟩ := by
  rw [Instance.start, recover_foreign C h hid]

/-! ### One command -/

theorem recorded_self {entry : Record.Entry} {event : Event}
    (h : B.recorded s' = extend (B.recorded s) (.ofEvent entry event)) :
    B.recorded s' entry.stream = B.recorded s entry.stream ++ [.ofEvent entry event] := by
  rw [h]
  exact extend_self _ (Record.ofEvent entry event)

/-- A storage stays healthy when a stream takes the record of an event. -/
theorem Healthy.extend (h : Healthy B V s) {entry : Record.Entry} {event : Event} (hinv : V.Inv s')
    (hrecorded : B.recorded s' = extend (B.recorded s) (.ofEvent entry event))
    (hkept : ∀ {id snapshot}, V.Kept s' id snapshot → V.Kept s id snapshot) : Healthy B V s' := by
  have hgrown : ∀ id, B.recorded s id <+: B.recorded s' id := by
    intro id
    rw [hrecorded, Journal.extend]
    split
    · exact List.prefix_append _ _
    · exact List.prefix_refl _
  refine ⟨hinv, fun id => ?_, fun {id snapshot} hk => ?_, fun {id snapshot} hk => ?_⟩
  · by_cases hid : id = entry.stream
    · rw [hid, recorded_self hrecorded]
      exact (h.legible entry.stream).concat entry event
    · rw [hrecorded, extend_of_ne hid]
      exact h.legible id
  · exact Nat.le_trans (h.snapshot_le (hkept hk)) (hgrown id).length_le
  · obtain ⟨more, hmore⟩ := hgrown id
    rw [← hmore, cartAt_append (h.snapshot_le (hkept hk))]
    exact h.snapshot_eq (hkept hk)

/-- A storage stays healthy when it keeps what a stream comes to at some point. -/
theorem Healthy.save (h : Healthy B V s) {id : StreamId} {c : Cart} {n : Nat} (hinv : V.Inv s')
    (hrecorded : B.recorded s' = B.recorded s) (hn : n ≤ (B.recorded s id).length)
    (hc : c = cartAt (B.recorded s id) n)
    (hkept : ∀ {id' snapshot}, V.Kept s' id' snapshot →
      V.Kept s id' snapshot ∨ (id' = id ∧ snapshot = ⟨c, n⟩)) : Healthy B V s' := by
  refine ⟨hinv, fun id' => ?_, fun {id' snapshot} hk => ?_, fun {id' snapshot} hk => ?_⟩
  · rw [hrecorded]
    exact h.legible id'
  · rw [hrecorded]
    obtain hk | ⟨rfl, rfl⟩ := hkept hk
    · exact h.snapshot_le hk
    · exact hn
  · rw [hrecorded]
    obtain hk | ⟨rfl, rfl⟩ := hkept hk
    · exact h.snapshot_eq hk
    · exact hc

/-- Saving a snapshot of an instance does no harm, due or not. -/
theorem saveIfDue_ok (C : Correct B V) (h : Healthy B V s) (hi : Follows B V s i) (hfits : V.Fits i.sequenceNr) :
    Healthy B V (Instance.saveIfDue B i s) ∧ B.recorded (Instance.saveIfDue B i s) = B.recorded s ∧
      (V.Failing (Instance.saveIfDue B i s) ↔ V.Failing s) := by
  rw [Instance.saveIfDue]
  split
  · obtain ⟨hinv, hrecorded, hfailing, hkept⟩ :=
      C.saveSnapshot h.inv hfits i.stream i.cart i.settings.retention
    exact ⟨h.save hinv hrecorded hi.le hi.cart hkept, hrecorded, hfailing⟩
  · exact ⟨h, rfl, Iff.rfl⟩

theorem ask_replied {env : Surroundings} {command : Command} {reply : Reply}
    (hreply : (i.cart.decide i.id env.clock command).reply? = some reply) (context : Context) :
    Instance.ask B env i command context s = (some reply, i, s) := by
  rw [Instance.ask]
  cases hdecide : i.cart.decide i.id env.clock command with
  | reject why =>
    rw [hdecide] at hreply
    exact congrArg (fun r => (r, i, s)) hreply
  | reply r =>
    rw [hdecide] at hreply
    exact congrArg (fun r => (r, i, s)) hreply
  | persist event =>
    rw [hdecide] at hreply
    simp [Cart.Effect.reply?] at hreply

/-- **An instance at the end of its stream records the event**, and is at the end again. -/
theorem ask_recorded (C : Correct B V) (h : Healthy B V s) (hi : Follows B V s i) (hcurrent : Current B s i)
    (hworks : ¬ V.Failing s) (hfits : V.Fits (i.sequenceNr + 1)) {env : Surroundings} {command : Command}
    {event : Event} (hdecide : i.cart.decide i.id env.clock command = .persist event) (context : Context) :
    ∃ s', Instance.ask B env i command context s =
        (some (i.cart.apply event).acknowledge, i.advance event, s') ∧
      Healthy B V s' ∧ Follows B V s' (i.advance event) ∧
      B.recorded s' = extend (B.recorded s) (.ofEvent (i.entry env context) event) ∧
      (V.Failing s' ↔ V.Failing s) := by
  have hnext : (i.entry env context).sequenceNr = (B.recorded s i.stream).length + 1 :=
    congrArg (· + 1) hcurrent
  obtain ⟨s₁, happend, hinv, hrecorded, hkept, hfailing⟩ :=
    C.append_next h.inv hworks (show V.Takes (i.entry env context).stream from hi.takes) hfits hnext
      i.journal event
  have h₁ : Healthy B V s₁ := h.extend hinv hrecorded hkept
  have hstream : B.recorded s₁ i.stream = B.recorded s i.stream ++ [.ofEvent (i.entry env context) event] :=
    recorded_self hrecorded
  have hi₁ : Follows B V s₁ (i.advance event) := by
    refine ⟨hi.takes, ?_, ?_⟩
    · show i.sequenceNr + 1 ≤ (B.recorded s₁ i.stream).length
      rw [hstream, hcurrent, List.length_append]
      exact Nat.le_refl _
    · show i.cart.apply event = cartAt (B.recorded s₁ i.stream) (i.sequenceNr + 1)
      rw [hstream, hcurrent, cartAt_concat, hi.cart_of_current hcurrent]
  obtain ⟨h₂, hrecorded₂, hfailing₂⟩ := saveIfDue_ok C h₁ hi₁ hfits
  refine ⟨Instance.saveIfDue B (i.advance event) s₁, ?_, h₂, ?_, hrecorded₂.trans hrecorded,
    hfailing₂.trans hfailing⟩
  · simp only [Instance.ask, hdecide, happend]
    rfl
  · exact hi₁.grown (hrecorded₂ ▸ List.prefix_refl _)

/-- **An instance that was overtaken records nothing**, nor does one whose storage refuses. -/
theorem ask_refused (C : Correct B V) (h : Healthy B V s) (hwhy : V.Failing s ∨ ¬ Current B s i)
    {env : Surroundings} {command : Command} {event : Event}
    (hdecide : i.cart.decide i.id env.clock command = .persist event) (context : Context) :
    ∃ s', Instance.ask B env i command context s = (none, { i with running := false }, s') ∧
      Unchanged B V s s' := by
  have hwhy' : V.Failing s ∨ ¬ V.Takes (Record.ofEvent (i.entry env context) event).stream ∨
      (Record.ofEvent (i.entry env context) event).sequenceNr ≠
        (B.recorded s (Record.ofEvent (i.entry env context) event).stream).length + 1 :=
    hwhy.imp_right fun hbehind => .inr fun hnext => hbehind (Nat.succ.inj hnext)
  obtain ⟨e, s', happend, hunchanged⟩ := C.append_refused h.inv hwhy' i.journal
  refine ⟨s', ?_, hunchanged⟩
  simp only [Instance.ask, hdecide, happend]

/-- What becomes of a command: it leaves no event, its event is recorded, or the instance stops
over it. -/
inductive Asked (B : Backend σ) (V : View σ) (env : Surroundings) (i : Instance) (s : σ) (command : Command)
    (context : Context) : Option Reply × Instance × σ → Prop
  | replied {reply} (hreply : (i.cart.decide i.id env.clock command).reply? = some reply) :
      Asked B V env i s command context (some reply, i, s)
  | recorded {event s'} (hdecide : i.cart.decide i.id env.clock command = .persist event)
      (hworks : ¬ V.Failing s) (hcurrent : Current B s i) (hhealthy : Healthy B V s')
      (hfollows : Follows B V s' (i.advance event))
      (hrecorded : B.recorded s' = extend (B.recorded s) (.ofEvent (i.entry env context) event))
      (hfailing : V.Failing s' ↔ V.Failing s) :
      Asked B V env i s command context (some (i.cart.apply event).acknowledge, i.advance event, s')
  | refused {event s'} (hdecide : i.cart.decide i.id env.clock command = .persist event)
      (hwhy : V.Failing s ∨ ¬ Current B s i) (hunchanged : Unchanged B V s s') :
      Asked B V env i s command context (none, { i with running := false }, s')

theorem ask_cases (C : Correct B V) (h : Healthy B V s) (hi : Follows B V s i)
    (hfits : V.Fits ((B.recorded s i.stream).length + 1)) (env : Surroundings) (command : Command)
    (context : Context) : ∃ outcome, Instance.ask B env i command context s = outcome ∧
      Asked B V env i s command context outcome := by
  cases hreply : (i.cart.decide i.id env.clock command).reply? with
  | some reply => exact ⟨_, ask_replied hreply context, .replied hreply⟩
  | none =>
    obtain ⟨event, hdecide⟩ := Cart.Effect.persist_of_reply?_eq_none hreply
    by_cases hwhy : V.Failing s ∨ ¬ Current B s i
    · obtain ⟨s', hask, hunchanged⟩ := ask_refused C h hwhy hdecide context
      exact ⟨_, hask, .refused hdecide hwhy hunchanged⟩
    · obtain ⟨hworks, hcurrent⟩ := not_or.1 hwhy
      have hcurrent := Decidable.not_not.1 hcurrent
      obtain ⟨s', hask, h', hi', hrecorded, hfailing⟩ :=
        ask_recorded C h hi hcurrent hworks (hcurrent ▸ hfits) hdecide context
      exact ⟨_, hask, .recorded hdecide hworks hcurrent h' hi' hrecorded hfailing⟩

/-! ### Messages -/

/-- What an instance that is handed messages makes of the storage and of itself. -/
structure Progress (B : Backend σ) (V : View σ) (i i' : Instance) (s s' : σ) : Prop where
  healthy : Healthy B V s'
  follows : i'.running → Follows B V s' i'
  others : ∀ id, id ≠ i.stream → B.recorded s' id = B.recorded s id
  failing : V.Failing s' ↔ V.Failing s
  id : i'.id = i.id

/-- One message to a running instance. -/
theorem answer_ok (C : Correct B V) (h : Healthy B V s) (hi : Follows B V s i)
    (hfits : V.Fits ((B.recorded s i.stream).length + 1)) (env : Surroundings) (message : Message) :
    ∃ a i' s', Instance.answer B env i s message = (a, i', s') ∧ Progress B V i i' s s' ∧
      Answered i.id env.clock (B.recorded s i.stream) message a (B.recorded s' i.stream) := by
  have hsame : Progress B V i i s s := ⟨h, fun _ => hi, fun _ _ => rfl, Iff.rfl, rfl⟩
  cases message with
  | observe =>
    refine ⟨_, i, s, rfl, hsame, ?_⟩
    rw [hi.cart]
    exact .observed hi.le
  | passivate => exact ⟨_, i, s, rfl, hsame, .passivated⟩
  | ask command context =>
    obtain ⟨outcome, hask, hasked⟩ := ask_cases C h hi hfits env command context
    cases hasked with
    | @replied reply hreply =>
      refine ⟨.reply (.ok reply), i, s, ?_, hsame, .replied hi.le (hi.cart ▸ hreply)⟩
      simp only [Instance.answer, hask]
    | @recorded event s' hdecide _ hcurrent h' hi' hrecorded hfailing =>
      refine ⟨.reply (.ok (i.cart.apply event).acknowledge), i.advance event, s', ?_,
        ⟨h', fun _ => hi', fun id hid => ?_, hfailing, rfl⟩, ?_⟩
      · simp only [Instance.answer, hask]
      · rw [hrecorded]
        exact extend_of_ne hid
      · have hcart := hi.cart_of_current hcurrent
        have hown : Own i.id env.clock context (B.recorded s i.stream) (i.entry env context) :=
          ⟨rfl, congrArg (· + 1) hcurrent, rfl, rfl⟩
        have hstream : B.recorded s' i.stream = _ := recorded_self hrecorded
        rw [hstream, hcart, ← cartAt_concat _ (i.entry env context)]
        exact .recorded (hcart ▸ hdecide) hown
    | @refused event s' _ _ hunchanged =>
      refine ⟨.reply (.error .noReply), { i with running := false }, s', ?_, ⟨h.unchanged hunchanged,
        fun hrunning => absurd hrunning Bool.false_ne_true, fun id _ => ?_, hunchanged.failing, rfl⟩, ?_⟩
      · simp only [Instance.answer, hask]
      · rw [hunchanged.recorded]
      · rw [hunchanged.recorded]
        exact .unanswered

/-- **What an instance tells is true**, message after message. -/
theorem serve_told (C : Correct B V) (messages : List Message) {i : Instance} {s : σ} (h : Healthy B V s)
    (hi : i.running → Follows B V s i) (env : Surroundings)
    (hfits : ∀ n ≤ (B.recorded s i.stream).length + messages.length, V.Fits n) :
    ∃ answers i' s', Instance.serve B env i s messages = (answers, i', s') ∧ Progress B V i i' s s' ∧
      Told i.id env.clock (B.recorded s i.stream) messages answers (B.recorded s' i.stream) := by
  induction messages generalizing i s env with
  | nil => exact ⟨[], i, s, rfl, ⟨h, hi, fun _ _ => rfl, Iff.rfl, rfl⟩, .nil⟩
  | cons message rest ih =>
    by_cases hrunning : i.running = true
    · rw [List.length_cons] at hfits
      obtain ⟨a, i₁, s₁, hanswer, hprogress, hanswered⟩ :=
        answer_ok C h (hi hrunning) (hfits _ (by omega)) env message
      have hstream : i₁.stream = i.stream := congrArg StreamId.ofCart hprogress.id
      have hlength := hanswered.grows.2
      obtain ⟨as, i₂, s₂, hserve, hprogress', htold⟩ := ih hprogress.healthy hprogress.follows
        { env with issued := env.issued + 1 } (fun n hn => hfits n (by rw [hstream] at hn; omega))
      refine ⟨a :: as, i₂, s₂, ?_, ⟨hprogress'.healthy, hprogress'.follows, fun id hid => ?_,
        hprogress'.failing.trans hprogress.failing, hprogress'.id.trans hprogress.id⟩, .cons hanswered ?_⟩
      · simp only [Instance.serve, hrunning, hanswer, hserve]
        rfl
      · rw [hprogress'.others id (hstream ▸ hid), hprogress.others id hid]
      · rw [← hstream, ← hprogress.id]
        exact htold
    · refine ⟨_, i, s, if_neg hrunning, ⟨h, hi, fun _ _ => rfl, Iff.rfl, rfl⟩, told_abandoned ..⟩

theorem receive_told (C : Correct B V) (messages : List Message) (h : Healthy B V s)
    (hi : i.running → Follows B V s i) (env : Surroundings) (now : Nat)
    (hfits : ∀ n ≤ (B.recorded s i.stream).length + messages.length, V.Fits n) :
    ∃ answers i' s', Instance.receive B env now i messages s = (answers, i', s') ∧ Progress B V i i' s s' ∧
      Told i.id env.clock (B.recorded s i.stream) messages answers (B.recorded s' i.stream) := by
  by_cases hheard : i.running = true ∧ messages ≠ []
  · have hf := hi hheard.1
    have hi' : Follows B V s { i with lastHeard := now } := ⟨hf.takes, hf.le, hf.cart⟩
    obtain ⟨answers, i₁, s₁, hserve, hprogress, htold⟩ := serve_told C messages h (fun _ => hi') env hfits
    refine ⟨answers, { i₁ with running := i₁.running && !messages.any Message.isPassivate }, s₁, ?_,
      ⟨hprogress.healthy, fun hrun => ?_, hprogress.others, hprogress.failing, hprogress.id⟩, htold⟩
    · rw [Instance.receive, if_pos hheard, hserve]
    · have hf := hprogress.follows (Bool.and_eq_true_iff.1 hrun).1
      exact ⟨hf.takes, hf.le, hf.cart⟩
  · exact ⟨_, i, s, if_neg hheard, ⟨h, hi, fun _ _ => rfl, Iff.rfl, rfl⟩, told_refused ..⟩

/-! ### What an instance keeps, and what it is kept by -/

/-- The same instance at another time. -/
structure Same (i i' : Instance) : Prop where
  id : i'.id = i.id
  settings : i'.settings = i.settings

theorem Same.refl (i : Instance) : Same i i := ⟨rfl, rfl⟩

theorem Same.trans {i i' i'' : Instance} (h : Same i i') (h' : Same i' i'') : Same i i'' :=
  ⟨h'.id.trans h.id, h'.settings.trans h.settings⟩

theorem id_start (id : String) (journal : Nat) (settings : Settings) (now : Nat) :
    (Instance.start B id journal settings now s).id = id := by
  unfold Instance.start
  split <;> rfl

theorem settings_start (id : String) (journal : Nat) (settings : Settings) (now : Nat) :
    (Instance.start B id journal settings now s).settings = settings := by
  unfold Instance.start
  split <;> rfl

theorem same_ask (env : Surroundings) (command : Command) (context : Context) :
    Same i (Instance.ask B env i command context s).2.1 := by
  unfold Instance.ask
  split
  · exact .refl i
  · exact .refl i
  · split <;> exact ⟨rfl, rfl⟩

theorem answer_cases (env : Surroundings) (message : Message) :
    (Instance.answer B env i s message).2 = (i, s) ∨
      ∃ command context, (Instance.answer B env i s message).2 = (Instance.ask B env i command context s).2 := by
  cases message with
  | observe => exact .inl rfl
  | passivate => exact .inl rfl
  | ask command context =>
    refine .inr ⟨command, context, ?_⟩
    rcases hask : Instance.ask B env i command context s with ⟨reply | reply, i', s'⟩ <;>
      simp only [Instance.answer, hask]

theorem same_answer (env : Surroundings) (message : Message) :
    Same i (Instance.answer B env i s message).2.1 := by
  rcases answer_cases env message with he | ⟨command, context, he⟩
  · rw [he]
    exact .refl i
  · rw [he]
    exact same_ask env command context

theorem same_serve (messages : List Message) (i : Instance) (s : σ) (env : Surroundings) :
    Same i (Instance.serve B env i s messages).2.1 := by
  induction messages generalizing i s env with
  | nil => exact .refl i
  | cons message rest ih =>
    unfold Instance.serve
    split
    · exact (same_answer env message).trans (ih _ _ _)
    · exact .refl i

theorem same_receive (env : Surroundings) (now : Nat) (messages : List Message) :
    Same i (Instance.receive B env now i messages s).2.1 := by
  unfold Instance.receive
  split
  · have hserve := same_serve (B := B) messages { i with lastHeard := now } s env
    exact ⟨hserve.id, hserve.settings⟩
  · exact .refl i

/-- What every command preserves of a storage, messages that wait in line preserve. Of the
instance that is asked this may use all that stays the same. -/
theorem serve_preserves (C : Correct B V) {P : σ → Prop} {settings : Settings} {limit : Nat}
    (hask : ∀ {i : Instance} {s : σ}, i.settings = settings → Healthy B V s → Follows B V s i →
      (B.recorded s i.stream).length + 1 ≤ limit → P s → ∀ env command context,
      P (Instance.ask B env i command context s).2.2)
    (hfits : ∀ n ≤ limit, V.Fits n) (messages : List Message) {i : Instance} {s : σ}
    (hsettings : i.settings = settings) (hs : Healthy B V s) (hi : i.running → Follows B V s i)
    (env : Surroundings) (hlimit : (B.recorded s i.stream).length + messages.length ≤ limit) (h : P s) :
    P (Instance.serve B env i s messages).2.2 := by
  induction messages generalizing i s env with
  | nil => exact h
  | cons message rest ih =>
    unfold Instance.serve
    split
    · next hrunning =>
      rw [List.length_cons] at hlimit
      have hroom : (B.recorded s i.stream).length + 1 ≤ limit := by omega
      obtain ⟨a, i₁, s₁, hanswer, hprogress, hanswered⟩ :=
        answer_ok C hs (hi hrunning) (hfits _ hroom) env message
      have hsame := same_answer (B := B) (i := i) (s := s) env message
      have h₁ : P (Instance.answer B env i s message).2.2 := by
        rcases answer_cases env message with he | ⟨command, context, he⟩
        · rw [he]
          exact h
        · rw [he]
          exact hask hsettings hs (hi hrunning) hroom h env command context
      simp only [hanswer] at hsame h₁ ⊢
      have hstream : i₁.stream = i.stream := congrArg StreamId.ofCart hprogress.id
      have hlength := hanswered.grows.2
      refine ih (hsame.settings.trans hsettings) hprogress.healthy hprogress.follows _ ?_ h₁
      rw [hstream]
      omega
    · exact h

theorem receive_preserves (C : Correct B V) {P : σ → Prop} {limit : Nat}
    (hask : ∀ {i' : Instance} {s : σ}, i'.settings = i.settings → Healthy B V s → Follows B V s i' →
      (B.recorded s i'.stream).length + 1 ≤ limit → P s → ∀ env command context,
      P (Instance.ask B env i' command context s).2.2)
    (hfits : ∀ n ≤ limit, V.Fits n) (messages : List Message) (hs : Healthy B V s)
    (hi : i.running → Follows B V s i) (env : Surroundings) (now : Nat)
    (hlimit : (B.recorded s i.stream).length + messages.length ≤ limit) (h : P s) :
    P (Instance.receive B env now i messages s).2.2 := by
  unfold Instance.receive
  split
  · next hheard =>
    have hf := hi hheard.1
    have hi' : Follows B V s { i with lastHeard := now } := ⟨hf.takes, hf.le, hf.cart⟩
    exact serve_preserves (i := { i with lastHeard := now }) C hask hfits messages rfl hs (fun _ => hi') env hlimit h
  · exact h

end CartLedger.Entity
