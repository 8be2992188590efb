import CartLedger.Proofs.Cart.Histories
import CartLedger.Proofs.Entity.TagStreams

/-! Where records come from, and what they say about it.

Every record of a stream was produced by an ask (`Origin`): one message of one step, which
an instance of the stream's cart answered when the stream held just the records before. A
record says a good deal of this itself, much of it more than once, in its stream, its tags,
its metadata and in the event; all of it is true (`records_describe_themselves`), whatever
happened to instances and stores in between. -/
namespace CartLedger.Cart
open CartLedger.Time (Timestamp)

/-- An event names the cart it happens to and the time at which it was decided. -/
theorem stamped_of_decide {c : Cart} {id : String} {now : Timestamp} {command : Command} {e : Event}
    (h : c.decide id now command = .persist e) : e.cart = id ∧ e.time = now := by
  cases command with
  | addItem item quantity =>
    obtain ⟨-, -, n, -, rfl⟩ := (decideAdd_eq_persist ..).1 h
    exact ⟨rfl, rfl⟩
  | removeItem item =>
    obtain ⟨-, -, rfl⟩ := (decideRemove_eq_persist ..).1 h
    exact ⟨rfl, rfl⟩
  | adjustItemQuantity item quantity =>
    obtain ⟨-, -, n, -, rfl⟩ := (decideAdjust_eq_persist ..).1 h
    exact ⟨rfl, rfl⟩
  | get => cases h
  | checkout =>
    obtain ⟨-, -, rfl⟩ := (decideCheckout_eq_persist ..).1 h
    exact ⟨rfl, rfl⟩

end CartLedger.Cart

namespace CartLedger.Entity
open CartLedger.Cart (Command Event)
open CartLedger.Storage (Backend View Correct Memory Files memory files memoryView filesView)
open CartLedger.Time (Timestamp)
open Instance (Message Answer)

/-! ### Asks that leave a record -/

/-- Of the messages that were sent to the cart `id` at once, the one that left the record
behind `past`: those in front of it left the stream at `past`; its command was decided on
that, and answered with the cart as the event leaves it. -/
structure Produces (id : String) (clock : Timestamp) (rs : List Record) (messages : List Message)
    (answers : List Answer) (past : List Record) (command : Command) (context : Context) (event : Event) :
    Prop where
  place : ∃ front rest answered unanswered, messages = front ++ .ask command context :: rest ∧
    answers = answered ++ .reply (.ok ((cartAt past past.length).apply event).acknowledge) :: unanswered ∧
    Told id clock rs front answered past
  decided : (cartAt past past.length).decide id clock command = .persist event

section
variable {id : String} {clock : Timestamp} {rs rs' : List Record}

theorem Produces.cons {rs₁ past : List Record} {message : Message} {answer : Answer} {messages : List Message}
    {answers : List Answer} {command : Command} {context : Context} {event : Event}
    (h : Produces id clock rs₁ messages answers past command context event)
    (hfirst : Answered id clock rs message answer rs₁) :
    Produces id clock rs (message :: messages) (answer :: answers) past command context event := by
  obtain ⟨⟨front, rest, answered, unanswered, rfl, rfl, htold⟩, hdecided⟩ := h
  exact ⟨⟨message :: front, rest, answer :: answered, unanswered, rfl, rfl, .cons hfirst htold⟩, hdecided⟩

/-- **What is new in a stream was produced by a message**, and recorded for who sent it. -/
theorem Told.produces {messages : List Message} {answers : List Answer}
    (h : Told id clock rs messages answers rs') {i : Nat} {r : Record} (hi : rs'[i]? = some r)
    (hnew : rs.length ≤ i) : ∃ command context event entry,
      Produces id clock rs messages answers (rs'.take i) command context event ∧
        Own id clock context (rs'.take i) entry ∧ r = .ofEvent entry event := by
  induction h with
  | nil => exact absurd (List.getElem?_eq_some_iff.1 hi).1 (Nat.not_lt.2 hnew)
  | @cons rs rs₁ rs' message messages answer answers hfirst hrest ih =>
    by_cases hlater : rs₁.length ≤ i
    · obtain ⟨command, context, event, entry, hproduces, hown, hr⟩ := ih hi hlater
      exact ⟨command, context, event, entry, hproduces.cons hfirst, hown, hr⟩
    · cases hfirst with
      | @recorded command context event entry hdecide hown =>
        -- The record is the one that this message added, behind all of `rs`.
        rw [List.length_append, List.length_singleton] at hlater
        obtain rfl : i = rs.length := by omega
        obtain ⟨more, hmore⟩ := hrest.grows.1
        rw [← hmore, List.append_assoc] at hi ⊢
        rw [List.getElem?_append_right (Nat.le_refl _), Nat.sub_self] at hi
        rw [List.take_left' rfl]
        refine ⟨command, context, event, entry, ⟨⟨[], messages, [], answers, rfl, ?_, .nil⟩, hdecide⟩, hown,
          (Option.some.inj hi).symm⟩
        rw [cartAt_concat]
        rfl
      | replied => exact absurd hnew hlater
      | observed => exact absurd hnew hlater
      | passivated => exact absurd hnew hlater
      | unanswered => exact absurd hnew hlater
      | unobserved => exact absurd hnew hlater

end

/-! ### Steps that leave a record -/

variable {σ : Type} {B : Backend σ} {V : View σ} {w : World σ} {S : Shards}

/-- The record behind `past` was produced in this step, by an ask of the cart `id`. -/
def Origin (B : Backend σ) (w : World σ) (step : Step) (id : String) (past : List Record)
    (command : Command) (context : Context) (event : Event) : Prop :=
  ∃ messages, w.addressed step = some (id, messages) ∧
    Produces id w.clock (w.records B (.ofCart id)) messages (w.act B step).1 past command context event

theorem Origin.decided {step : Step} {id : String} {past : List Record} {command : Command} {context : Context}
    {event : Event} (h : Origin B w step id past command context event) :
    (cartAt past past.length).decide id w.clock command = .persist event := by
  obtain ⟨_, -, hproduces⟩ := h
  exact hproduces.decided

/-- A step leaves a stream as it was, or goes on from there with records of its own cart. -/
theorem Explained.origin {step : Step} (h : Explained B w step) (stream : StreamId) :
    w.records B stream <+: (w.act B step).2.records B stream ∧
      ∀ {i r}, ((w.act B step).2.records B stream)[i]? = some r → (w.records B stream).length ≤ i →
        ∃ id command context event entry, stream = .ofCart id ∧
          Origin B w step id (((w.act B step).2.records B stream).take i) command context event ∧
          Own id w.clock context (((w.act B step).2.records B stream).take i) entry ∧ r = .ofEvent entry event := by
  have hsame (he : (w.act B step).2.records B stream = w.records B stream) :
      w.records B stream <+: (w.act B step).2.records B stream ∧
        ∀ {i r}, ((w.act B step).2.records B stream)[i]? = some r → ¬ (w.records B stream).length ≤ i := by
    rw [he]
    exact ⟨List.prefix_refl _, fun hi => Nat.not_le.2 (List.getElem?_eq_some_iff.1 hi).1⟩
  cases haddressed : w.addressed step with
  | none =>
    simp only [Explained, haddressed] at h
    obtain ⟨hgrows, hold⟩ := hsame (h.1 stream)
    exact ⟨hgrows, fun hi hnew => absurd hnew (hold hi)⟩
  | some addressee =>
    obtain ⟨id, messages⟩ := addressee
    simp only [Explained, haddressed] at h
    obtain ⟨htold, hothers⟩ := h
    by_cases hid : stream = .ofCart id
    · subst hid
      refine ⟨htold.grows.1, fun hi hnew => ?_⟩
      obtain ⟨command, context, event, entry, hproduces, hown, hr⟩ := htold.produces hi hnew
      exact ⟨id, command, context, event, entry, rfl, ⟨messages, haddressed, hproduces⟩, hown, hr⟩
    · obtain ⟨hgrows, hold⟩ := hsame (hothers _ hid)
      exact ⟨hgrows, fun hi hnew => absurd hnew (hold hi)⟩

/-! ### What records say -/

/-- The record says that it is number `n` of the cart `id`, that it was made for somebody who
asked with `context` when the clock stood at `clock`, and that `event` happened. -/
structure Describes (S : Shards) (id : String) (context : Context) (clock : Timestamp) (n : Nat) (event : Event)
    (r : Record) : Prop where
  stream : r.stream = .ofCart id
  metadata : r.metadata = ⟨StreamId.cartType, id, context.actor, context.correlationId⟩
  tags : r.tags.toList = [S.label (S.shardFor id)]
  sequenceNr : r.sequenceNr = n
  legible : r.event? = some event
  cart : event.cart = id
  time : event.time = clock
  recordedAt : r.recordedAt = clock

theorem Own.describes {id : String} {clock : Timestamp} {context : Context} {past : List Record}
    {entry : Record.Entry} {command : Command} {event : Event} {c : Cart} (h : Own id clock context past entry)
    (htags : entry.tags = S.tagsFor id) (hdecide : c.decide id clock command = .persist event) :
    Describes S id context clock (past.length + 1) event (.ofEvent entry event) where
  stream := h.stream
  metadata := by
    show Record.Metadata.mk entry.stream.entityType entry.stream.entityId entry.context.actor
      entry.context.correlationId = _
    rw [h.stream, h.context]
    rfl
  tags := by
    show entry.tags.toList = _
    rw [htags]
    rfl
  sequenceNr := h.sequenceNr
  legible := Cart.event?_ofEvent entry event
  cart := (Cart.stamped_of_decide hdecide).1
  time := (Cart.stamped_of_decide hdecide).2
  recordedAt := h.time

/-! ### Runs -/

/-- A record, given with those before it, describes the ask that produced it in a run. -/
def Truthful (B : Backend σ) (w : World σ) (S : Shards) (steps : List Step) (stream : StreamId)
    (past : List Record) (r : Record) : Prop :=
  ∃ before step after id command context event, steps = before ++ step :: after ∧ stream = .ofCart id ∧
    Origin B (w.run B before).2 step id past command context event ∧
    Describes S id context (w.run B before).2.clock (past.length + 1) event r

theorem Truthful.append {steps : List Step} {stream : StreamId} {past : List Record} {r : Record}
    (h : Truthful B w S steps stream past r) (more : List Step) :
    Truthful B w S (steps ++ more) stream past r := by
  obtain ⟨before, step, after, id, command, context, event, rfl, hrest⟩ := h
  exact ⟨before, step, after ++ more, id, command, context, event, by simp, hrest⟩

/-- **Every record describes the ask that produced it.** -/
theorem Untouched.truthful (C : Correct B V) (h : Untouched B V w) (hS : ∀ st ∈ w.stores, st.settings.shards = S)
    (steps : List Step) (hfits : ∀ n ≤ (w.run B steps).2.issued, V.Fits n) (stream : StreamId) {i : Nat}
    {r : Record} (hi : ((w.run B steps).2.records B stream)[i]? = some r) :
    Truthful B w S steps stream (((w.run B steps).2.records B stream).take i) r := by
  induction steps using List.reverseRecOn generalizing i r with
  | nil =>
    rw [World.run, h.records] at hi
    cases hi
  | append_singleton before step ih =>
    have hlabelled := h.labelled C hS _ hfits
    have hlast : (w.run B (before ++ [step])).2 = ((w.run B before).2.act B step).2 := by
      rw [World.run_append]
      rfl
    have hexplained := (h.consistent.explained C hfits).2
    rw [hlast] at hi hfits hlabelled ⊢
    obtain ⟨hgrows, hnew⟩ := hexplained.origin stream
    by_cases hlater : ((w.run B before).2.records B stream).length ≤ i
    · obtain ⟨id, command, context, event, entry, rfl, horigin, hown, rfl⟩ := hnew hi hlater
      have htags : entry.tags = S.tagsFor id := hlabelled (.ofCart id) _ (List.mem_of_getElem? hi)
      exact ⟨before, step, [], id, command, context, event, rfl, rfl, horigin,
        hown.describes htags horigin.decided⟩
    · -- The record was there before the step, and so were those before it.
      obtain ⟨more, hmore⟩ := hgrows
      have hlt := Nat.not_le.1 hlater
      rw [← hmore, List.getElem?_append_left hlt] at hi
      rw [← hmore, List.take_append_of_le_length (Nat.le_of_lt hlt)]
      exact (ih (fun n hn => hfits n (Nat.le_trans hn (World.issued_le_act _ step))) hi).append [step]

/-- What can be read back of a stream, from wherever one starts, is a part of its records from
there on; and each of them describes the ask that produced it. -/
structure Attested (B : Backend σ) (w : World σ) (S : Shards) (steps : List Step) (stream : StreamId)
    (rs : List Record) : Prop where
  readFrom : ∀ start, B.readFrom stream start (w.run B steps).2.storage = .ok (rs.drop (start - 1))
  truthful : ∀ {i r}, rs[i]? = some r → Truthful B w S steps stream (rs.take i) r

theorem Untouched.attested (C : Correct B V) (h : Untouched B V w) (hS : ∀ st ∈ w.stores, st.settings.shards = S)
    (steps : List Step) (hfits : ∀ n ≤ (w.run B steps).2.issued, V.Fits n) {stream : StreamId}
    (hstream : V.Takes stream) :
    Attested B w S steps stream ((w.run B steps).2.records B stream) where
  readFrom start := by
    have hinv := (h.consistent.run C steps hfits).healthy.inv
    rw [C.readFrom hinv hstream, ((C.tidy hinv).numbered stream).filter]
  truthful hi := h.truthful C hS steps hfits stream hi

/-- **Records describe themselves truthfully.** Whatever is done through stores with one
sharding over a storage, in memory or in an empty directory, each record that can be read back
says which cart it belongs to, for whom it was recorded and when, where it stands in its stream
and what happened. Numbers of records in files have 64 bits, so fewer messages than that are
sent there. -/
theorem records_describe_themselves (S : Shards) :
    (∀ w : World Memory, w.Fresh → w.storage = .empty → (∀ st ∈ w.stores, st.settings.shards = S) →
      ∀ steps stream, ∃ rs, Attested memory w S steps stream rs) ∧
    ∀ w : World Files, w.Fresh → w.storage.disk = .empty → w.storage.tails = [] →
      (∀ st ∈ w.stores, st.settings.shards = S) → ∀ steps, (w.run files steps).2.issued < UInt64.size →
        ∀ stream, Storage.Layout.Usable stream → ∃ rs, Attested files w S steps stream rs := by
  constructor
  · intro w hfresh hstorage hS steps stream
    exact ⟨_, (untouched_memory hfresh hstorage).attested Storage.correct_memory hS steps (fun _ _ => trivial)
      trivial⟩
  · intro w hfresh hdisk htails hS steps hissued stream hstream
    exact ⟨_, (untouched_files hfresh hdisk htails).attested Storage.correct_files hS steps
      (fun n hn => Nat.lt_of_le_of_lt hn hissued) hstream⟩

/-- A cart is changed by two callers, by the second an hour later and after a restart. -/
theorem two_callers_described :
    let S := Settings.cartShards 10
    let settings : Settings := ⟨300000, ⟨1, 1⟩, S, 32⟩
    let steps : List Step := [.ask 0 "a" (.addItem ⟨"x", by decide⟩ 1) ⟨some "user-7", some "req-9"⟩, .restart 0,
      .setClock ⟨Timestamp.epoch.date, 1, 0, 0, 0, by decide⟩, .ask 0 "a" .checkout .anonymous]
    let remembered : World Memory := .begin memory .empty Timestamp.epoch settings 0 1
    let filed : World Files := .begin files (.onDisk .empty) Timestamp.epoch settings 0 1
    (filed.run files steps).2.issued < UInt64.size ∧ Storage.Layout.Usable (.ofCart "a") ∧
      (∃ rs, Attested memory remembered S steps (.ofCart "a") rs) ∧
      ∃ rs, Attested files filed S steps (.ofCart "a") rs := by
  intro S settings steps remembered filed
  have hissued : (filed.run files steps).2.issued < UInt64.size :=
    Nat.lt_of_le_of_lt (filed.issues_run steps).2 (by decide)
  have hid : Storage.Layout.Usable (.ofCart "a") := by decide
  have hdescribe := records_describe_themselves S
  exact ⟨hissued, hid, hdescribe.1 remembered ⟨rfl, by decide, rfl⟩ rfl (by decide) steps _,
    hdescribe.2 filed ⟨rfl, by decide, rfl⟩ rfl rfl (by decide) steps hissued _ hid⟩

end CartLedger.Entity
