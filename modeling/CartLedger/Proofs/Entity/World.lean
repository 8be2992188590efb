import CartLedger.Entity.Step
import CartLedger.Proofs.Entity.Instance

/-! What holds in a world as long as it goes on.

A world is `Consistent` when its storage is healthy and every running instance, however
stale, is at some point of its stream. Every step keeps it so (`Consistent.act`), and what
a step does to the streams is told by the answers it gives (`Explained`): a step that is
not addressed to a cart changes no stream, and one that is changes the stream of that cart
as `Told` says. -/
namespace CartLedger.Entity
open CartLedger.Cart (Command)
open CartLedger.Storage (Backend View Correct Unchanged)
open Instance (Message Answer)

namespace World
variable {σ : Type}

/-- The ids of all instances, by their numbers. -/
def ids (w : World σ) : List String := w.instances.map Instance.id

/-- The cart a step is addressed to, and what it is sent. -/
def addressed (w : World σ) : Step → Option (String × List Message)
  | .ask _ id command context => some (id, [.ask command context])
  | .observe _ id _ => some (id, [.observe])
  | .spawn _ id _ => some (id, [.observe])
  | .send name messages =>
    (w.named? name).bind fun i => (w.instances[i]?).map fun inst => (inst.id, messages)
  | _ => none

/-- The records of a cart. -/
abbrev records (B : Backend σ) (w : World σ) (id : StreamId) : List Record := B.recorded w.storage id

theorem ids_set {w : World σ} {i : Nat} {inst inst' : Instance} (hi : w.instances[i]? = some inst)
    (hid : inst'.id = inst.id) : (w.instances.set i inst').map Instance.id = w.ids := by
  rw [ids, List.map_set, hid]
  refine List.ext_getElem? fun n => ?_
  rw [List.getElem?_set]
  split
  · next hn =>
    split
    · rw [← hn, List.getElem?_map, hi]
      rfl
    · next hlt =>
      rw [List.length_map] at hlt
      obtain ⟨hlt', -⟩ := List.getElem?_eq_some_iff.1 hi
      exact absurd hlt' hlt
  · rfl

end World

variable {σ : Type} {B : Backend σ} {V : View σ} {w w' : World σ}

/-- Nobody gets a reply. -/
def Silent (answers : List Answer) : Prop := ∀ reply, Answer.reply (.ok reply) ∉ answers

/-- What a step did to the streams, and what was said. -/
def Explained (B : Backend σ) (w : World σ) (step : Step) : Prop :=
  match w.addressed step with
  | some (id, messages) =>
    Told id w.clock (w.records B (.ofCart id)) messages (w.act B step).1
        ((w.act B step).2.records B (.ofCart id)) ∧
      ∀ other, other ≠ .ofCart id → (w.act B step).2.records B other = w.records B other
  | none => (∀ id, (w.act B step).2.records B id = w.records B id) ∧ Silent (w.act B step).1

/-! ### Consistency -/

structure Consistent (B : Backend σ) (V : View σ) (w : World σ) : Prop where
  healthy : Healthy B V w.storage
  follows : ∀ inst ∈ w.instances, inst.running → Follows B V w.storage inst
  /-- No stream has more records than there were messages. -/
  counted : ∀ id, (w.records B id).length ≤ w.issued
  /-- A store finds under an id what it started for it. -/
  started : ∀ st ∈ w.stores, ∀ {id i}, st.instance? id = some i → w.ids[i]? = some id

/-- The running instances were running before, and where they are. -/
def Subdued (w w' : World σ) : Prop :=
  ∀ inst' ∈ w'.instances, inst'.running → ∃ inst ∈ w.instances, inst.running ∧ inst'.id = inst.id ∧
    inst'.cart = inst.cart ∧ inst'.sequenceNr = inst.sequenceNr

theorem Subdued.refl (w : World σ) : Subdued w w := fun inst hinst hrun => ⟨inst, hinst, hrun, rfl, rfl, rfl⟩

/-- What is done apart from instances does no harm when it keeps the streams. -/
theorem Consistent.subdued (h : Consistent B V w) (hhealthy : Healthy B V w'.storage)
    (hrecorded : B.recorded w'.storage = B.recorded w.storage) (hissued : w'.issued = w.issued)
    (hids : w'.ids = w.ids) (hinstances : Subdued w w')
    (hstores : ∀ st ∈ w'.stores, st ∈ w.stores ∨ st.started = []) : Consistent B V w' where
  healthy := hhealthy
  follows inst' hinst' hrun := by
    obtain ⟨inst, hinst, hrunning, hid, hcart, hnumber⟩ := hinstances inst' hinst' hrun
    have hf := h.follows inst hinst hrunning
    have hstream : inst'.stream = inst.stream := congrArg StreamId.ofCart hid
    refine ⟨hstream ▸ hf.takes, ?_, ?_⟩
    · rw [hrecorded, hstream, hnumber]
      exact hf.le
    · rw [hrecorded, hstream, hnumber, hcart]
      exact hf.cart
  counted id := by
    rw [World.records, hrecorded, hissued]
    exact h.counted id
  started st hst {id i} hi := by
    rw [hids]
    obtain hst | hst := hstores st hst
    · exact h.started st hst hi
    · rw [Store.instance?, hst] at hi
      cases hi

/-! ### Instances -/

theorem World.ids_start (w : World σ) (id : String) (journal : Nat) (settings : Settings) :
    (w.start B id journal settings).2.ids = w.ids ++ [id] := by
  show (w.instances ++ [_]).map Instance.id = _
  rw [List.map_append, List.map_singleton, id_start]
  rfl

theorem World.id_of_start (w : World σ) (id : String) (journal : Nat) (settings : Settings) :
    (w.start B id journal settings).2.ids[(w.start B id journal settings).1]? = some id := by
  have hnumber : (w.start B id journal settings).1 = w.ids.length := (List.length_map _).symm
  rw [World.ids_start, hnumber, List.getElem?_append_right (Nat.le_refl _), Nat.sub_self]
  rfl

/-- A new instance is at the end of its stream, or has stopped already. -/
theorem Consistent.start (C : Correct B V) (h : Consistent B V w) (id : String) (journal : Nat)
    (settings : Settings) : Consistent B V (w.start B id journal settings).2 ∧
      (w.start B id journal settings).2.ids[(w.start B id journal settings).1]? = some id := by
  refine ⟨⟨h.healthy, fun inst hinst hrun => ?_, h.counted, fun st hst {id' i} hi => ?_⟩,
    w.id_of_start id journal settings⟩
  · obtain hinst | hinst := List.mem_append.1 hinst
    · exact h.follows inst hinst hrun
    · rw [List.mem_singleton.1 hinst] at hrun ⊢
      by_cases htakes : V.Takes (.ofCart id)
      · rw [start_eq C h.healthy htakes]
        exact ⟨htakes, Nat.le_refl _, rfl⟩
      · rw [start_foreign C h.healthy htakes] at hrun
        cases hrun
  · have hold := h.started st hst hi
    rw [World.ids_start, List.getElem?_append_left (List.getElem?_eq_some_iff.1 hold).1]
    exact hold

/-- What becomes of a world in which an instance of the cart `id` is sent messages. -/
structure Delivered (B : Backend σ) (V : View σ) (w w' : World σ) (id : String) (messages : List Message)
    (answers : List Answer) : Prop where
  consistent : Consistent B V w'
  told : Told id w.clock (w.records B (.ofCart id)) messages answers (w'.records B (.ofCart id))
  others : ∀ other, other ≠ .ofCart id → w'.records B other = w.records B other

theorem World.ids_getElem? {i : Nat} {id : String} (hi : w.ids[i]? = some id) :
    ∃ inst, w.instances[i]? = some inst ∧ inst.id = id := by
  rw [World.ids, List.getElem?_map] at hi
  exact Option.map_eq_some_iff.1 hi

theorem Consistent.send (C : Correct B V) (h : Consistent B V w) {i : Nat} {id : String}
    (hi : w.ids[i]? = some id) (messages : List Message)
    (hfits : ∀ n ≤ (w.send B i messages).2.issued, V.Fits n) :
    Delivered B V w (w.send B i messages).2 id messages (w.send B i messages).1 := by
  obtain ⟨inst, hinst, rfl⟩ := World.ids_getElem? hi
  have hissued : (w.send B i messages).2.issued = w.issued + messages.length := by
    simp only [World.send, hinst]
  have hcounted : (B.recorded w.storage inst.stream).length ≤ w.issued := h.counted inst.stream
  obtain ⟨answers, inst', s', hreceive, hprogress, htold⟩ := receive_told C messages h.healthy
    (h.follows inst (List.mem_of_getElem? hinst)) ⟨w.clock, w.issued⟩ w.elapsed
    (fun n hn => hfits n (by rw [hissued]; omega))
  have hgrown : ∀ id, B.recorded w.storage id <+: B.recorded s' id := by
    intro id
    by_cases hid : id = inst.stream
    · rw [hid]
      exact htold.grows.1
    · exact (hprogress.others id hid).symm ▸ List.prefix_refl _
  have hids : (w.instances.set i inst').map Instance.id = w.ids := World.ids_set hinst hprogress.id
  simp only [World.send, hinst, hreceive]
  refine ⟨⟨hprogress.healthy, fun other hother hrun => ?_, fun id => ?_, fun st hst {id i} hi => ?_⟩, htold,
    hprogress.others⟩
  · obtain hother | rfl := List.mem_or_eq_of_mem_set hother
    · exact (h.follows other hother hrun).grown (hgrown _)
    · exact hprogress.follows hrun
  · by_cases hid : id = inst.stream
    · have hlength := htold.grows.2
      show (B.recorded s' id).length ≤ w.issued + messages.length
      rw [hid]
      omega
    · show (B.recorded s' id).length ≤ w.issued + messages.length
      rw [hprogress.others id hid]
      exact Nat.le_add_right_of_le (h.counted id)
  · show ((w.instances.set _ inst').map Instance.id)[i]? = some id
    rw [hids]
    exact h.started st hst hi

theorem Consistent.sendFirst (C : Correct B V) (h : Consistent B V w) {i : Nat} {id : String}
    (hi : w.ids[i]? = some id) (messages : List Message)
    (hfits : ∀ n ≤ (w.sendFirst B i messages).2.issued, V.Fits n) :
    Delivered B V w (w.sendFirst B i messages).2 id messages (w.sendFirst B i messages).1 := by
  rw [World.sendFirst] at hfits ⊢
  split
  · next hrun =>
    rw [if_pos hrun] at hfits
    exact h.send C hi messages hfits
  · exact ⟨h, told_abandoned .., fun _ _ => rfl⟩

/-! ### A mailbox at a time -/

/-- Messages are sent to an instance in turns, so many at a time that its mailbox takes them. -/
inductive InTurns (B : Backend σ) (i : Nat) : World σ → List Message → List Answer → World σ → Prop
  | nil {w : World σ} : InTurns B i w [] [] w
  | cons {w w' : World σ} {filling rest answers} (hrest : InTurns B i (w.send B i filling).2 rest answers w') :
      InTurns B i w (filling ++ rest) ((w.send B i filling).1 ++ answers) w'

theorem World.inTurns_sendInTurns {i slots turns : Nat} {messages : List Message}
    (h : messages.length ≤ turns * slots) :
    InTurns B i w messages (w.sendInTurns B i slots turns messages).1 (w.sendInTurns B i slots turns messages).2 := by
  induction turns generalizing w messages with
  | zero =>
    obtain rfl : messages = [] := List.eq_nil_of_length_eq_zero (by omega)
    exact .nil
  | succ turns ih =>
    have hrest : (messages.drop slots).length ≤ turns * slots := by
      rw [List.length_drop]
      rw [Nat.succ_mul] at h
      omega
    have hturns := InTurns.cons (ih (w := (w.send B i (messages.take slots)).2) hrest)
    rwa [List.take_append_drop] at hturns

theorem Settings.slots_pos (settings : Settings) : 0 < settings.slots :=
  Nat.lt_of_lt_of_le Nat.one_pos (Nat.le_max_right _ _)

/-- The mailbox is filled often enough for all messages. -/
theorem Settings.le_fillings (settings : Settings) (messages : Nat) :
    messages ≤ settings.fillings messages * settings.slots := by
  have hrest := Nat.mod_lt (messages + settings.slots - 1) settings.slots_pos
  have hall := Nat.div_add_mod' (messages + settings.slots - 1) settings.slots
  rw [Settings.fillings]
  omega

theorem World.sendAll_eq {i : Nat} {inst : Instance} (hi : w.instances[i]? = some inst)
    (messages : List Message) : w.sendAll B i messages =
      w.sendInTurns B i inst.settings.slots (inst.settings.fillings messages.length) messages := by
  rw [World.sendAll, hi]

theorem World.inTurns_sendAll {i : Nat} {inst : Instance} (hi : w.instances[i]? = some inst)
    (messages : List Message) : InTurns B i w messages (w.sendAll B i messages).1 (w.sendAll B i messages).2 := by
  rw [World.sendAll_eq hi]
  exact World.inTurns_sendInTurns (inst.settings.le_fillings messages.length)

/-- Ids of events are never taken back, and no more of them are given out than there are
messages. -/
def World.Issues (w w' : World σ) (messages : Nat) : Prop :=
  w.issued ≤ w'.issued ∧ w'.issued ≤ w.issued + messages

theorem World.Issues.of_eq (h : w'.issued = w.issued) (messages : Nat) : w.Issues w' messages :=
  ⟨Nat.le_of_eq h.symm, Nat.le_add_right_of_le (Nat.le_of_eq h)⟩

theorem World.issues_send (w : World σ) (i : Nat) (messages : List Message) :
    w.Issues (w.send B i messages).2 messages.length := by
  rw [World.send]
  split
  · exact .of_eq rfl _
  · exact ⟨Nat.le_add_right _ _, Nat.le_refl _⟩

theorem World.Issues.trans {w₁ w₂ : World σ} {m n : Nat} (h : w.Issues w₁ m) (h' : w₁.Issues w₂ n) :
    w.Issues w₂ (m + n) := by
  obtain ⟨hle, hmost⟩ := h
  obtain ⟨hle', hmost'⟩ := h'
  exact ⟨Nat.le_trans hle hle', by omega⟩

theorem World.ids_send (w : World σ) (i : Nat) (messages : List Message) : (w.send B i messages).2.ids = w.ids := by
  rw [World.send]
  split
  · rfl
  · next inst hi => exact World.ids_set hi (same_receive _ _ messages).id

theorem World.clock_send (w : World σ) (i : Nat) (messages : List Message) :
    (w.send B i messages).2.clock = w.clock := by
  rw [World.send]
  split <;> rfl

/-- An instance that has stopped is sent messages. -/
theorem World.send_stopped {i : Nat} {inst : Instance} (hi : w.instances[i]? = some inst)
    (hstopped : inst.running = false) (messages : List Message) :
    (w.send B i messages).1 = messages.map Message.refused ∧
      (w.send B i messages).2.instances[i]? = some inst := by
  have hunheard : ¬ (inst.running = true ∧ messages ≠ []) := fun hheard => by
    rw [hstopped] at hheard
    cases hheard.1
  simp only [World.send, hi, Instance.receive, if_neg hunheard]
  exact ⟨trivial, List.getElem?_set_self (List.getElem?_eq_some_iff.1 hi).1⟩

theorem Delivered.append {w₁ w₂ : World σ} {id : String} {messages messages' : List Message}
    {answers answers' : List Answer} (h : Delivered B V w w₁ id messages answers)
    (h' : Delivered B V w₁ w₂ id messages' answers') (hclock : w₁.clock = w.clock) :
    Delivered B V w w₂ id (messages ++ messages') (answers ++ answers') :=
  ⟨h'.consistent, h.told.append (hclock ▸ h'.told), fun other hother =>
    (h'.others other hother).trans (h.others other hother)⟩

namespace InTurns
variable {i : Nat} {messages : List Message} {answers : List Answer}

theorem issues (h : InTurns B i w messages answers w') : w.Issues w' messages.length := by
  induction h with
  | nil => exact .of_eq rfl _
  | @cons w w' filling rest answers _ ih =>
    rw [List.length_append]
    exact (w.issues_send i filling).trans ih

/-- After an instance has stopped, whoever waits is refused. -/
theorem refused (h : InTurns B i w messages answers w') {inst : Instance} (hi : w.instances[i]? = some inst)
    (hstopped : inst.running = false) : answers = messages.map Message.refused := by
  induction h with
  | nil => rfl
  | @cons w w' filling rest answers _ ih =>
    obtain ⟨hfilling, hi'⟩ := World.send_stopped (B := B) hi hstopped filling
    rw [hfilling, ih hi', List.map_append]

theorem delivered (C : Correct B V) (h : InTurns B i w messages answers w') (hconsistent : Consistent B V w)
    {id : String} (hi : w.ids[i]? = some id) (hfits : ∀ n ≤ w'.issued, V.Fits n) :
    Delivered B V w w' id messages answers := by
  induction h with
  | nil => exact ⟨hconsistent, .nil, fun _ _ => rfl⟩
  | @cons w w' filling rest answers hrest ih =>
    have hfirst := hconsistent.send C hi filling fun n hn => hfits n (Nat.le_trans hn hrest.issues.1)
    have hi' : (w.send B i filling).2.ids[i]? = some id := by rwa [w.ids_send]
    exact hfirst.append (ih hfirst.consistent hi' hfits) (w.clock_send i filling)

end InTurns

/-! ### Steps -/

theorem Delivered.of_same {w₁ : World σ} {id : String} {messages : List Message} {answers : List Answer}
    (h : Delivered B V w₁ w' id messages answers) (hrecorded : B.recorded w₁.storage = B.recorded w.storage)
    (hclock : w₁.clock = w.clock) : Delivered B V w w' id messages answers := by
  refine ⟨h.consistent, ?_, fun other hother => ?_⟩
  · have htold := h.told
    rw [World.records, hrecorded, hclock] at htold
    exact htold
  · rw [h.others other hother, World.records, hrecorded]

theorem Consistent.keep (h : Consistent B V w) (name : String) (i : Nat) : Consistent B V (w.keep name i) :=
  ⟨h.healthy, h.follows, h.counted, h.started⟩

/-- A store hands out an instance of the cart it is asked for. -/
theorem Consistent.obtain (C : Correct B V) (h : Consistent B V w) {s : Nat} {st : Store}
    (hst : w.stores[s]? = some st) (id : String) :
    Consistent B V (w.obtain B s st id).2 ∧ (w.obtain B s st id).2.ids[(w.obtain B s st id).1]? = some id ∧
      (w.obtain B s st id).2.storage = w.storage ∧ (w.obtain B s st id).2.clock = w.clock := by
  rw [World.obtain]
  split
  · next i hi =>
    have hi' := (Option.filter_eq_some_iff.1 hi).1
    exact ⟨h, h.started st (List.mem_of_getElem? hst) hi', rfl, rfl⟩
  · obtain ⟨hstart, hnew⟩ := h.start C id st.journal st.settings
    refine ⟨⟨hstart.healthy, hstart.follows, hstart.counted, fun st' hst' {id' i} hi => ?_⟩, hnew, rfl, rfl⟩
    obtain hst' | rfl := List.mem_or_eq_of_mem_set hst'
    · exact hstart.started st' hst' hi
    · rw [Store.instance?, Store.enter, Entries.find?_set] at hi
      split at hi
      · next he =>
        rw [← he, ← Option.some.inj hi]
        exact hnew
      · exact hstart.started st (List.mem_of_getElem? hst) hi

theorem Consistent.sendThrough (C : Correct B V) (h : Consistent B V w) (s : Nat) (id : String)
    (name : Option String) (message : Message)
    (hfits : ∀ n ≤ (w.sendThrough B s id name message).2.issued, V.Fits n) :
    Delivered B V w (w.sendThrough B s id name message).2 id [message]
      (w.sendThrough B s id name message).1 := by
  rw [World.sendThrough] at hfits ⊢
  cases hst : w.stores[s]? with
  | none => exact ⟨h, told_refused id w.clock _ [message], fun _ _ => rfl⟩
  | some st =>
    simp only [hst] at hfits ⊢
    split
    · exact ⟨h, .cons .unanswered .nil, fun _ _ => rfl⟩
    · next hid =>
      rw [if_neg hid] at hfits
      obtain ⟨h₁, hi, hstorage, hclock⟩ := h.obtain C hst id
      cases name with
      | none => exact (h₁.sendFirst C hi [message] hfits).of_same (congrArg B.recorded hstorage) hclock
      | some name =>
        exact ((h₁.keep name _).sendFirst C hi [message] hfits).of_same (congrArg B.recorded hstorage) hclock

/-- Opening a journal changes nothing that matters. -/
theorem Consistent.withStorage (h : Consistent B V w) {s : σ} (hs : Healthy B V s)
    (hrecorded : B.recorded s = B.recorded w.storage) : Consistent B V { w with storage := s } :=
  h.subdued hs hrecorded rfl rfl (.refl w) fun _ hst => .inl hst

theorem Consistent.spawn (C : Correct B V) (h : Consistent B V w) (st : Store) (id name : String)
    (hfits : ∀ n ≤ (w.spawn B st id name).2.issued, V.Fits n) :
    Delivered B V w (w.spawn B st id name).2 id [.observe] (w.spawn B st id name).1 := by
  have hopen := C.openJournal h.healthy.inv
  have h₁ := h.withStorage (h.healthy.unchanged hopen) hopen.recorded
  obtain ⟨h₂, hnew⟩ := h₁.start C id (B.openJournal w.storage).1 st.settings
  exact ((h₂.keep name _).sendFirst C hnew [.observe] hfits).of_same hopen.recorded rfl

/-- Stopping an instance changes no more than instances. -/
theorem World.stop_eq (w : World σ) (i : Nat) :
    ∃ instances, w.stop i = { w with instances := instances } ∧ instances.map Instance.id = w.ids := by
  rw [World.stop]
  split
  · exact ⟨w.instances, rfl, rfl⟩
  · next inst hi => exact ⟨w.instances.set i { inst with running := false }, rfl, World.ids_set hi rfl⟩

theorem World.stopAll_eq (w : World σ) (started : List (String × Nat)) :
    ∃ instances, started.foldl (fun w e => w.stop e.2) w = { w with instances := instances } := by
  induction started generalizing w with
  | nil => exact ⟨w.instances, rfl⟩
  | cons e rest ih =>
    obtain ⟨instances, hstop, -⟩ := w.stop_eq e.2
    obtain ⟨instances', hrest⟩ := ih { w with instances := instances }
    exact ⟨instances', by rw [List.foldl_cons, hstop, hrest]⟩

theorem World.passivateAll_eq (w : World σ) (s : Nat) (st : Store) :
    ∃ instances, w.passivateAll s st =
      { w with instances := instances, stores := w.stores.set s (.fresh st.settings st.journal) } := by
  obtain ⟨instances, hstop⟩ := w.stopAll_eq st.started
  exact ⟨instances, by rw [World.passivateAll, hstop]⟩

theorem subdued_stop (w : World σ) (i : Nat) : Subdued w (w.stop i) := by
  intro inst hinst hrun
  rw [World.stop] at hinst
  split at hinst
  · exact Subdued.refl w inst hinst hrun
  · obtain hinst | rfl := List.mem_or_eq_of_mem_set hinst
    · exact Subdued.refl w inst hinst hrun
    · cases hrun

theorem Consistent.stop (h : Consistent B V w) (i : Nat) : Consistent B V (w.stop i) := by
  obtain ⟨instances, hstop, hids⟩ := w.stop_eq i
  have hsubdued := subdued_stop w i
  rw [hstop] at hsubdued ⊢
  exact h.subdued h.healthy rfl rfl hids hsubdued fun st hst => .inl hst

/-- A store that is replaced by one that started nothing. -/
theorem Consistent.freshStore (h : Consistent B V w) (s : Nat) (settings : Settings) (journal : Nat) :
    Consistent B V { w with stores := w.stores.set s (.fresh settings journal) } := by
  refine h.subdued h.healthy rfl rfl rfl (.refl w) fun st hst => ?_
  obtain hst | rfl := List.mem_or_eq_of_mem_set hst
  · exact .inl hst
  · exact .inr rfl

theorem Consistent.stopAll (h : Consistent B V w) (started : List (String × Nat)) :
    Consistent B V (started.foldl (fun w e => w.stop e.2) w) := by
  induction started generalizing w with
  | nil => exact h
  | cons e rest ih => exact ih (h.stop e.2)

theorem Consistent.passivateAll (h : Consistent B V w) (s : Nat) (st : Store) :
    Consistent B V (w.passivateAll s st) :=
  (h.stopAll st.started).freshStore s st.settings st.journal

/-- A store that is replaced by a new one with a new journal. -/
theorem Consistent.restart (C : Correct B V) (h : Consistent B V w) (s : Nat) (st : Store) :
    Consistent B V (w.restart B s st) ∧ B.recorded (w.restart B s st).storage = B.recorded w.storage := by
  have hopen := C.openJournal h.healthy.inv
  have h₁ := h.withStorage (h.healthy.unchanged hopen) hopen.recorded
  exact ⟨h₁.freshStore s _ _, hopen.recorded⟩

theorem World.ids_sleep (w : World σ) (ms : Nat) : (w.sleep ms).ids = w.ids := by
  have hexpire : ∀ inst : Instance, (inst.expire (w.elapsed + ms)).id = inst.id := by
    intro inst
    rw [Instance.expire]
    split <;> rfl
  show (w.instances.map (Instance.expire (w.elapsed + ms))).map Instance.id = w.instances.map Instance.id
  rw [List.map_map]
  exact List.map_congr_left fun inst _ => hexpire inst

theorem subdued_sleep (w : World σ) (ms : Nat) : Subdued w (w.sleep ms) := by
  intro inst' hinst' hrun
  obtain ⟨inst, hinst, rfl⟩ := List.mem_map.1 hinst'
  rw [Instance.expire] at hrun ⊢
  split
  · next hidle =>
    rw [if_pos hidle] at hrun
    cases hrun
  · next hidle =>
    rw [if_neg hidle] at hrun
    exact ⟨inst, hinst, hrun, rfl, rfl, rfl⟩

theorem Consistent.sleep (h : Consistent B V w) (ms : Nat) : Consistent B V (w.sleep ms) :=
  h.subdued h.healthy rfl rfl (w.ids_sleep ms) (subdued_sleep w ms) fun _ hst => .inl hst

theorem silent_refused (messages : List Message) : Silent (messages.map Message.refused) := by
  intro reply hmem
  obtain ⟨message, -, he⟩ := List.mem_map.1 hmem
  cases message <;> cases he

theorem Consistent.setFailing (C : Correct B V) (h : Consistent B V w) (failing : Bool) :
    Consistent B V { w with storage := B.setFailing failing w.storage } ∧
      B.recorded (B.setFailing failing w.storage) = B.recorded w.storage := by
  obtain ⟨hinv, hrecorded, -, hkept⟩ := C.setFailing h.healthy.inv failing
  exact ⟨h.withStorage (h.healthy.congr hinv hrecorded hkept) hrecorded, hrecorded⟩

theorem Delivered.explained {id : String} {messages : List Message} {step : Step}
    (h : Delivered B V w (w.act B step).2 id messages (w.act B step).1)
    (haddressed : w.addressed step = some (id, messages)) :
    Consistent B V (w.act B step).2 ∧ Explained B w step := by
  rw [Explained, haddressed]
  exact ⟨h.consistent, h.told, h.others⟩

/-- **One step** keeps a world consistent, and its answers tell what it did. -/
theorem Consistent.act (C : Correct B V) (h : Consistent B V w) (step : Step)
    (hfits : ∀ n ≤ (w.act B step).2.issued, V.Fits n) :
    Consistent B V (w.act B step).2 ∧ Explained B w step := by
  have hnone : Silent [] := fun _ => List.not_mem_nil
  cases step with
  | setClock time => exact ⟨⟨h.healthy, h.follows, h.counted, h.started⟩, fun _ => rfl, hnone⟩
  | ask s id command context => exact (h.sendThrough C s id none (.ask command context) hfits).explained rfl
  | observe s id name => exact (h.sendThrough C s id name .observe hfits).explained rfl
  | spawn s id name =>
    refine Delivered.explained ?_ rfl
    simp only [World.act] at hfits ⊢
    cases hst : w.stores[s]? with
    | none => exact ⟨h, told_refused id w.clock _ [.observe], fun _ _ => rfl⟩
    | some st =>
      simp only [hst] at hfits
      exact h.spawn C st id name hfits
  | send name messages =>
    simp only [Explained, World.addressed, World.act] at hfits ⊢
    cases hname : w.named? name with
    | none => exact ⟨h, fun _ => rfl, silent_refused messages⟩
    | some i =>
      simp only [hname, Option.bind_some] at hfits ⊢
      cases hi : w.instances[i]? with
      | none =>
        simp only [World.sendAll, hi]
        exact ⟨h, fun _ => trivial, silent_refused messages⟩
      | some inst =>
        have hid : w.ids[i]? = some inst.id := by rw [World.ids, List.getElem?_map, hi]; rfl
        have hd := (World.inTurns_sendAll hi messages).delivered C h hid hfits
        exact ⟨hd.consistent, hd.told, hd.others⟩
  | forget name => exact ⟨⟨h.healthy, h.follows, h.counted, h.started⟩, fun _ => rfl, hnone⟩
  | passivateAll s =>
    simp only [Explained, World.addressed, World.act, World.withStore]
    split
    · next st hst =>
      have hstopped := h.passivateAll s st
      obtain ⟨instances, hstop⟩ := w.passivateAll_eq s st
      rw [hstop] at hstopped ⊢
      exact ⟨hstopped, fun _ => rfl, hnone⟩
    · exact ⟨h, fun _ => rfl, hnone⟩
  | restart s =>
    simp only [Explained, World.addressed, World.act, World.withStore]
    split
    · next st hst =>
      obtain ⟨hrestarted, hrecorded⟩ := h.restart C s st
      exact ⟨hrestarted, fun id => congrFun hrecorded id, hnone⟩
    · exact ⟨h, fun _ => rfl, hnone⟩
  | sleep ms => exact ⟨h.sleep ms, fun _ => rfl, hnone⟩
  | setFailing failing =>
    obtain ⟨hconsistent, hrecorded⟩ := h.setFailing C failing
    exact ⟨hconsistent, fun id => congrFun hrecorded id, hnone⟩

/-! ### Runs -/

/-- What is sent in a step. -/
def Step.messages : Step → List Message
  | .ask _ _ command context => [.ask command context]
  | .observe .. | .spawn .. => [.observe]
  | .send _ messages => messages
  | _ => []

theorem World.issues_sendFirst (w : World σ) (i : Nat) (messages : List Message) :
    w.Issues (w.sendFirst B i messages).2 messages.length := by
  rw [World.sendFirst]
  split
  · exact w.issues_send i messages
  · exact .of_eq rfl _

theorem World.issues_sendThrough (w : World σ) (s : Nat) (id : String) (name : Option String) (message : Message) :
    w.Issues (w.sendThrough B s id name message).2 1 := by
  have hobtain : ∀ st, (w.obtain B s st id).2.issued = w.issued := by
    intro st
    rw [World.obtain]
    split <;> rfl
  rw [World.sendThrough]
  split
  · exact .of_eq rfl _
  · next st _ =>
    split
    · exact .of_eq rfl _
    · rw [World.Issues, ← hobtain st]
      cases name with
      | none => exact World.issues_sendFirst _ _ [message]
      | some name => exact World.issues_sendFirst ((w.obtain B s st id).2.keep name _) _ [message]

theorem World.issues_act (w : World σ) (step : Step) : w.Issues (w.act B step).2 step.messages.length := by
  cases step with
  | ask s id command context => exact w.issues_sendThrough s id none _
  | observe s id name => exact w.issues_sendThrough s id name _
  | spawn s id name =>
    rw [World.act]
    split
    · next st _ =>
      let started := World.start B { w with storage := (B.openJournal w.storage).2 } id
        (B.openJournal w.storage).1 st.settings
      exact World.issues_sendFirst (started.2.keep name started.1) started.1 [.observe]
    · exact .of_eq rfl _
  | send name messages =>
    rw [World.act]
    split
    · next i _ =>
      cases hi : w.instances[i]? with
      | none =>
        simp only [World.sendAll, hi]
        exact .of_eq rfl _
      | some inst => exact (World.inTurns_sendAll hi messages).issues
    · exact .of_eq rfl _
  | passivateAll s =>
    rw [World.act, World.withStore]
    split
    · next st _ =>
      obtain ⟨instances, hstop⟩ := w.passivateAll_eq s st
      exact .of_eq (by rw [hstop]) _
    · exact .of_eq rfl _
  | restart s =>
    rw [World.act, World.withStore]
    split <;> exact .of_eq rfl _
  | setClock | forget | sleep | setFailing => exact .of_eq rfl _

/-- A run gives out no more ids than there are messages in it. -/
theorem World.issues_run (w : World σ) (steps : List Step) :
    w.Issues (w.run B steps).2 (steps.flatMap Step.messages).length := by
  induction steps generalizing w with
  | nil => exact .of_eq rfl _
  | cons step rest ih =>
    obtain ⟨hact, hact'⟩ := w.issues_act (B := B) step
    obtain ⟨hrest, hrest'⟩ := ih (w.act B step).2
    refine ⟨Nat.le_trans hact hrest, Nat.le_trans hrest' ?_⟩
    rw [List.flatMap_cons, List.length_append]
    omega

theorem World.issued_le_act (w : World σ) (step : Step) : w.issued ≤ (w.act B step).2.issued :=
  (w.issues_act step).1

theorem World.issued_le_run (w : World σ) (steps : List Step) : w.issued ≤ (w.run B steps).2.issued :=
  (w.issues_run steps).1

/-- **A whole run** keeps a world consistent. -/
theorem Consistent.run (C : Correct B V) (h : Consistent B V w) (steps : List Step)
    (hfits : ∀ n ≤ (w.run B steps).2.issued, V.Fits n) : Consistent B V (w.run B steps).2 := by
  induction steps generalizing w with
  | nil => exact h
  | cons step rest ih =>
    have hact := (h.act C step fun n hn =>
      hfits n (Nat.le_trans hn (World.issued_le_run (w.act B step).2 rest))).1
    exact ih hact hfits

/-- Whatever a run gets to, its next step is explained. -/
theorem Consistent.explained (C : Correct B V) (h : Consistent B V w) {before after : List Step} {step : Step}
    (hfits : ∀ n ≤ (w.run B (before ++ step :: after)).2.issued, V.Fits n) :
    Consistent B V (w.run B before).2 ∧ Explained B (w.run B before).2 step := by
  rw [World.run_append] at hfits
  have hbefore := h.run C before fun n hn => hfits n (Nat.le_trans hn (World.issued_le_run _ _))
  exact ⟨hbefore, (hbefore.act C step fun n hn =>
    hfits n (Nat.le_trans hn (World.issued_le_run _ after))).2⟩

end CartLedger.Entity
