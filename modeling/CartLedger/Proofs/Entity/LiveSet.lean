import CartLedger.Proofs.Entity.Lifetimes
import CartLedger.Proofs.Entity.Turns
import CartLedger.Proofs.Journal.Listing
import Mathlib.Data.List.Induction

/-! Which instances of a store are alive.

A store remembers the instance that it last started for an id and goes on handing it out as
long as it runs. What it remembers may be stale: an instance that fell silent or failed is
forgotten only when another is wanted. All the same, the ids that a store gives as alive are
exactly those whose latest instance was heard of within the idle time and has not ended
since (`live_set_exact`), where both are told from what was done and answered (`silence`)
and not from the instances. No id ever has two instances running. -/
namespace CartLedger.Entity
open CartLedger.Storage (Backend Memory Files memory files)
open CartLedger.Time (Timestamp)
open Instance (Message Answer)

variable {σ : Type} (B : Backend σ)

/-! ### What turns are to instances -/

namespace World

/-- The instance that a store has for an id. -/
def has (w : World σ) (s : Nat) (id : String) : Option Nat := (w.stores[s]?).bind (·.instance? id)

/-- An instance is started aside from the stores, and kept. -/
def startAside (w : World σ) (s : Nat) (id name : String) : Option Nat × World σ :=
  match w.stores[s]? with
  | none => (none, w)
  | some st =>
    let (journal, storage) := B.openJournal w.storage
    let (i, w) := { w with storage := storage }.start B id journal st.settings
    (some i, w.keep name i)

end World

namespace Turn

def messages : Turn σ → List Message
  | .step taken => taken.messages
  | _ => []

def slept : Turn σ → Nat
  | .step (.sleep ms) => ms
  | _ => 0

/-- Whether all instances of a store are asked to stop, this one among them. -/
def dismisses (w : World σ) (i : Nat) : Turn σ → Bool
  | .step (.passivateAll s) => (w.stores[s]?).any fun st => st.started.any fun e => e.2 = i
  | _ => false

/-- The instance that a turn is addressed to, and the world in which it gets its messages. -/
def prepare (w : World σ) : Turn σ → Option Nat × World σ
  | .obtain s id name => (none, (w.handOut B s id name).2)
  | .meddle change => (none, { w with storage := change w.storage })
  | .step (.ask s id _ _) => w.handOut B s id none
  | .step (.observe s id name) => w.handOut B s id name
  | .step (.spawn s id name) => w.startAside B s id name
  | .step (.send name _) => (w.named? name, w)
  | .step taken => (none, (w.act B taken).2)

/-- The store has started the instance for the id. -/
def Started (w : World σ) (s : Nat) (id : String) (turns : List (Turn σ)) (i : Nat) : Prop :=
  ∃ before rest, turns = before ++ rest ∧ (after B w before).has s id = some i

/-- No other instance was started for the id since. -/
def Latest (w : World σ) (s : Nat) (id : String) (turns : List (Turn σ)) (i : Nat) : Prop :=
  Started B w s id turns i ∧ ∀ j, Started B w s id turns j → j ≤ i

/-- For how long the instance `i` of the id has been silent after a turn, nothing if it has
ended. A start counts as a sign of life, unless the instance does not recover. -/
def silenceAfter (w : World σ) (s : Nat) (id : String) (i : Nat) (turn : Turn σ) (before : Option Nat) : Option Nat :=
  let before :=
    if w.has s id ≠ some i ∧ (turn.act B w).2.has s id = some i then
      if (Instance.recover B (.ofCart id) w.storage).isSome then some 0 else none
    else if turn.dismisses w i then none
    else before.map (· + turn.slept)
  if (turn.prepare B w).1 = some i then heed turn.messages (turn.act B w).1 before else before

def silence (w : World σ) (s : Nat) (id : String) (i : Nat) (before : Option Nat) : List (Turn σ) → Option Nat
  | [] => before
  | turn :: rest => silence (turn.act B w).2 s id i (silenceAfter B w s id i turn before) rest

theorem silence_concat (w : World σ) (s : Nat) (id : String) (i : Nat) (before : Option Nat) (turns : List (Turn σ))
    (turn : Turn σ) : silence B w s id i before (turns ++ [turn]) =
      silenceAfter B (after B w turns) s id i turn (silence B w s id i before turns) := by
  induction turns generalizing w before with
  | nil => rfl
  | cons first rest ih => exact ih _ _

end Turn

variable {B} {w w' : World σ}

/-! ### Messages are delivered -/

/-- What becomes of an instance: it is the same at another time, has not come to life again, and
if it was `silence` silent before, it is as `after` says. -/
structure Becomes (now now' : Nat) (after : Option Nat → Option Nat) (inst inst' : Instance) : Prop where
  same : Same inst inst'
  running : inst'.running = true → inst.running = true
  timed : ∀ {silence}, Timed now inst silence → Timed now' inst' (after silence)

/-- Messages are delivered to one instance, or to none, and no other is any the wiser. -/
structure Delivers (B : Backend σ) (w : World σ) (addressee : Option Nat) (messages : List Message)
    (out : List Answer × World σ) : Prop where
  stores : out.2.stores = w.stores
  elapsed : out.2.elapsed = w.elapsed
  instances : ∀ {j inst}, w.instances[j]? = some inst → 0 < inst.settings.idle →
    ∃ inst', out.2.instances[j]? = some inst' ∧ Becomes w.elapsed w.elapsed
      (fun silence => if addressee = some j then heed messages out.1 silence else silence) inst inst'

theorem running_of_receive {inst : Instance} {s : σ} {env : Instance.Surroundings} {now : Nat} {messages : List Message}
    (h : (Instance.receive B env now inst messages s).2.1.running = true) : inst.running = true := by
  by_cases hheard : inst.running = true ∧ messages ≠ []
  · exact hheard.1
  · rw [receive_unheard messages hheard] at h
    exact h

theorem isRunning_eq {i : Nat} {inst : Instance} (h : w.instances[i]? = some inst) :
    w.isRunning i = inst.running := by
  rw [World.isRunning, h]

theorem delivers_nothing (w : World σ) (messages : List Message) (answers : List Answer) :
    Delivers B w none messages (answers, w) :=
  ⟨rfl, rfl, fun {_ inst} hinst _ => ⟨inst, hinst, .refl inst, fun h => h, fun h => h⟩⟩

theorem delivers_nobody {i : Nat} (hnone : w.instances[i]? = none) (messages : List Message)
    (answers : List Answer) : Delivers B w (some i) messages (answers, w) := by
  refine ⟨rfl, rfl, fun {j inst} hinst _ => ⟨inst, hinst, .refl inst, fun h => h, fun h => ?_⟩⟩
  rw [if_neg]
  · exact h
  · rintro ⟨⟩
    rw [hnone] at hinst
    cases hinst

theorem delivers_send (w : World σ) (i : Nat) (messages : List Message) :
    Delivers B w (some i) messages (w.send B i messages) := by
  unfold World.send
  split
  · next hnone => exact delivers_nobody hnone messages _
  · next inst hi =>
    refine ⟨rfl, rfl, fun {j inst'} hinst' hidle => ?_⟩
    by_cases hj : j = i
    · subst hj
      obtain rfl := Option.some.inj (hi.symm.trans hinst')
      refine ⟨_, List.getElem?_set_self (List.getElem?_eq_some_iff.1 hi).1, same_receive _ _ messages,
        running_of_receive, fun h => ?_⟩
      rw [if_pos rfl]
      exact h.receive hidle messages _
    · refine ⟨inst', (List.getElem?_set_ne (Ne.symm hj)).trans hinst', .refl inst', fun h => h, fun h => ?_⟩
      rw [if_neg fun he => hj (Option.some.inj he).symm]
      exact h

/-- Messages that are delivered in two parts. -/
theorem Delivers.append {i : Nat} {messages messages' : List Message} {out out' : List Answer × World σ}
    (h : Delivers B w (some i) messages out) (h' : Delivers B out.2 (some i) messages' out')
    (hstopped : ∀ {inst}, out.2.instances[i]? = some inst → inst.running = false →
      out'.1.any Answer.isGiven = false) :
    Delivers B w (some i) (messages ++ messages') (out.1 ++ out'.1, out'.2) := by
  refine ⟨h'.stores.trans h.stores, h'.elapsed.trans h.elapsed, fun {j inst} hinst hidle => ?_⟩
  obtain ⟨inst₁, hinst₁, hbecomes₁⟩ := h.instances hinst hidle
  obtain ⟨inst₂, hinst₂, hbecomes₂⟩ := h'.instances hinst₁ (by rw [hbecomes₁.same.settings]; exact hidle)
  rw [h.elapsed] at hbecomes₂
  refine ⟨inst₂, hinst₂, hbecomes₁.same.trans hbecomes₂.same, fun hrunning =>
    hbecomes₁.running (hbecomes₂.running hrunning), fun {silence} htimed => ?_⟩
  have htimed₁ := hbecomes₁.timed htimed
  have htimed₂ := hbecomes₂.timed htimed₁
  split
  · next he =>
    simp only [if_pos he] at htimed₁ htimed₂
    obtain rfl := Option.some.inj he
    rw [heed_append fun hends => ?_]
    · exact htimed₂
    · refine hstopped hinst₁ (Bool.eq_false_iff.2 fun hrunning => ?_)
      obtain ⟨t, ht, -⟩ := htimed₁.running hrunning
      rw [hends] at ht
      cases ht
  · next hne =>
    simp only [if_neg hne] at htimed₁ htimed₂
    exact htimed₂

theorem InTurns.delivers {i : Nat} {messages : List Message} {answers : List Answer}
    (h : InTurns B i w messages answers w') : Delivers B w (some i) messages (answers, w') := by
  induction h with
  | nil => exact ⟨rfl, rfl, fun {j inst} hinst _ => ⟨inst, hinst, .refl inst, fun h => h, fun h => by split <;> exact h⟩⟩
  | @cons w w' filling rest answers hrest ih =>
    refine (delivers_send w i filling).append ih fun {inst} hi hstopped => ?_
    rw [hrest.refused hi hstopped]
    exact not_given_refused rest

theorem delivers_sendAll (w : World σ) (i : Nat) (messages : List Message) :
    Delivers B w (some i) messages (w.sendAll B i messages) := by
  cases hi : w.instances[i]? with
  | none =>
    simp only [World.sendAll, hi]
    exact delivers_nobody hi messages _
  | some inst => exact (World.inTurns_sendAll hi messages).delivers

theorem delivers_sendFirst (w : World σ) (i : Nat) (messages : List Message) :
    Delivers B w (some i) messages (w.sendFirst B i messages) := by
  unfold World.sendFirst
  split
  · exact delivers_send w i messages
  · next hstopped =>
    refine ⟨rfl, rfl, fun {j inst} hinst _ => ⟨inst, hinst, .refl inst, fun h => h, fun h => ?_⟩⟩
    split
    · next he =>
      rw [Option.some.inj he, isRunning_eq hinst, Bool.not_eq_true] at hstopped
      exact h.abandoned hstopped messages
    · exact h

theorem delivers_sendThrough (w : World σ) (s : Nat) (id : String) (name : Option String) (message : Message) :
    Delivers B (w.handOut B s id name).2 (w.handOut B s id name).1 [message]
      (w.sendThrough B s id name message) := by
  unfold World.sendThrough World.handOut
  cases w.stores[s]? with
  | none => exact delivers_nothing w _ _
  | some st =>
    dsimp only
    by_cases hid : id = ""
    · rw [if_pos hid, if_pos hid]
      exact delivers_nothing w _ _
    · rw [if_neg hid, if_neg hid]
      cases name <;> exact delivers_sendFirst _ _ _

/-- **A turn is a preparation, and then messages are delivered.** -/
theorem delivers_act (w : World σ) (turn : Turn σ) :
    Delivers B (turn.prepare B w).2 (turn.prepare B w).1 turn.messages (turn.act B w) := by
  cases turn with
  | obtain s id name => exact delivers_nothing _ _ _
  | meddle change => exact delivers_nothing _ _ _
  | step step =>
    cases step with
    | ask s id command context => exact delivers_sendThrough w s id none _
    | observe s id name => exact delivers_sendThrough w s id name _
    | spawn s id name =>
      simp only [Turn.prepare, Turn.act, World.act, World.startAside]
      cases w.stores[s]? with
      | none => exact delivers_nothing w _ _
      | some st => exact delivers_sendFirst _ _ _
    | send name messages =>
      simp only [Turn.prepare, Turn.act, World.act]
      cases w.named? name with
      | none => exact delivers_nothing w _ _
      | some i => exact delivers_sendAll _ _ _
    | _ => exact delivers_nothing _ _ _

/-! ### Turns are prepared -/

/-- What becomes of instances before messages are delivered: none of them goes away, but some
are asked to stop, and time may pass. -/
structure Prepares (w w' : World σ) (slept : Nat) (dismissed : Nat → Bool) : Prop where
  elapsed : w'.elapsed = w.elapsed + slept
  instances : ∀ {j inst}, w.instances[j]? = some inst → ∃ inst', w'.instances[j]? = some inst' ∧
    Becomes w.elapsed w'.elapsed (fun silence => if dismissed j then none else silence.map (· + slept)) inst inst'

theorem Prepares.of_longer (helapsed : w'.elapsed = w.elapsed) (h : w.instances <+: w'.instances) :
    Prepares w w' 0 fun _ => false := by
  refine ⟨helapsed, fun {j inst} hinst => ⟨inst, ?_, .refl inst, fun h => h, fun {silence} hsilence => ?_⟩⟩
  · obtain ⟨more, hmore⟩ := h
    rw [← hmore, List.getElem?_append_left (List.getElem?_eq_some_iff.1 hinst).1]
    exact hinst
  · rw [helapsed, if_neg Bool.false_ne_true]
    simpa using hsilence

theorem Prepares.of_eq (helapsed : w'.elapsed = w.elapsed) (h : w'.instances = w.instances) :
    Prepares w w' 0 fun _ => false := .of_longer helapsed (h ▸ List.prefix_refl _)

theorem prepares_handOut (w : World σ) (s : Nat) (id : String) (name : Option String) :
    Prepares w (w.handOut B s id name).2 0 fun _ => false := by
  unfold World.handOut
  split
  · exact .of_eq rfl rfl
  · split
    · exact .of_eq rfl rfl
    · unfold World.obtain
      split
      · cases name <;> exact .of_eq rfl rfl
      · cases name <;> exact .of_longer rfl (List.prefix_append _ _)

theorem getElem?_stop (w : World σ) (i j : Nat) : (w.stop i).instances[j]? =
    (w.instances[j]?).map fun inst => if i = j then { inst with running := false } else inst := by
  unfold World.stop
  split
  · next hnone =>
    by_cases hj : i = j
    · rw [← hj, hnone]
      rfl
    · simp only [if_neg hj, Option.map_id']
  · next inst hi =>
    by_cases hj : i = j
    · rw [← hj, List.getElem?_set_self (List.getElem?_eq_some_iff.1 hi).1, hi, Option.map_some, if_pos rfl]
    · rw [List.getElem?_set_ne hj]
      simp only [if_neg hj, Option.map_id']

theorem getElem?_stopAll (w : World σ) (started : List (String × Nat)) (j : Nat) :
    (started.foldl (fun w e => w.stop e.2) w).instances[j]? = (w.instances[j]?).map fun inst =>
      if started.any (fun e => e.2 = j) then { inst with running := false } else inst := by
  induction started generalizing w with
  | nil => exact Option.map_id'.symm
  | cons e rest ih =>
    rw [List.foldl_cons, ih, getElem?_stop, Option.map_map]
    congr 1
    funext inst
    by_cases he : e.2 = j <;> by_cases hrest : rest.any (fun e => e.2 = j) <;> simp [he, hrest]

theorem prepares (w : World σ) (turn : Turn σ) :
    Prepares w (turn.prepare B w).2 turn.slept fun i => turn.dismisses w i := by
  cases turn with
  | obtain s id name => exact prepares_handOut w s id name
  | meddle change => exact .of_eq rfl rfl
  | step step =>
    cases step with
    | ask s id command context => exact prepares_handOut w s id none
    | observe s id name => exact prepares_handOut w s id name
    | spawn s id name =>
      simp only [Turn.prepare, World.startAside]
      split
      · exact .of_eq rfl rfl
      · exact .of_longer rfl (List.prefix_append _ _)
    | passivateAll s =>
      simp only [Turn.prepare, World.act, World.withStore, Turn.dismisses]
      cases hst : w.stores[s]? with
      | none => exact .of_eq rfl rfl
      | some st =>
        obtain ⟨instances, hstop⟩ := w.stopAll_eq st.started
        refine ⟨?_, fun {j inst} hinst => ?_⟩
        · simp only [World.passivateAll, hstop]
          rfl
        · refine ⟨if st.started.any (fun e => e.2 = j) then { inst with running := false } else inst, ?_, ?_⟩
          · simp only [World.passivateAll]
            rw [getElem?_stopAll, hinst]
            rfl
          · have helapsed : (w.passivateAll s st).elapsed = w.elapsed := by simp only [World.passivateAll, hstop]
            rw [helapsed, Option.any_some]
            split
            · exact ⟨⟨rfl, rfl⟩, fun h => absurd h Bool.false_ne_true, fun _ => .ended rfl⟩
            · exact ⟨.refl inst, fun h => h, fun h => by simpa [Turn.slept] using h⟩
    | sleep ms =>
      refine ⟨rfl, fun {j inst} hinst => ⟨inst.expire (w.elapsed + ms), ?_, ?_, ?_, fun h => h.expire ms⟩⟩
      · show (w.instances.map (Instance.expire (w.elapsed + ms)))[j]? = _
        rw [List.getElem?_map, hinst]
        rfl
      · unfold Instance.expire
        split <;> exact ⟨rfl, rfl⟩
      · unfold Instance.expire
        split
        · exact fun h => absurd h Bool.false_ne_true
        · exact fun h => h
    | restart s =>
      simp only [Turn.prepare, World.act, World.withStore]
      split <;> exact .of_eq rfl rfl
    | _ => exact .of_eq rfl rfl

/-! ### What a store has -/

theorem instance?_enter (st : Store) (id id' : String) (i : Nat) :
    (st.enter id i).instance? id' = if id = id' then some i else st.instance? id' := Entries.find?_set ..

/-- What becomes of a store before messages are delivered. -/
inductive Restocked (B : Backend σ) (w w' : World σ) (st : Store) : Store → Prop
  | same : Restocked B w w' st st
  /-- An instance is started for an id of which there was none, or none that ran. -/
  | entered {id : String} (hstopped : ∀ {i}, st.instance? id = some i → w.isRunning i = false)
      (hnew : w'.instances[w.instances.length]? =
        some (Instance.start B id st.journal st.settings w.elapsed w.storage))
      (helapsed : w'.elapsed = w.elapsed) : Restocked B w w' st (st.enter id w.instances.length)
  | emptied (hstopped : ∀ {id i}, st.instance? id = some i → w'.isRunning i = false) :
      Restocked B w w' st (.fresh st.settings st.journal)

theorem restocked_handOut {s : Nat} {st : Store} (hst : w.stores[s]? = some st) (s' : Nat) (id : String)
    (name : Option String) : ∃ st', (w.handOut B s' id name).2.stores[s]? = some st' ∧
      Restocked B w (w.handOut B s' id name).2 st st' := by
  unfold World.handOut
  cases hst₁ : w.stores[s']? with
  | none => exact ⟨st, hst, .same⟩
  | some st₁ =>
    dsimp only
    by_cases hid : id = ""
    · rw [if_pos hid]
      exact ⟨st, hst, .same⟩
    · rw [if_neg hid]
      unfold World.obtain
      cases hrunning : (st₁.instance? id).filter w.isRunning with
      | some i => cases name <;> exact ⟨st, hst, .same⟩
      | none =>
        by_cases hs : s' = s
        · subst hs
          obtain rfl := Option.some.inj (hst₁.symm.trans hst)
          have hentered : (w.stores.set s' (st₁.enter id w.instances.length))[s']? =
              some (st₁.enter id w.instances.length) :=
            List.getElem?_set_self (List.getElem?_eq_some_iff.1 hst).1
          have hstopped : ∀ {i}, st₁.instance? id = some i → w.isRunning i = false := by
            intro i hi
            rw [hi, Option.filter_some] at hrunning
            simpa using hrunning
          have hnew : (w.instances ++ [Instance.start B id st₁.journal st₁.settings w.elapsed w.storage])[
              w.instances.length]? = some (Instance.start B id st₁.journal st₁.settings w.elapsed w.storage) :=
            List.getElem?_concat_length
          cases name <;> exact ⟨_, hentered, .entered hstopped hnew rfl⟩
        · have hother : (w.stores.set s' (st₁.enter id w.instances.length))[s]? = some st :=
            (List.getElem?_set_ne hs).trans hst
          cases name <;> exact ⟨st, hother, .same⟩

theorem restocked {s : Nat} {st : Store} (hst : w.stores[s]? = some st) {turn : Turn σ}
    (hturn : turn ≠ .step (.restart s)) : ∃ st', (turn.prepare B w).2.stores[s]? = some st' ∧
      Restocked B w (turn.prepare B w).2 st st' := by
  cases turn with
  | obtain s' id name => exact restocked_handOut hst s' id name
  | meddle change => exact ⟨st, hst, .same⟩
  | step step =>
    cases step with
    | ask s' id command context => exact restocked_handOut hst s' id none
    | observe s' id name => exact restocked_handOut hst s' id name
    | spawn s' id name =>
      simp only [Turn.prepare, World.startAside]
      split <;> exact ⟨st, hst, .same⟩
    | passivateAll s' =>
      simp only [Turn.prepare, World.act, World.withStore]
      cases hst₁ : w.stores[s']? with
      | none => exact ⟨st, hst, .same⟩
      | some st₁ =>
        obtain ⟨instances, hstop⟩ := w.stopAll_eq st₁.started
        have hstores : (w.passivateAll s' st₁).stores = w.stores.set s' (.fresh st₁.settings st₁.journal) := by
          simp only [World.passivateAll, hstop]
        dsimp only
        rw [hstores]
        by_cases hs : s' = s
        · subst hs
          obtain rfl := Option.some.inj (hst₁.symm.trans hst)
          refine ⟨_, List.getElem?_set_self (List.getElem?_eq_some_iff.1 hst).1, .emptied fun {id i} hi => ?_⟩
          have hmem : st₁.started.any (fun e => e.2 = i) = true := by
            obtain ⟨e, he, hei⟩ := Option.map_eq_some_iff.1 hi
            exact List.any_eq_true.2 ⟨e, List.mem_of_find?_eq_some he, decide_eq_true hei⟩
          rw [World.isRunning, World.passivateAll]
          dsimp only
          rw [getElem?_stopAll, hmem]
          cases w.instances[i]? <;> rfl
        · exact ⟨st, (List.getElem?_set_ne hs).trans hst, .same⟩
    | restart s' =>
      simp only [Turn.prepare, World.act, World.withStore]
      cases w.stores[s']? with
      | none => exact ⟨st, hst, .same⟩
      | some st₁ =>
        have hs : s' ≠ s := fun he => hturn (he ▸ rfl)
        exact ⟨st, (List.getElem?_set_ne hs).trans hst, .same⟩
    | _ => exact ⟨st, hst, .same⟩

namespace Restocked
variable {st st' : Store} {id : String} {i : Nat}

theorem settings (h : Restocked B w w' st st') : st'.settings = st.settings := by
  cases h <;> rfl

theorem distinct (h : Restocked B w w' st st') (hdistinct : (st.started.map (·.1)).Nodup) :
    (st'.started.map (·.1)).Nodup := by
  cases h with
  | same => exact hdistinct
  | entered => exact Entries.nodup_set hdistinct _ _
  | emptied => exact List.nodup_nil

/-- What a store has, it had before, or it is a new instance that replaces none that runs. -/
theorem origin (h : Restocked B w w' st st') (hi : st'.instance? id = some i) :
    st.instance? id = some i ∨ (i = w.instances.length ∧ w'.elapsed = w.elapsed ∧
      w'.instances[i]? = some (Instance.start B id st.journal st.settings w.elapsed w.storage)) := by
  cases h with
  | same => exact .inl hi
  | @entered id' hstopped hnew helapsed =>
    rw [instance?_enter] at hi
    split at hi
    · next hid =>
      obtain rfl := Option.some.inj hi
      exact .inr ⟨rfl, helapsed, hid ▸ hnew⟩
    · exact .inl hi
  | emptied => cases hi

/-- What a store had, it has still, unless it has stopped. -/
theorem fate (h : Restocked B w w' st st') (hi : st.instance? id = some i) :
    st'.instance? id = some i ∨ (∃ j, st'.instance? id = some j ∧ w.isRunning i = false) ∨
      (st'.instance? id = none ∧ w'.isRunning i = false) := by
  cases h with
  | same => exact .inl hi
  | @entered id' hstopped hnew helapsed =>
    rw [instance?_enter]
    split
    · next hid => exact .inr (.inl ⟨_, rfl, hstopped (hid ▸ hi)⟩)
    · exact .inl hi
  | emptied hstopped => exact .inr (.inr ⟨rfl, hstopped hi⟩)

end Restocked

/-! ### Runs -/

namespace Turn
variable {s : Nat} {settings : Settings} {turns : List (Turn σ)}

/-- How the instances of a store stand after turns. -/
structure Tracked (B : Backend σ) (w : World σ) (s : Nat) (settings : Settings) (turns : List (Turn σ)) : Prop where
  store : ∃ st, (after B w turns).stores[s]? = some st ∧ st.settings = settings ∧ (st.started.map (·.1)).Nodup
  started : ∀ {id i}, Started B w s id turns i → ∃ inst, (after B w turns).instances[i]? = some inst ∧
    inst.id = id ∧ inst.settings = settings ∧ Timed (after B w turns).elapsed inst (silence B w s id i none turns)
  /-- What still runs is what the store hands out. -/
  handed : ∀ {id i}, Started B w s id turns i → (after B w turns).isRunning i = true →
    (after B w turns).has s id = some i
  latest : ∀ {id i j}, Started B w s id turns i → (after B w turns).has s id = some j → i ≤ j

theorem has_eq {w : World σ} {st : Store} (hst : w.stores[s]? = some st) (id : String) :
    w.has s id = st.instance? id := by
  rw [World.has, hst]
  rfl

theorem started_concat {id : String} {turn : Turn σ} {i : Nat} :
    Started B w s id (turns ++ [turn]) i ↔
      Started B w s id turns i ∨ (after B w (turns ++ [turn])).has s id = some i := by
  constructor
  · rintro ⟨before, rest, he, hi⟩
    cases rest using List.reverseRecOn with
    | nil =>
      rw [List.append_nil] at he
      exact .inr (he ▸ hi)
    | append_singleton rest last =>
      rw [← List.append_assoc] at he
      exact .inl ⟨before, rest, (List.append_inj' he rfl).1, hi⟩
  · rintro (⟨before, rest, rfl, hi⟩ | hi)
    · exact ⟨before, rest ++ [turn], by simp, hi⟩
    · exact ⟨turns ++ [turn], [], by simp, hi⟩

/-- What the store has, it has started. -/
theorem started_of_has {id : String} {i : Nat} (h : (after B w turns).has s id = some i) :
    Started B w s id turns i := ⟨turns, [], (List.append_nil _).symm, h⟩

theorem tracked_nil {st : Store} (hfresh : w.Fresh) (hst : w.stores[s]? = some st) :
    Tracked B w s st.settings [] := by
  have hnone : ∀ {id i}, ¬ Started B w s id [] i := by
    rintro id i ⟨before, rest, he, hi⟩
    obtain ⟨rfl, -⟩ := List.append_eq_nil_iff.1 he.symm
    rw [after, has_eq hst, Store.instance?, hfresh.stores st (List.mem_of_getElem? hst)] at hi
    cases hi
  refine ⟨⟨st, hst, rfl, ?_⟩, fun h => absurd h hnone, fun h => absurd h hnone, fun h => absurd h hnone⟩
  rw [hfresh.stores st (List.mem_of_getElem? hst)]
  exact List.nodup_nil

/-- An instance that was there before a turn is there after it, and has been silent for as long
as the turn tells. -/
theorem Tracked.old (h : Tracked B w s settings turns) (hidle : 0 < settings.idle) {turn : Turn σ}
    (hturn : turn ≠ .step (.restart s)) {id : String} {i : Nat} (hi : Started B w s id turns i) :
    ∃ inst', (turn.act B (after B w turns)).2.instances[i]? = some inst' ∧ inst'.id = id ∧
      inst'.settings = settings ∧ Timed (turn.act B (after B w turns)).2.elapsed inst'
        (silenceAfter B (after B w turns) s id i turn (silence B w s id i none turns)) ∧
      ((turn.act B (after B w turns)).2.isRunning i = true →
        (turn.prepare B (after B w turns)).2.isRunning i = true ∧ (after B w turns).isRunning i = true) := by
  obtain ⟨inst, hinst, hid, hsettings, htimed⟩ := h.started hi
  obtain ⟨st, hst, -, -⟩ := h.store
  obtain ⟨st', hst', hrestocked⟩ := restocked (B := B) hst hturn
  have hprepares := prepares (B := B) (after B w turns) turn
  have hdelivers := delivers_act (B := B) (after B w turns) turn
  obtain ⟨inst₁, hinst₁, hbecomes₁⟩ := hprepares.instances hinst
  have hidle₁ : 0 < inst₁.settings.idle := by rw [hbecomes₁.same.settings, hsettings]; exact hidle
  obtain ⟨inst', hinst', hbecomes⟩ := hdelivers.instances hinst₁ hidle₁
  have hsame := hbecomes₁.same.trans hbecomes.same
  -- The store had it before if it has it now.
  have hback : ¬ ((after B w turns).has s id ≠ some i ∧ (turn.act B (after B w turns)).2.has s id = some i) := by
    rintro ⟨hnot, hnow⟩
    rw [has_eq (hdelivers.stores ▸ hst')] at hnow
    rw [has_eq hst] at hnot
    obtain hhad | ⟨hnew, -⟩ := hrestocked.origin hnow
    · exact hnot hhad
    · exact absurd (List.getElem?_eq_some_iff.1 hinst).1 (by omega)
  refine ⟨inst', hinst', hsame.id.trans hid, hsame.settings.trans hsettings, ?_, fun hrunning => ?_⟩
  · rw [silenceAfter, if_neg hback, hdelivers.elapsed]
    exact hbecomes.timed (hbecomes₁.timed htimed)
  · rw [isRunning_eq hinst'] at hrunning
    rw [isRunning_eq hinst, isRunning_eq hinst₁]
    exact ⟨hbecomes.running hrunning, hbecomes₁.running (hbecomes.running hrunning)⟩

/-- An instance that a store starts in a turn. -/
theorem Tracked.new (h : Tracked B w s settings turns) (hidle : 0 < settings.idle) {turn : Turn σ}
    (hturn : turn ≠ .step (.restart s)) {id : String} {i : Nat}
    (hnot : (after B w turns).has s id ≠ some i) (hi : (turn.act B (after B w turns)).2.has s id = some i) :
    ∃ inst', (turn.act B (after B w turns)).2.instances[i]? = some inst' ∧ inst'.id = id ∧
      inst'.settings = settings ∧ Timed (turn.act B (after B w turns)).2.elapsed inst'
        (silenceAfter B (after B w turns) s id i turn (silence B w s id i none turns)) := by
  obtain ⟨st, hst, hsettings, -⟩ := h.store
  obtain ⟨st', hst', hrestocked⟩ := restocked (B := B) hst hturn
  have hdelivers := delivers_act (B := B) (after B w turns) turn
  have hnow := hi
  rw [has_eq (hdelivers.stores ▸ hst')] at hnow
  obtain hhad | ⟨-, helapsed, hnew⟩ := hrestocked.origin hnow
  · exact absurd ((has_eq hst id).trans hhad) hnot
  · have hstart := settings_start (B := B) (s := (after B w turns).storage) id st.journal st.settings
      (after B w turns).elapsed
    have hidle' : 0 < st.settings.idle := hsettings ▸ hidle
    obtain ⟨inst', hinst', hbecomes⟩ := hdelivers.instances hnew (by rw [hstart]; exact hidle')
    have hfirst : (after B w turns).has s id ≠ some i ∧ (turn.act B (after B w turns)).2.has s id = some i :=
      ⟨hnot, hi⟩
    refine ⟨inst', hinst', hbecomes.same.id.trans (id_start ..), ?_, ?_⟩
    · rw [hbecomes.same.settings, hstart, hsettings]
    · rw [silenceAfter, if_pos hfirst, hdelivers.elapsed]
      refine hbecomes.timed ?_
      rw [helapsed]
      exact .start hidle'

/-- **One turn** keeps track of the instances of a store. -/
theorem Tracked.concat (h : Tracked B w s settings turns) (hidle : 0 < settings.idle) {turn : Turn σ}
    (hturn : turn ≠ .step (.restart s)) : Tracked B w s settings (turns ++ [turn]) := by
  obtain ⟨st, hst, hsettings, hdistinct⟩ := h.store
  obtain ⟨st', hst', hrestocked⟩ := restocked (B := B) hst hturn
  have hdelivers := delivers_act (B := B) (after B w turns) turn
  have hprepares := prepares (B := B) (after B w turns) turn
  have hafter : (turn.act B (after B w turns)).2.stores[s]? = some st' := hdelivers.stores ▸ hst'
  have hlength : ∀ {id i}, Started B w s id turns i → i < (after B w turns).instances.length := by
    intro id i hi
    obtain ⟨inst, hinst, -⟩ := h.started hi
    exact (List.getElem?_eq_some_iff.1 hinst).1
  refine ⟨?_, ?_, ?_, ?_⟩
  all_goals rw [after_concat]
  · exact ⟨st', hafter, hrestocked.settings.trans hsettings, hrestocked.distinct hdistinct⟩
  · intro id i hi
    rw [silence_concat]
    by_cases hold : Started B w s id turns i
    · obtain ⟨inst', hinst', hid, hsettings', htimed, -⟩ := h.old hidle hturn hold
      exact ⟨inst', hinst', hid, hsettings', htimed⟩
    · have hnow := (started_concat.1 hi).resolve_left hold
      rw [after_concat] at hnow
      exact h.new hidle hturn (fun hhad => hold (started_of_has hhad)) hnow
  · intro id i hi hrunning
    obtain hold | hnow := started_concat.1 hi
    · obtain ⟨-, -, -, -, -, hran⟩ := h.old hidle hturn hold
      obtain ⟨hran₁, hran⟩ := hran hrunning
      have hhad := h.handed hold hran
      rw [has_eq hst] at hhad
      rw [has_eq hafter]
      obtain hhas | ⟨j, -, hstopped⟩ | ⟨-, hstopped⟩ := hrestocked.fate hhad
      · exact hhas
      · rw [hran] at hstopped
        cases hstopped
      · rw [hran₁] at hstopped
        cases hstopped
    · rwa [after_concat] at hnow
  · intro id i j hi hj
    obtain hold | hnow := started_concat.1 hi
    · rw [has_eq hafter] at hj
      obtain hhad | ⟨rfl, -⟩ := hrestocked.origin hj
      · exact h.latest hold ((has_eq hst id).trans hhad)
      · exact Nat.le_of_lt (hlength hold)
    · rw [after_concat] at hnow
      exact Nat.le_of_eq (Option.some.inj (hnow.symm.trans hj))

/-- Whatever happens, short of the store being replaced, keeps track of its instances. -/
theorem tracked {st : Store} (hfresh : w.Fresh) (hst : w.stores[s]? = some st) (hidle : 0 < st.settings.idle)
    (turns : List (Turn σ)) (hturns : ∀ turn ∈ turns, turn ≠ .step (.restart s)) :
    Tracked B w s st.settings turns := by
  induction turns using List.reverseRecOn with
  | nil => exact tracked_nil hfresh hst
  | append_singleton turns turn ih =>
    have hbefore := ih fun other hother => hturns other (List.mem_append_left _ hother)
    exact hbefore.concat hidle (hturns turn (List.mem_append_right _ (List.mem_singleton_self turn)))

/-- What a store says of its instances is exact. -/
structure Exact (B : Backend σ) (w : World σ) (s : Nat) (settings : Settings) (turns : List (Turn σ)) : Prop where
  /-- The instances that were started for an id are instances of that cart, as the store is set. -/
  own : ∀ {id i}, Started B w s id turns i → ∃ inst, (after B w turns).instances[i]? = some inst ∧
    inst.id = id ∧ inst.settings = settings
  single : ∀ {id i j}, Started B w s id turns i → Started B w s id turns j →
    (after B w turns).isRunning i = true → (after B w turns).isRunning j = true → i = j
  /-- Alive are the ids whose latest instance has not been silent for too long and has not ended. -/
  live : ∃ st, (after B w turns).stores[s]? = some st ∧ ((after B w turns).live st).Pairwise (· < ·) ∧
    ∀ id, id ∈ (after B w turns).live st ↔
      ∃ i, Latest B w s id turns i ∧ ∃ t, silence B w s id i none turns = some t ∧ t < settings.idle
  /-- Whatever is done next, the store goes on having the instance that it has; unless that has
  stopped and another was started, or it was made to stop and is forgotten. -/
  replaced : ∀ {id i} {turn : Turn σ}, turn ≠ .step (.restart s) → (after B w turns).has s id = some i →
    (turn.act B (after B w turns)).2.has s id = some i ∨
      (∃ j, (turn.act B (after B w turns)).2.has s id = some j ∧ (after B w turns).isRunning i = false) ∨
      ((turn.act B (after B w turns)).2.has s id = none ∧ (turn.act B (after B w turns)).2.isRunning i = false)

theorem mem_live {st : Store} (hdistinct : (st.started.map (·.1)).Nodup) {id : String} :
    id ∈ w.live st ↔ ∃ i, st.instance? id = some i ∧ w.isRunning i = true := by
  rw [World.live, List.mem_mergeSort, List.mem_map]
  constructor
  · rintro ⟨⟨id', i⟩, hmem, rfl⟩
    obtain ⟨hmem, hrunning⟩ := List.mem_filter.1 hmem
    exact ⟨i, (Entries.find?_eq_some_iff_mem hdistinct).2 hmem, hrunning⟩
  · rintro ⟨i, hi, hrunning⟩
    exact ⟨(id, i), List.mem_filter.2 ⟨(Entries.find?_eq_some_iff_mem hdistinct).1 hi, hrunning⟩, rfl⟩

theorem Tracked.exact (h : Tracked B w s settings turns) (hidle : 0 < settings.idle) :
    Exact B w s settings turns := by
  obtain ⟨st, hst, -, hdistinct⟩ := h.store
  have hsingle : ∀ {id i j}, Started B w s id turns i → Started B w s id turns j →
      (after B w turns).isRunning i = true → (after B w turns).isRunning j = true → i = j :=
    fun hi hj hiruns hjruns => Option.some.inj ((h.handed hi hiruns).symm.trans (h.handed hj hjruns))
  refine ⟨fun hi => ?_, hsingle, ⟨st, hst, ?_, fun id => ?_⟩, fun {id i turn} hturn hi => ?_⟩
  · obtain ⟨inst, hinst, hid, hsettings, -⟩ := h.started hi
    exact ⟨inst, hinst, hid, hsettings⟩
  · exact Journal.Durable.ascending_mergeSort (hdistinct.sublist (List.filter_sublist.map _))
  · rw [mem_live hdistinct]
    have hruns : ∀ {i}, Started B w s id turns i → ((after B w turns).isRunning i = true ↔
        ∃ t, silence B w s id i none turns = some t ∧ t < settings.idle) := by
      intro i hi
      obtain ⟨inst, hinst, -, hsettings, htimed⟩ := h.started hi
      rw [isRunning_eq hinst, ← hsettings]
      exact htimed.running_iff
    constructor
    · rintro ⟨i, hi, hrunning⟩
      rw [← has_eq hst] at hi
      have hstarted := started_of_has hi
      exact ⟨i, ⟨hstarted, fun j hj => h.latest hj hi⟩, (hruns hstarted).1 hrunning⟩
    · rintro ⟨i, ⟨hstarted, -⟩, hsilence⟩
      have hrunning := (hruns hstarted).2 hsilence
      exact ⟨i, (has_eq hst id).symm.trans (h.handed hstarted hrunning), hrunning⟩
  · obtain ⟨st', hst', hrestocked⟩ := restocked (B := B) hst hturn
    have hdelivers := delivers_act (B := B) (after B w turns) turn
    rw [has_eq (hdelivers.stores ▸ hst')]
    obtain hhas | hreplaced | ⟨hnone, hstopped⟩ := hrestocked.fate ((has_eq hst id).symm.trans hi)
    · exact .inl hhas
    · exact .inr (.inl hreplaced)
    · refine .inr (.inr ⟨hnone, ?_⟩)
      obtain ⟨-, -, -, -, -, hran⟩ := h.old hidle hturn (started_of_has hi)
      rw [← Bool.not_eq_true]
      intro hrunning
      rw [(hran hrunning).1] at hstopped
      cases hstopped

end Turn

/-- **What a store gives as alive is alive, and nothing else is.** Over any storage, whatever
else is done to it, a store that lets its instances be silent for some time has no two of them
running for one id, gives as alive the ids whose latest instance handled a message or was
started within that time and has not ended since, each once and in order, and replaces no
instance that runs. -/
theorem live_set_exact (B : Backend σ) {w : World σ} {s : Nat} {st : Store} (hfresh : w.Fresh)
    (hst : w.stores[s]? = some st) (hidle : 0 < st.settings.idle) (turns : List (Turn σ))
    (hturns : ∀ turn ∈ turns, turn ≠ .step (.restart s)) : Turn.Exact B w s st.settings turns :=
  (Turn.tracked hfresh hst hidle turns hturns).exact hidle

/-- Of three instances one is asked to stop and another falls silent. -/
theorem one_of_three_live :
    let settings : Settings := ⟨300, ⟨100, 1⟩, Settings.cartShards 10, 32⟩
    let w : World Memory := .begin memory .empty Timestamp.epoch settings 0 1
    let turns : List (Turn Memory) := [.obtain 0 "c" none, .step (.observe 0 "a" none), .step (.observe 0 "b" (some "h")),
      .step (.sleep 200), .step (.ask 0 "a" .get .anonymous), .step (.send "h" [.passivate]), .step (.sleep 200)]
    w.Fresh ∧ w.stores[0]? = some (.fresh settings 0) ∧ 0 < settings.idle ∧
      (∀ turn ∈ turns, turn ≠ .step (.restart 0)) ∧ Turn.Exact memory w 0 settings turns ∧
      (Turn.after memory w turns).stores.map (Turn.after memory w turns).live = [["a"]] := by
  intro settings w turns
  have hfresh : w.Fresh := ⟨rfl, by decide, rfl⟩
  have hidle : 0 < settings.idle := by decide
  have hturns : ∀ turn ∈ turns, turn ≠ .step (.restart 0) := by simp [turns]
  exact ⟨hfresh, rfl, hidle, hturns, live_set_exact memory hfresh rfl hidle turns hturns, by decide +kernel⟩

end CartLedger.Entity
