import CartLedger.Proofs.Entity.Beginning
import Mathlib.Logic.Relation

/-! What steps are made of.

A step does several things one after another: a journal is opened, an instance started,
handed out and kept, and then it is sent a message. A `Move` is one of these things, and
every step is a sequence of moves (`World.act_moves`). What is asked of each move alone
therefore holds of steps and runs; `Consistent.along` is that induction, with worlds that
are known to be consistent on both sides of the move. -/
namespace CartLedger.Entity
open CartLedger.Storage (Backend View Correct)
open CartLedger.Time (Timestamp)
open Instance (Message)
open Relation (ReflTransGen)

variable {σ : Type} {B : Backend σ} {V : View σ} {w w' : World σ}

inductive Move (B : Backend σ) : World σ → World σ → Prop
  | setClock (w : World σ) (time : Timestamp) : Move B w { w with clock := time }
  | setKept (w : World σ) (kept : List (String × Nat)) : Move B w { w with kept := kept }
  | openJournal (w : World σ) : Move B w { w with storage := (B.openJournal w.storage).2 }
  | setFailing (w : World σ) (failing : Bool) : Move B w { w with storage := B.setFailing failing w.storage }
  /-- A store keeps its settings. What is new in it are instances of the carts that they are
  entered for. -/
  | setStore {w : World σ} {n st st'} (hst : w.stores[n]? = some st) (hsettings : st'.settings = st.settings)
      (hstarted : ∀ {id i}, st'.instance? id = some i → st.instance? id = some i ∨ w.ids[i]? = some id) :
      Move B w { w with stores := w.stores.set n st' }
  /-- Instances are started with the settings of a store. -/
  | start {w : World σ} {st} (hst : st ∈ w.stores) (id : String) (journal : Nat) :
      Move B w (w.start B id journal st.settings).2
  | send (w : World σ) (i : Nat) (messages : List Message) : Move B w (w.send B i messages).2
  | stop (w : World σ) (i : Nat) : Move B w (w.stop i)
  | sleep (w : World σ) (ms : Nat) : Move B w (w.sleep ms)

abbrev Moves (B : Backend σ) : World σ → World σ → Prop := ReflTransGen (Move B)

/-! ### Steps are moves -/

theorem InTurns.moves {i : Nat} {messages : List Message} {answers : List Instance.Answer}
    (h : InTurns B i w messages answers w') : Moves B w w' := by
  induction h with
  | nil => exact .refl
  | cons _ ih => exact .head (.send ..) ih

namespace World

theorem setStore_moves {n : Nat} {st : Store} (hst : w.stores[n]? = some st) (journal : Nat) :
    Moves B w { w with stores := w.stores.set n (.fresh st.settings journal) } := by
  refine .single (.setStore hst rfl fun hi => ?_)
  cases hi

theorem obtain_moves {n : Nat} {st : Store} (hst : w.stores[n]? = some st) (id : String) :
    Moves B w (w.obtain B n st id).2 := by
  rw [World.obtain]
  split
  · exact .refl
  · have hst' : (w.start B id st.journal st.settings).2.stores[n]? = some st := hst
    refine .head (.start (List.mem_of_getElem? hst) id st.journal) (.single (.setStore hst' rfl ?_))
    intro id' i hi
    rw [Store.instance?, Store.enter, Entries.find?_set] at hi
    split at hi
    · next he =>
      rw [← he, ← Option.some.inj hi]
      exact .inr (w.id_of_start id st.journal st.settings)
    · exact .inl hi

theorem sendFirst_moves (i : Nat) (messages : List Message) : Moves B w (w.sendFirst B i messages).2 := by
  rw [World.sendFirst]
  split
  · exact .single (.send w i messages)
  · exact .refl

theorem sendAll_moves (i : Nat) (messages : List Message) : Moves B w (w.sendAll B i messages).2 := by
  cases hi : w.instances[i]? with
  | none =>
    simp only [World.sendAll, hi]
    exact .refl
  | some inst => exact (inTurns_sendAll hi messages).moves

theorem sendThrough_moves (n : Nat) (id : String) (name : Option String) (message : Message) :
    Moves B w (w.sendThrough B n id name message).2 := by
  rw [World.sendThrough]
  split
  · exact .refl
  · next st hst =>
    split
    · exact .refl
    · have hobtain : Moves B w (w.obtain B n st id).2 := obtain_moves hst id
      cases name with
      | none => exact hobtain.trans (sendFirst_moves ..)
      | some name => exact (hobtain.tail (.setKept _ _)).trans (sendFirst_moves ..)

theorem spawn_moves {st : Store} (hst : st ∈ w.stores) (id name : String) :
    Moves B w (w.spawn B st id name).2 := by
  let opened : World σ := { w with storage := (B.openJournal w.storage).2 }
  have hopened : st ∈ opened.stores := hst
  have hstart : Moves B w (opened.start B id (B.openJournal w.storage).1 st.settings).2 :=
    .tail (.single (.openJournal w)) (.start hopened id _)
  exact (hstart.tail (.setKept _ _)).trans (sendFirst_moves ..)

theorem stopAll_moves (started : List (String × Nat)) :
    Moves B w (started.foldl (fun w e => w.stop e.2) w) := by
  induction started generalizing w with
  | nil => exact .refl
  | cons e rest ih => exact .head (.stop w e.2) ih

/-- **A step is a sequence of moves.** -/
theorem act_moves (w : World σ) (step : Step) : Moves B w (w.act B step).2 := by
  cases step with
  | setClock time => exact .single (.setClock w time)
  | ask n id command context => exact sendThrough_moves n id none _
  | observe n id name => exact sendThrough_moves n id name _
  | spawn n id name =>
    rw [World.act]
    split
    · next st hst => exact spawn_moves (List.mem_of_getElem? hst) id name
    · exact .refl
  | send name messages =>
    rw [World.act]
    split
    · exact sendAll_moves ..
    · exact .refl
  | forget name => exact .single (.setKept ..)
  | passivateAll n =>
    rw [World.act, World.withStore]
    split
    · next st hst =>
      have hstop : Moves B w (st.started.foldl (fun w e => w.stop e.2) w) := stopAll_moves st.started
      obtain ⟨instances, hstopped⟩ := w.stopAll_eq st.started
      unfold World.passivateAll
      rw [hstopped] at hstop ⊢
      exact hstop.trans (setStore_moves (w := { w with instances := instances }) hst st.journal)
    · exact .refl
  | restart n =>
    rw [World.act, World.withStore]
    split
    · next st hst => exact .head (.openJournal w) (setStore_moves (w := { w with storage := (B.openJournal w.storage).2 }) hst _)
    · exact .refl
  | sleep ms => exact .single (.sleep w ms)
  | setFailing failing => exact .single (.setFailing w failing)

/-- **A run is a sequence of moves.** -/
theorem run_moves (w : World σ) (steps : List Step) : Moves B w (w.run B steps).2 := by
  induction steps generalizing w with
  | nil => exact .refl
  | cons step rest ih => exact (w.act_moves step).trans (ih _)

end World

/-! ### What moves preserve -/

theorem Move.issued_le (h : Move B w w') : w.issued ≤ w'.issued := by
  cases h with
  | send i messages => exact (w.issues_send i messages).1
  | stop i =>
    obtain ⟨instances, hstop, -⟩ := w.stop_eq i
    exact Nat.le_of_eq (by rw [hstop])
  | _ => exact Nat.le_refl _

/-- **One move** keeps a world consistent. -/
theorem Consistent.move (C : Correct B V) (h : Consistent B V w) (hmove : Move B w w')
    (hfits : ∀ n ≤ w'.issued, V.Fits n) : Consistent B V w' := by
  cases hmove with
  | setClock time => exact ⟨h.healthy, h.follows, h.counted, h.started⟩
  | setKept kept => exact ⟨h.healthy, h.follows, h.counted, h.started⟩
  | openJournal =>
    have hopen := C.openJournal h.healthy.inv
    exact h.withStorage (h.healthy.unchanged hopen) hopen.recorded
  | setFailing failing => exact (h.setFailing C failing).1
  | @setStore n st st' hst _ hstarted =>
    refine ⟨h.healthy, h.follows, h.counted, fun other hother {id i} hi => ?_⟩
    rcases List.mem_or_eq_of_mem_set hother with hother | rfl
    · exact h.started other hother hi
    · exact (hstarted hi).elim (fun hold => h.started st (List.mem_of_getElem? hst) hold) fun hnew => hnew
  | start hst id journal => exact (h.start C id journal _).1
  | send i messages =>
    cases hi : w.instances[i]? with
    | none =>
      simp only [World.send, hi]
      exact h
    | some inst =>
      have hid : w.ids[i]? = some inst.id := by rw [World.ids, List.getElem?_map, hi]; rfl
      exact (h.send C hid messages hfits).consistent
  | stop i => exact h.stop i
  | sleep ms => exact h.sleep ms

/-- What every move between consistent worlds preserves, a sequence of moves preserves. -/
theorem Consistent.along (C : Correct B V) {P : World σ → Prop} {limit : Nat} (hfits : ∀ n ≤ limit, V.Fits n)
    (hmove : ∀ {w w'}, Consistent B V w → Consistent B V w' → Move B w w' → w'.issued ≤ limit → P w → P w')
    (hmoves : Moves B w w') (hlimit : w'.issued ≤ limit) (h : Consistent B V w) (hp : P w) :
    Consistent B V w' ∧ P w' := by
  induction hmoves with
  | refl => exact ⟨h, hp⟩
  | tail _ hlast ih =>
    obtain ⟨hw, hp⟩ := ih (Nat.le_trans hlast.issued_le hlimit)
    have hw' := hw.move C hlast fun n hn => hfits n (Nat.le_trans hn hlimit)
    exact ⟨hw', hmove hw hw' hlast hlimit hp⟩

/-! ### Settings -/

/-- All instances, and all stores that start them, have settings of one kind. -/
structure Configured (Q : Settings → Prop) (w : World σ) : Prop where
  stores : ∀ st ∈ w.stores, Q st.settings
  instances : ∀ inst ∈ w.instances, Q inst.settings

theorem World.Fresh.configured {Q : Settings → Prop} (h : w.Fresh) (hstores : ∀ st ∈ w.stores, Q st.settings) :
    Configured Q w := by
  refine ⟨hstores, fun inst hinst => ?_⟩
  rw [h.instances] at hinst
  cases hinst

namespace Configured
variable {Q : Settings → Prop}

theorem setInstance (h : Configured Q w) {inst inst' : Instance} {i : Nat} (hi : w.instances[i]? = some inst)
    (hsettings : inst'.settings = inst.settings) : ∀ other ∈ w.instances.set i inst', Q other.settings := by
  intro other hother
  rcases List.mem_or_eq_of_mem_set hother with hother | rfl
  · exact h.instances other hother
  · rw [hsettings]
    exact h.instances inst (List.mem_of_getElem? hi)

/-- **One move** starts no instance with settings of another kind. -/
theorem move (h : Configured Q w) (hmove : Move B w w') : Configured Q w' := by
  cases hmove with
  | @setStore n st st' hst hsettings _ =>
    refine ⟨fun other hother => ?_, h.instances⟩
    rcases List.mem_or_eq_of_mem_set hother with hother | rfl
    · exact h.stores other hother
    · rw [hsettings]
      exact h.stores st (List.mem_of_getElem? hst)
  | @start st hst id journal =>
    refine ⟨h.stores, fun inst hinst => ?_⟩
    rcases List.mem_append.1 hinst with hinst | hinst
    · exact h.instances inst hinst
    · rw [List.mem_singleton.1 hinst, settings_start]
      exact h.stores st hst
  | send i messages =>
    unfold World.send
    split
    · exact h
    · next inst hi => exact ⟨h.stores, h.setInstance hi (same_receive _ _ messages).settings⟩
  | stop i =>
    unfold World.stop
    split
    · exact h
    · next inst hi => exact ⟨h.stores, h.setInstance hi rfl⟩
  | sleep ms =>
    refine ⟨h.stores, fun inst' hinst' => ?_⟩
    obtain ⟨inst, hinst, rfl⟩ := List.mem_map.1 hinst'
    unfold Instance.expire
    split <;> exact h.instances inst hinst
  | _ => exact ⟨h.stores, h.instances⟩

end Configured

/-! ### Storages -/

section
variable {P : σ → Prop} {Q : Settings → Prop} {limit : Nat}

/-- What instances preserve of their storage, a message that is sent preserves. -/
theorem Consistent.send_preserves (C : Correct B V)
    (hask : ∀ {i : Instance} {s : σ}, Q i.settings → Healthy B V s → Follows B V s i →
      (B.recorded s i.stream).length + 1 ≤ limit → P s → ∀ env command context,
      P (Instance.ask B env i command context s).2.2)
    (hfits : ∀ n ≤ limit, V.Fits n) (h : Consistent B V w) (hconfigured : Configured Q w) (i : Nat)
    (messages : List Message) (hlimit : (w.send B i messages).2.issued ≤ limit) (hp : P w.storage) :
    P (w.send B i messages).2.storage := by
  rw [World.send] at hlimit ⊢
  split
  · exact hp
  · next inst hinst =>
    simp only [hinst] at hlimit
    have hmem := List.mem_of_getElem? hinst
    have hcounted : (B.recorded w.storage inst.stream).length ≤ w.issued := h.counted inst.stream
    refine receive_preserves C (fun {i' s} hsettings => ?_) hfits messages h.healthy (h.follows inst hmem) _ _
      (by omega) hp
    exact hask (hsettings ▸ hconfigured.instances inst hmem)

/-- **What every command preserves of a storage, runs preserve**, provided that it does not
matter how many journals are opened and whether they take records. -/
theorem Consistent.storage_run (C : Correct B V)
    (hopen : ∀ {s}, Healthy B V s → P s → P (B.openJournal s).2)
    (hfailing : ∀ {s}, Healthy B V s → P s → ∀ failing, P (B.setFailing failing s))
    (hask : ∀ {i : Instance} {s : σ}, Q i.settings → Healthy B V s → Follows B V s i →
      (B.recorded s i.stream).length + 1 ≤ limit → P s → ∀ env command context,
      P (Instance.ask B env i command context s).2.2)
    (hfits : ∀ n ≤ limit, V.Fits n) (h : Consistent B V w) (hconfigured : Configured Q w) (hp : P w.storage)
    (steps : List Step) (hlimit : (w.run B steps).2.issued ≤ limit) : P (w.run B steps).2.storage := by
  have hmove : ∀ {w w' : World σ}, Consistent B V w → Consistent B V w' → Move B w w' → w'.issued ≤ limit →
      Configured Q w ∧ P w.storage → Configured Q w' ∧ P w'.storage := by
    rintro w w' hw - hmove hlimit ⟨hconfigured, hp⟩
    refine ⟨hconfigured.move hmove, ?_⟩
    cases hmove with
    | openJournal => exact hopen hw.healthy hp
    | setFailing failing => exact hfailing hw.healthy hp failing
    | send i messages => exact hw.send_preserves C hask hfits hconfigured i messages hlimit hp
    | stop i =>
      obtain ⟨instances, hstop, -⟩ := w.stop_eq i
      rw [hstop]
      exact hp
    | _ => exact hp
  exact (h.along C hfits hmove (w.run_moves steps) hlimit ⟨hconfigured, hp⟩).2.2

end

end CartLedger.Entity
