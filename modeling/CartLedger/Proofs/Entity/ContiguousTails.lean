import CartLedger.Entity.Step
import CartLedger.Proofs.Entity.Recovery

/-! What recovery accepts.

A stream need not be a journal's work, and a snapshot need not belong to it. Recovery goes
from wherever it starts through what can be read behind that, and takes it in if it is
numbered without a gap from there (`Resumes`); what holds no event of a cart counts all the
same. Anything else it does not take in, not even in part: the instance has stopped before
it hears of anything, and who has sent it something is told so (`Newborn`). Neither way is
the storage touched. -/
namespace CartLedger.Entity
open CartLedger.Storage (Backend)
open Instance (Message Answer)

/-! ### Tails -/

/-- Records with the numbers behind `k`, one after another. -/
def Contiguous (k : Nat) (rs : List Record) : Prop :=
  rs.map (·.sequenceNr) = List.range' (k + 1) rs.length

theorem contiguous_nil (k : Nat) : Contiguous k [] := rfl

theorem contiguous_cons {k : Nat} {r : Record} {rest : List Record} :
    Contiguous k (r :: rest) ↔ r.sequenceNr = k + 1 ∧ Contiguous (k + 1) rest := by
  rw [Contiguous, List.map_cons, List.length_cons, List.range'_succ, List.cons.injEq, Contiguous]

/-- Catching up stops at the first record that is out of turn. -/
theorem contiguous_of_catchUp {cart : Cart} {k : Nat} {rs : List Record} {out : Cart × Nat}
    (h : Instance.catchUp cart k rs = some out) : Contiguous k rs := by
  induction rs generalizing cart k with
  | nil => exact contiguous_nil k
  | cons r rest ih =>
    rw [Instance.catchUp] at h
    split at h
    · next hnumber => exact contiguous_cons.2 ⟨hnumber, ih h⟩
    · cases h

theorem catchUp_iff {cart : Cart} {k : Nat} {rs : List Record} {out : Cart × Nat} :
    Instance.catchUp cart k rs = some out ↔
      Contiguous k rs ∧ out = (cart.replay (history rs), k + rs.length) := by
  constructor
  · intro h
    have hrs := contiguous_of_catchUp h
    rw [catchUp_eq hrs] at h
    exact ⟨hrs, (Option.some.inj h).symm⟩
  · rintro ⟨hrs, rfl⟩
    exact catchUp_eq hrs cart

/-- What holds no event is counted, and what is missing is missed. -/
example :
    let blank (n : Nat) : Record := Record.Entry.record
      ⟨.generated n, .ofCart "a", n, .ofList [], .anonymous, Time.Timestamp.epoch⟩ "Unknown" .null
    Instance.catchUp .empty 4 [blank 5, blank 6] = some (.empty, 6) ∧
      Instance.catchUp .empty 4 [blank 5, blank 7] = none := by decide

section
variable {σ : Type} (B : Backend σ)

/-- The records that recovery of a stream takes in: all that are read behind its starting
point, if they follow it one after another. -/
def Resumes (id : StreamId) (s : σ) (rs : List Record) : Prop :=
  B.readFrom id ((Instance.startingPoint B id s).2 + 1) s = .ok rs ∧
    Contiguous (Instance.startingPoint B id s).2 rs

/-- What they make of the cart there, and how many events are in it then. -/
def resumed (id : StreamId) (s : σ) (rs : List Record) : Cart × Nat :=
  ((Instance.startingPoint B id s).1.replay (history rs), (Instance.startingPoint B id s).2 + rs.length)

variable {B} {s : σ}

/-- **Recovery succeeds exactly on contiguous tails**, and replays them. -/
theorem recover_iff {id : StreamId} {out : Cart × Nat} :
    Instance.recover B id s = some out ↔ ∃ rs, Resumes B id s rs ∧ out = resumed B id s rs := by
  rw [Instance.recover]
  dsimp only
  cases hread : B.readFrom id ((Instance.startingPoint B id s).2 + 1) s with
  | error e => simp [Resumes, hread]
  | ok rs => simp [Resumes, resumed, hread, catchUp_iff, and_assoc]

theorem recover_eq_none_iff {id : StreamId} :
    Instance.recover B id s = none ↔ ∀ rs, ¬ Resumes B id s rs := by
  constructor
  · intro h rs hrs
    rw [recover_iff.2 ⟨rs, hrs, rfl⟩] at h
    cases h
  · intro h
    cases hrecover : Instance.recover B id s with
    | none => rfl
    | some out =>
      obtain ⟨rs, hrs, -⟩ := recover_iff.1 hrecover
      exact absurd hrs (h rs)

/-! ### Instances that were just started -/

variable {w w' : World σ} {id : String} {i : Nat}

variable (B) in
/-- How an instance of a cart begins that was started in the world `w`, which is `w'` with it. -/
structure Newborn (w : World σ) (id : String) (i : Nat) (w' : World σ) : Prop where
  storage : w'.storage = w.storage
  /-- It runs if there is something to resume from, -/
  running_iff : w'.isRunning i = true ↔ ∃ rs, Resumes B (.ofCart id) w.storage rs
  /-- and that is what it tells; -/
  observed : ∀ rs, Resumes B (.ofCart id) w.storage rs →
    (w'.sendFirst B i [.observe]).1 = [.state (.ok (resumed B (.ofCart id) w.storage rs))]
  /-- otherwise it abandons what was queued for it. -/
  abandoned : (∀ rs, ¬ Resumes B (.ofCart id) w.storage rs) → ∀ messages,
    w'.sendFirst B i messages = (messages.map Message.abandoned, w')

/-- The instance is as it was started, whatever else became of the world. -/
theorem newborn_of_start {journal now : Nat} {settings : Settings} (hstorage : w'.storage = w.storage)
    (hinst : w'.instances[i]? = some (Instance.start B id journal settings now w.storage)) :
    Newborn B w id i w' := by
  have hrunning : w'.isRunning i = (Instance.start B id journal settings now w.storage).running := by
    rw [World.isRunning, hinst]
  cases hrecover : Instance.recover B (.ofCart id) w.storage with
  | none =>
    have hnone := recover_eq_none_iff.1 hrecover
    have hstopped : w'.isRunning i = false := by
      rw [hrunning, Instance.start, hrecover]
    refine ⟨hstorage, ?_, fun rs hrs => absurd hrs (hnone rs), fun _ messages => ?_⟩
    · rw [hstopped]
      exact ⟨fun h => absurd h Bool.false_ne_true, fun ⟨rs, hrs⟩ => absurd hrs (hnone rs)⟩
    · rw [World.sendFirst, hstopped]
      rfl
  | some out =>
    obtain ⟨rs, hrs, hout⟩ := recover_iff.1 hrecover
    have hruns : w'.isRunning i = true := by
      rw [hrunning, Instance.start, hrecover]
    refine ⟨hstorage, ⟨fun _ => ⟨rs, hrs⟩, fun _ => hruns⟩, fun rs' hrs' => ?_, fun hnone => absurd hrs (hnone rs)⟩
    have hsame : resumed B (.ofCart id) w.storage rs' = out :=
      Option.some.inj ((recover_iff.2 ⟨rs', hrs', rfl⟩).symm.trans hrecover)
    rw [World.sendFirst, if_pos hruns, World.send, hinst, hsame, Instance.start, hrecover]
    rfl

variable (B) in
/-- How carts of an id recover in a world. -/
structure Recovery (w : World σ) (id : String) : Prop where
  /-- It starts at the snapshot that is loaded, -/
  loaded : ∀ snapshot, B.loadSnapshot Cart.decoder (.ofCart id) w.storage = .ok (some snapshot) →
    Instance.startingPoint B (.ofCart id) w.storage = (snapshot.state, snapshot.sequenceNr)
  /-- and at the beginning if there is none or loading it fails. -/
  notLoaded : (∀ snapshot, B.loadSnapshot Cart.decoder (.ofCart id) w.storage ≠ .ok (some snapshot)) →
    Instance.startingPoint B (.ofCart id) w.storage = (Cart.empty, 0)
  recovered : ∀ out, Instance.recover B (.ofCart id) w.storage = some out ↔
    ∃ rs, Resumes B (.ofCart id) w.storage rs ∧ out = resumed B (.ofCart id) w.storage rs
  started : ∀ journal settings, Newborn B w id (w.start B id journal settings).1 (w.start B id journal settings).2
  /-- A store that has none running starts one for whoever asks or observes. -/
  handedOut : ∀ {s st}, w.stores[s]? = some st → (st.instance? id).filter w.isRunning = none → id ≠ "" →
    ∀ name message, ∃ i w', Newborn B w id i w' ∧
      w.sendThrough B s id name message = w'.sendFirst B i [message]
  /-- One that is started aside from the stores finds the storage with one more journal open. -/
  spawned : ∀ st name, ∃ i w', Newborn B { w with storage := (B.openJournal w.storage).2 } id i w' ∧
    w.spawn B st id name = w'.sendFirst B i [.observe]

variable (B w id) in
/-- **Recovery accepts exactly contiguous tails.** Whatever the storage holds, an instance
runs, wherever it is started, if and only if the records behind its starting point can be read
and are numbered from there without a gap. It has the cart that their events make of the one it
started with, whichever of them hold none, and the number of the last. If not, all that waits
for it is abandoned. The storage stays as it is. -/
theorem recovery_of_contiguous_tails : Recovery B w id where
  loaded snapshot hload := by rw [Instance.startingPoint, hload]
  notLoaded hnone := by
    rw [Instance.startingPoint]
    split
    · next snapshot hload => exact absurd hload (hnone snapshot)
    · rfl
  recovered _ := recover_iff
  started _ _ := newborn_of_start rfl List.getElem?_concat_length
  handedOut {s st} hst hidle hid name message := by
    rw [World.sendThrough, hst]
    dsimp only
    rw [if_neg hid, World.obtain, hidle]
    refine ⟨_, _, ?_, rfl⟩
    cases name with
    | none => exact newborn_of_start rfl List.getElem?_concat_length
    | some name => exact newborn_of_start rfl List.getElem?_concat_length
  spawned st name := by
    refine ⟨_, _, ?_, rfl⟩
    exact newborn_of_start rfl List.getElem?_concat_length

end

end CartLedger.Entity
