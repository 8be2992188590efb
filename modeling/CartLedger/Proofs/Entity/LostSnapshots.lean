import CartLedger.Proofs.Entity.Beginning
import CartLedger.Proofs.Snapshot.Damage

/-! Carts without their snapshots.

Snapshots are a shortcut. Whatever was done over a storage, and whichever snapshots were
lost or spoilt afterwards, a new instance comes to the replay of all events of its stream,
and leaves the storage as it found it (`Consistent.recovers`). -/
namespace CartLedger.Entity
open CartLedger.Cart (Event)
open CartLedger.Snapshot (Volatile)
open CartLedger.Storage (Backend View Correct Unchanged Memory Files memory files memoryView filesView)
open Instance (Answer)

variable {σ : Type} {B : Backend σ} {V : View σ} {w : World σ}

/-! ### What was done -/

inductive Deed where
  | step (step : Step)
  /-- A store is restarted with other settings. -/
  | resettle (store : Nat) (settings : Settings)

namespace World

def undergo (B : Backend σ) (w : World σ) : Deed → World σ
  | .step step => (w.act B step).2
  | .resettle s settings =>
    match w.stores[s]? with
    | some st => w.restart B s { st with settings := settings }
    | none => w

def undergoAll (B : Backend σ) (w : World σ) (deeds : List Deed) : World σ := deeds.foldl (undergo B) w

theorem issued_le_undergo (w : World σ) (deed : Deed) : w.issued ≤ (w.undergo B deed).issued := by
  cases deed with
  | step step => exact w.issued_le_act step
  | resettle s settings =>
    rw [undergo]
    split <;> exact Nat.le_refl _

theorem issued_le_undergoAll (w : World σ) (deeds : List Deed) : w.issued ≤ (w.undergoAll B deeds).issued := by
  induction deeds generalizing w with
  | nil => exact Nat.le_refl _
  | cons deed rest ih => exact Nat.le_trans (w.issued_le_undergo deed) (ih _)

end World

theorem Consistent.undergo (C : Correct B V) (h : Consistent B V w) (deed : Deed)
    (hfits : ∀ n ≤ (w.undergo B deed).issued, V.Fits n) : Consistent B V (w.undergo B deed) := by
  cases deed with
  | step step => exact (h.act C step hfits).1
  | resettle s settings =>
    rw [World.undergo]
    split
    · exact (h.restart C s _).1
    · exact h

/-- **Whatever was done**, the world is consistent. -/
theorem Consistent.undergoAll (C : Correct B V) (h : Consistent B V w) (deeds : List Deed)
    (hfits : ∀ n ≤ (w.undergoAll B deeds).issued, V.Fits n) : Consistent B V (w.undergoAll B deeds) := by
  induction deeds generalizing w with
  | nil => exact h
  | cons deed rest ih =>
    have hdeed := h.undergo C deed fun n hn =>
      hfits n (Nat.le_trans hn (World.issued_le_undergoAll (w.undergo B deed) rest))
    exact ih hdeed hfits

/-! ### New instances -/

/-- A new instance that is started aside from the stores, and observed. -/
structure Visit where
  store : Nat
  id : String
  name : String

def Visit.step (v : Visit) : Step := .spawn v.store v.id v.name

/-- What is observed of an instance that replayed events. -/
def replayed (events : List Event) : Answer := .state (.ok (Cart.replay .empty events, events.length))

theorem visit_ok (C : Correct B V) (h : Healthy B V w.storage) {v : Visit} {st : Store}
    (hst : w.stores[v.store]? = some st) (hid : V.Takes (.ofCart v.id)) :
    (w.act B v.step).1 = [replayed (history (w.records B (.ofCart v.id)))] ∧
      (w.act B v.step).2.storage = (B.openJournal w.storage).2 ∧ (w.act B v.step).2.stores = w.stores := by
  have hopen := C.openJournal h.inv
  have hstart := start_eq C (h.unchanged hopen) hid (B.openJournal w.storage).1 st.settings w.elapsed
  simp only [Visit.step, World.act, hst, World.spawn, World.start, World.keep, World.sendFirst, World.isRunning,
    World.send, List.getElem?_concat_length, hstart, if_true, Instance.receive, Instance.serve, Instance.answer,
    ne_eq, List.cons_ne_nil, not_false_eq_true, and_true]
  rw [hopen.recorded, replayed, cartAt_length, (h.legible _).length_history]

/-- New instances, one after another, find the same every time. -/
theorem visits_ok {κ : Type} {look : σ → κ} (C : Correct B V) (hlook : ∀ s, look (B.openJournal s).2 = look s)
    (h : Healthy B V w.storage) {visits : List Visit}
    (hvisits : ∀ v ∈ visits, v.store < w.stores.length ∧ V.Takes (.ofCart v.id)) :
    (w.run B (visits.map Visit.step)).1 =
        visits.map (fun v => [replayed (history (w.records B (.ofCart v.id)))]) ∧
      look (w.run B (visits.map Visit.step)).2.storage = look w.storage := by
  induction visits generalizing w with
  | nil => exact ⟨rfl, rfl⟩
  | cons v rest ih =>
    obtain ⟨⟨hstore, hid⟩, hrest⟩ := List.forall_mem_cons.1 hvisits
    obtain ⟨hanswer, hstorage, hstores⟩ := visit_ok C h (List.getElem?_eq_getElem hstore) hid
    have hopen := C.openJournal h.inv
    have hrecords : ∀ id, (w.act B v.step).2.records B id = w.records B id := fun id => by
      rw [World.records, hstorage, hopen.recorded]
    obtain ⟨hanswers, hunchanged⟩ := ih (hstorage ▸ h.unchanged hopen) (by rwa [hstores])
    simp only [hrecords] at hanswers
    simp only [List.map_cons, World.run, hanswer, hanswers, hunchanged, hstorage, hlook]
    exact ⟨trivial, trivial⟩

/-! ### Recovery -/

/-- The streams of `w` hold events, still do in `w'`, and are what new instances come to in
`w'`, as often as there are any. -/
structure Recovers {κ : Type} (B : Backend σ) (takes : StreamId → Prop) (look : σ → κ)
    (events : String → List Event) (w w' : World σ) : Prop where
  streams : ∀ id, takes (.ofCart id) → ∃ rs, B.readFrom (.ofCart id) 0 w.storage = .ok rs ∧
    B.readFrom (.ofCart id) 0 w'.storage = .ok rs ∧ rs.map Record.event? = (events id).map some
  answers : ∀ visits : List Visit, (∀ v ∈ visits, v.store < w'.stores.length ∧ takes (.ofCart v.id)) →
    (w'.run B (visits.map Visit.step)).1 = visits.map fun v => [replayed (events v.id)]
  unchanged : ∀ visits : List Visit, (∀ v ∈ visits, v.store < w'.stores.length ∧ takes (.ofCart v.id)) →
    look (w'.run B (visits.map Visit.step)).2.storage = look w'.storage

theorem Consistent.recovers {κ : Type} {look : σ → κ} (C : Correct B V)
    (hlook : ∀ s, look (B.openJournal s).2 = look s) (h : Consistent B V w) {s : σ}
    (hs : Unchanged B V w.storage s) :
    Recovers B V.Takes look (fun id => history (w.records B (.ofCart id))) w { w with storage := s } := by
  have hhealthy := h.healthy.unchanged hs
  refine ⟨fun id hid => ⟨_, C.readAll h.healthy.inv hid, ?_, (h.healthy.legible _).map⟩,
    fun visits hvisits => ?_, fun visits hvisits => ?_⟩
  · exact hs.recorded ▸ C.readAll hs.inv hid
  · have hanswers := (visits_ok C hlook hhealthy hvisits).1
    simp only [World.records, hs.recorded] at hanswers
    exact hanswers
  · exact (visits_ok C hlook hhealthy hvisits).2

/-- The snapshots in memory after something happened to them. -/
def World.strikeMemory (w : World Memory) (damages : List Volatile.Damage) : World Memory :=
  { w with storage := { w.storage with snapshots := damages.foldl Volatile.strike w.storage.snapshots } }

/-- The disk after something happened to snapshots. -/
def World.strikeFiles (w : World Files) (damages : List Snapshot.Durable.Damage) : World Files :=
  { w with storage := { w.storage with disk := damages.foldl Snapshot.Durable.strike w.storage.disk } }

theorem unchanged_strikeMemory {w : World Memory} (h : memoryView.Inv w.storage) {damages : List Volatile.Damage}
    (hdamages : ∀ damage ∈ damages, damage.Illegible) :
    Unchanged memory memoryView w.storage (w.strikeMemory damages).storage where
  inv := h
  recorded := by rw [Storage.recorded_memory, Storage.recorded_memory]; rfl
  kept hk := Volatile.kept_foldl_strike hdamages hk
  failing := Iff.rfl

theorem unchanged_strikeFiles {w : World Files} (h : filesView.Inv w.storage) {damages : List Snapshot.Durable.Damage}
    (hdamages : ∀ damage ∈ damages, damage.Illegible) :
    Unchanged files filesView w.storage (w.strikeFiles damages).storage := by
  have hkeeps : w.storage.Keeps (files.recorded w.storage) := h
  have hharmless := Snapshot.Durable.harmless_foldl_strike hkeeps.orderly hdamages
  have hkeeps' := hkeeps.withDisk hharmless.orderly Storage.Layout.not_inSnapshots_eventsPath hharmless.grown
  exact ⟨Storage.inv_files hkeeps', Storage.recorded_files hkeeps', hharmless.kept, Iff.rfl⟩

/-- **Recovery does without snapshots.** Whatever was done over a storage, with any settings, and
whatever happened to snapshots then, new instances come to the replay of the streams as they
were, and leave the storage as they found it: memory altogether, files and what journals
remember of them. -/
theorem recovery_without_snapshots :
    (∀ w : World Memory, w.Fresh → w.storage = .empty → ∀ (deeds : List Deed) (damages : List Volatile.Damage),
      (∀ damage ∈ damages, damage.Illegible) →
        let w' := w.undergoAll memory deeds
        ∃ events, Recovers memory (fun _ => True) id events w' (w'.strikeMemory damages)) ∧
    ∀ w : World Files, w.Fresh → w.storage.disk = .empty → w.storage.tails = [] →
      ∀ (deeds : List Deed) (damages : List Snapshot.Durable.Damage), (∀ damage ∈ damages, damage.Illegible) →
        let w' := w.undergoAll files deeds
        w'.issued < UInt64.size → ∃ events, Recovers files Storage.Layout.Usable (fun s => (s.disk, s.tails))
          events w' (w'.strikeFiles damages) := by
  constructor
  · intro w hfresh hstorage deeds damages hdamages w'
    have h := (untouched_memory hfresh hstorage).consistent.undergoAll Storage.correct_memory deeds
      fun _ _ => trivial
    exact ⟨_, h.recovers Storage.correct_memory (fun _ => rfl) (unchanged_strikeMemory h.healthy.inv hdamages)⟩
  · intro w hfresh hdisk htails deeds damages hdamages w' hissued
    have h := (untouched_files hfresh hdisk htails).consistent.undergoAll Storage.correct_files deeds
      fun n hn => Nat.lt_of_le_of_lt hn hissued
    exact ⟨_, h.recovers Storage.correct_files (fun _ => rfl) (unchanged_strikeFiles h.healthy.inv hdamages)⟩

/-- The only snapshot is spoilt in memory; on disk it is removed, another is put in its place,
and a file is left behind. -/
theorem recovery_from_spoilt_snapshots :
    let settings : Settings := ⟨300000, ⟨1, 1⟩, Settings.cartShards 10, 32⟩
    let stream : StreamId := .ofCart "a"
    let deeds : List Deed :=
      [.step (.ask 0 "a" (.addItem ⟨"x", by decide⟩ 1) .anonymous), .resettle 0 Settings.standard]
    let inMemory : List Volatile.Damage := [.replace stream 1 .null]
    let onDisk : List Snapshot.Durable.Damage := [.delete stream 1, .replace stream 7 [123], .leave stream "1" [0]]
    let remembered : World Memory := .begin memory .empty Time.Timestamp.epoch settings 0 1
    let filed : World Files := .begin files (.onDisk .empty) Time.Timestamp.epoch settings 0 1
    (∀ damage ∈ inMemory, damage.Illegible) ∧ (∀ damage ∈ onDisk, damage.Illegible) ∧
      (filed.undergoAll files deeds).issued < UInt64.size ∧
      (∃ events, Recovers memory (fun _ => True) id events (remembered.undergoAll memory deeds)
        ((remembered.undergoAll memory deeds).strikeMemory inMemory)) ∧
      ∃ events, Recovers files Storage.Layout.Usable (fun s => (s.disk, s.tails)) events
        (filed.undergoAll files deeds) ((filed.undergoAll files deeds).strikeFiles onDisk) := by
  intro settings stream deeds inMemory onDisk remembered filed
  have hmemory : ∀ damage ∈ inMemory, damage.Illegible := by
    intro damage hdamage
    obtain rfl := List.mem_singleton.1 hdamage
    exact ⟨_, rfl⟩
  have hdisk : ∀ damage ∈ onDisk, damage.Illegible := by
    refine List.forall_mem_cons.2 ⟨trivial, List.forall_mem_cons.2 ⟨⟨_, rfl⟩, ?_⟩⟩
    exact List.forall_mem_cons.2 ⟨trivial, List.forall_mem_nil _⟩
  have hissued : (filed.undergoAll files deeds).issued < UInt64.size := by decide +kernel
  exact ⟨hmemory, hdisk, hissued,
    recovery_without_snapshots.1 remembered ⟨rfl, by decide, rfl⟩ rfl deeds inMemory hmemory,
    recovery_without_snapshots.2 filed ⟨rfl, by decide, rfl⟩ rfl rfl deeds onDisk hdisk hissued⟩

end CartLedger.Entity
