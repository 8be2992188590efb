import CartLedger.Proofs.Journal.Durable
import CartLedger.Proofs.Journal.Volatile
import CartLedger.Proofs.Snapshot.Durable
import CartLedger.Proofs.Snapshot.Volatile
import CartLedger.Storage.Backend

/-! What a backend owes the carts that it keeps.

A `View` says how a storage is to be looked at: when it is in order, which streams it
takes, which numbers fit its records, and which snapshots it may load. A backend is
`Correct` for a view when a stream takes the record that is next and no other, reads give
the records that were taken, and a save keeps no more than it saves. Both backends are
(`correct_memory`, `correct_files`), and whatever follows for carts follows from that. -/
namespace CartLedger.Storage
open CartLedger.Journal (Tidy extend checkNext)

/-- The records of a stream; none if it cannot be read. -/
def Backend.recorded (B : Backend σ) (s : σ) (id : StreamId) : List Record :=
  match B.readFrom id 0 s with
  | .ok rs => rs
  | .error _ => []

structure View (σ : Type) where
  /-- The storage is in order. -/
  Inv : σ → Prop
  /-- Streams that are taken. -/
  Takes : StreamId → Prop
  /-- Numbers that a record can have. -/
  Fits : Nat → Prop
  /-- Whether the storage can be made to refuse records, -/
  CanFail : Prop
  /-- and whether it does at the moment. -/
  Failing : σ → Prop
  /-- Snapshots that may be loaded. -/
  Kept : σ → StreamId → Snapshot Cart → Prop

/-- The storage is in order with the records it had, and has no new snapshots. -/
structure Unchanged (B : Backend σ) (V : View σ) (s s' : σ) : Prop where
  inv : V.Inv s'
  recorded : B.recorded s' = B.recorded s
  kept : ∀ {id snapshot}, V.Kept s' id snapshot → V.Kept s id snapshot
  failing : V.Failing s' ↔ V.Failing s

/-- What a backend owes. -/
structure Correct (B : Backend σ) (V : View σ) : Prop where
  tidy : ∀ {s}, V.Inv s → Tidy (B.recorded s)
  readFrom : ∀ {s id}, V.Inv s → V.Takes id → ∀ start,
    B.readFrom id start s = .ok ((B.recorded s id).filter (fun r => start ≤ r.sequenceNr))
  /-- A stream that is not taken cannot be read. -/
  foreign : ∀ {s id}, V.Inv s → ¬ V.Takes id → ∀ start, ∃ e, B.readFrom id start s = .error e
  openJournal : ∀ {s}, V.Inv s → Unchanged B V s (B.openJournal s).2
  append_next : ∀ {s entry}, V.Inv s → ¬ V.Failing s → V.Takes entry.stream → V.Fits entry.sequenceNr →
    entry.sequenceNr = (B.recorded s entry.stream).length + 1 → ∀ journal event,
    ∃ s', B.append journal (Record.ofEvent entry event) s = (.ok entry.sequenceNr, s') ∧ V.Inv s' ∧
      B.recorded s' = extend (B.recorded s) (Record.ofEvent entry event) ∧
      (∀ {id snapshot}, V.Kept s' id snapshot → V.Kept s id snapshot) ∧ (V.Failing s' ↔ V.Failing s)
  append_refused : ∀ {s r}, V.Inv s →
    (V.Failing s ∨ ¬ V.Takes r.stream ∨ r.sequenceNr ≠ (B.recorded s r.stream).length + 1) → ∀ journal,
    ∃ e s', B.append journal r s = (.error e, s') ∧ Unchanged B V s s'
  loadSnapshot : ∀ {s id snapshot}, V.Inv s →
    B.loadSnapshot Cart.decoder id s = .ok (some snapshot) → V.Kept s id snapshot
  saveSnapshot : ∀ {s n}, V.Inv s → V.Fits n → ∀ id c retention,
    let s' := (B.saveSnapshot id (Snapshot.ofCart c n) retention s).2
    V.Inv s' ∧ B.recorded s' = B.recorded s ∧ (V.Failing s' ↔ V.Failing s) ∧
      ∀ {id' snapshot}, V.Kept s' id' snapshot → V.Kept s id' snapshot ∨ (id' = id ∧ snapshot = ⟨c, n⟩)
  setFailing : ∀ {s}, V.Inv s → ∀ failing,
    let s' := B.setFailing failing s
    V.Inv s' ∧ B.recorded s' = B.recorded s ∧ (V.Failing s' ↔ V.CanFail ∧ failing = true) ∧
      ∀ {id snapshot}, V.Kept s' id snapshot → V.Kept s id snapshot

theorem Unchanged.refl {B : Backend σ} {V : View σ} {s : σ} (h : V.Inv s) : Unchanged B V s s :=
  ⟨h, rfl, fun hk => hk, Iff.rfl⟩

/-- A stream that is taken can be read altogether. -/
theorem Correct.readAll {B : Backend σ} {V : View σ} {s : σ} (C : Correct B V) (h : V.Inv s) {id : StreamId}
    (hid : V.Takes id) : B.readFrom id 0 s = .ok (B.recorded s id) := by
  rw [C.readFrom h hid, Journal.filter_zero]

/-! ### In memory -/

def memoryView : View Memory where
  Inv m := m.journal.Whole
  Takes _ := True
  Fits _ := True
  CanFail := True
  Failing m := m.journal.failing = true
  Kept m := m.snapshots.Kept

theorem recorded_memory (m : Memory) : memory.recorded m = m.journal.stream := by
  funext id
  exact Journal.filter_zero _

theorem inv_memory_empty : memoryView.Inv .empty := Journal.Volatile.whole_empty

theorem correct_memory : Correct memory memoryView where
  tidy {m} h := recorded_memory m ▸ h.tidy
  readFrom {m id} _ _ start := by
    rw [recorded_memory]
    rfl
  foreign _ h := absurd trivial h
  openJournal h := .refl h
  append_next {m entry} h hfailing _ _ hnext journal event := by
    rw [recorded_memory] at hnext ⊢
    have htakes : m.journal.failing = false := by simpa [memoryView] using hfailing
    obtain ⟨j, hj, hstream, -, hfailing'⟩ :=
      Journal.Volatile.append_next (r := Record.ofEvent entry event) h.tidy htakes hnext
    refine ⟨{ m with journal := j }, ?_, h.append hj, ?_, fun hk => hk, ?_⟩
    · simp only [memory, hj]
      rfl
    · rw [recorded_memory]
      exact hstream
    · simp only [memoryView, htakes, hfailing']
  append_refused {m r} h hwhy journal := by
    rw [recorded_memory] at hwhy
    have herror : ∃ e, m.journal.append r = .error e := by
      by_cases hfails : m.journal.failing = true
      · exact ⟨_, Journal.Volatile.append_failing hfails r⟩
      · have hnext : r.sequenceNr ≠ (m.journal.stream r.stream).length + 1 :=
          (hwhy.resolve_left hfails).resolve_left (fun hnot => hnot trivial)
        obtain ⟨e, he⟩ := Journal.checkNext_error hnext
        exact ⟨e, Journal.Volatile.append_refused h.tidy (by simpa using hfails) he⟩
    obtain ⟨e, he⟩ := herror
    refine ⟨e, m, ?_, .refl h⟩
    simp only [memory, he]
  loadSnapshot _ hload := Snapshot.Volatile.kept_of_load hload
  saveSnapshot h _ id c retention :=
    ⟨h, by rw [recorded_memory, recorded_memory]; rfl, Iff.rfl, Snapshot.Volatile.kept_save⟩
  setFailing {m} h failing :=
    ⟨h.setFailing failing, by rw [recorded_memory, recorded_memory]; rfl, by simp [memoryView, memory, Journal.Volatile.setFailing],
      fun hk => hk⟩

/-! ### On disk -/

theorem recorded_files {s : Files} {streams : StreamId → List Record} (h : s.Keeps streams) :
    files.recorded s = streams := by
  funext id
  by_cases hid : Layout.Usable id
  · have hread : files.readFrom id 0 s = _ := h.readFrom_eq hid 0
    rw [Backend.recorded, hread]
    exact Journal.filter_zero _
  · have hread : files.readFrom id 0 s = .error _ := Journal.Durable.readFrom_unusable hid s 0
    rw [Backend.recorded, hread, h.unusable hid]

def filesView : View Files where
  Inv s := s.Keeps (files.recorded s)
  Takes := Layout.Usable
  Fits n := n < UInt64.size
  CanFail := False
  Failing _ := False
  Kept s := Snapshot.Durable.Kept s.disk

theorem inv_files {s : Files} {streams : StreamId → List Record} (h : s.Keeps streams) : filesView.Inv s := by
  show s.Keeps (files.recorded s)
  rw [recorded_files h]
  exact h

/-- Snapshots stay the same when nothing is written among them. -/
theorem kept_of_grown {d d' : Disk} (h : Grown Journal.Durable.Keeps.OutsideSnapshots d d') {id : StreamId}
    {snapshot : Snapshot Cart} (hkept : Snapshot.Durable.Kept d' id snapshot) :
    Snapshot.Durable.Kept d id snapshot := by
  obtain ⟨n, bytes, hfile, hdecode⟩ := hkept
  have hinside : Layout.InSnapshots (Snapshot.Durable.path id n) := rfl
  rw [h.file (Snapshot.Durable.leaf_path id n) fun hout => hout hinside] at hfile
  exact ⟨n, bytes, hfile, hdecode⟩

theorem correct_files : Correct files filesView where
  tidy h := h.tidy
  readFrom h hid start := h.readFrom_eq hid start
  foreign _ hid start := ⟨_, Journal.Durable.readFrom_unusable hid _ start⟩
  openJournal {s} h := ⟨inv_files h.openNew, recorded_files h.openNew, fun hk => hk, Iff.rfl⟩
  append_next {s entry} h _ hid hfits hnext journal event := by
    obtain ⟨s', happend, hkeeps, hgrown⟩ := h.append_next (r := Record.ofEvent entry event) hid
      (Record.storable_ofEvent hfits event) hnext journal
    exact ⟨s', happend, inv_files hkeeps, recorded_files hkeeps, kept_of_grown hgrown, Iff.rfl⟩
  append_refused {s r} h hwhy journal := by
    by_cases hid : Layout.Usable r.stream
    · have hnext := (hwhy.resolve_left not_false).resolve_left (fun hnot => hnot hid)
      obtain ⟨e, he⟩ := Journal.checkNext_error hnext
      obtain ⟨s', happend, hkeeps, hgrown⟩ := h.append_refused hid he journal
      exact ⟨e, s', happend, inv_files hkeeps, recorded_files hkeeps, kept_of_grown hgrown, Iff.rfl⟩
    · exact ⟨_, s, Journal.Durable.append_unusable hid s journal, .refl h⟩
  loadSnapshot _ hload := Snapshot.Durable.kept_of_load hload
  saveSnapshot {s n} h hn id c retention := by
    obtain ⟨horderly, hgrown, -⟩ := Snapshot.Durable.save_ok h.orderly id (Snapshot.ofCart c n) retention
    have hkeeps := h.withDisk horderly Layout.not_inSnapshots_eventsPath hgrown
    exact ⟨inv_files hkeeps, recorded_files hkeeps, Iff.rfl, Snapshot.Durable.kept_save h.orderly hn⟩
  setFailing h failing := ⟨h, rfl, by simp [filesView], fun hk => hk⟩

end CartLedger.Storage
