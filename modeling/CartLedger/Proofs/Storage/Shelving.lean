import CartLedger.Proofs.Snapshot.Shelf
import CartLedger.Proofs.Storage.Backend

/-! What a backend owes the snapshots it keeps.

`Correct` says which snapshots may be loaded; here it is exactly which there are. A backend
is `Shelving` when nothing but a save changes what is kept for a stream, a save behind all
others changes it as `Shelf.save` says, and a load gives the last. Both backends are
(`shelving_memory`, `shelving_files`). -/
namespace CartLedger.Storage
open CartLedger.Snapshot (Shelf)

structure Shelving (B : Backend σ) (V : View σ) (Shelves : σ → StreamId → Shelf → Prop) : Prop where
  loadSnapshot : ∀ {s id shelf}, V.Inv s → V.Takes id → Shelves s id shelf →
    B.loadSnapshot Cart.decoder id s = .ok shelf.getLast?
  saveSnapshot : ∀ {s id shelf n}, V.Inv s → V.Takes id → V.Fits n → Shelves s id shelf →
    (∀ x ∈ shelf, x.sequenceNr < n) → ∀ c retention,
    Shelves (B.saveSnapshot id (Snapshot.ofCart c n) retention s).2 id (shelf.save c n retention)
  /-- Snapshots of other streams are left alone, -/
  saveAside : ∀ {s id id' shelf}, V.Inv s → Shelves s id' shelf → id' ≠ id → ∀ snapshot retention,
    Shelves (B.saveSnapshot id snapshot retention s).2 id' shelf
  /-- and so are all of them when something else is done. -/
  openJournal : ∀ {s id shelf}, Shelves s id shelf → Shelves (B.openJournal s).2 id shelf
  append : ∀ {s entry id shelf}, V.Inv s →
    (entry.sequenceNr = (B.recorded s entry.stream).length + 1 → V.Fits entry.sequenceNr) →
    Shelves s id shelf → ∀ journal event,
    Shelves (B.append journal (Record.ofEvent entry event) s).2 id shelf
  setFailing : ∀ {s id shelf}, Shelves s id shelf → ∀ failing, Shelves (B.setFailing failing s) id shelf

/-! ### In memory -/

/-- What is kept in memory for a stream. -/
def ShelvesInMemory (m : Memory) : StreamId → Shelf → Prop := m.snapshots.Shelves

theorem shelving_memory : Shelving memory memoryView ShelvesInMemory where
  loadSnapshot _ _ h := h.load
  saveSnapshot _ _ _ h hlater c retention := h.save hlater c retention
  saveAside _ h hne snapshot retention := h.save_aside hne snapshot retention
  openJournal h := h
  append {m entry id shelf} _ _ h journal event := by
    show ShelvesInMemory (memory.append journal (Record.ofEvent entry event) m).2 id shelf
    unfold memory
    dsimp only
    split <;> exact h
  setFailing h _ := h

/-! ### On disk -/

/-- What is kept in files for a stream. -/
def ShelvesInFiles (s : Files) : StreamId → Shelf → Prop := Snapshot.Durable.Shelves s.disk

/-- Writing elsewhere leaves shelves as they are. -/
theorem shelves_of_grown {d d' : Disk} {id : StreamId} {shelf : Shelf}
    (hgrown : Grown Journal.Durable.Keeps.OutsideSnapshots d d') (h : Snapshot.Durable.Shelves d id shelf) :
    Snapshot.Durable.Shelves d' id shelf := by
  refine h.congr hgrown.directory fun name => hgrown.file (Layout.leaf_inEntity (by decide) id name) ?_
  intro hout
  have hinside : Layout.InSnapshots (Layout.entityPath "snapshots" id ++ [name]) := rfl
  exact hout hinside

/-- A journal writes among streams, and nowhere else. -/
theorem grown_append {s : Files} (h : filesView.Inv s) {entry : Record.Entry}
    (hfits : entry.sequenceNr = (files.recorded s entry.stream).length + 1 → filesView.Fits entry.sequenceNr)
    (journal : Nat) (event : Cart.Event) :
    Grown Journal.Durable.Keeps.OutsideSnapshots s.disk (s.append journal (Record.ofEvent entry event)).2.disk := by
  have hkeeps : s.Keeps (files.recorded s) := h
  by_cases hid : Layout.Usable entry.stream
  · by_cases hnext : entry.sequenceNr = (files.recorded s entry.stream).length + 1
    · obtain ⟨s', happend, -, hgrown⟩ := hkeeps.append_next (r := Record.ofEvent entry event) hid
        (Record.storable_ofEvent (hfits hnext) event) hnext journal
      rwa [happend]
    · obtain ⟨e, he⟩ := Journal.checkNext_error (r := Record.ofEvent entry event) hnext
      obtain ⟨s', happend, -, hgrown⟩ := hkeeps.append_refused hid he journal
      rwa [happend]
  · rw [Journal.Durable.append_unusable (r := Record.ofEvent entry event) hid]
    exact .refl s.disk

theorem shelving_files : Shelving files filesView ShelvesInFiles where
  loadSnapshot hinv hid h := h.load (Journal.Durable.Keeps.orderly hinv) hid
  saveSnapshot hinv hid hfits h hlater c retention :=
    h.save (Journal.Durable.Keeps.orderly hinv) hid hfits hlater c retention
  saveAside hinv h hne snapshot retention :=
    h.save_aside (Journal.Durable.Keeps.orderly hinv) hne snapshot retention
  openJournal h := h
  append hinv hfits h journal event := shelves_of_grown (grown_append hinv hfits journal event) h
  setFailing h _ := h

end CartLedger.Storage
