import CartLedger.Journal.Durable
import CartLedger.Journal.Volatile
import CartLedger.Snapshot.Durable
import CartLedger.Snapshot.Volatile

/-! What carts need of the place where they are kept, and the two such places.

A backend is a handful of operations on a state. Journals are opened, since a journal on
disk remembers what it wrote; in memory there is one journal for all. -/
namespace CartLedger.Storage
open CartLedger.Json (Decoder)

structure Backend (σ : Type) where
  /-- Opens a journal: its number, and the state with it open. -/
  openJournal : σ → Nat × σ
  /-- Adds a record to its stream through a journal, and says its number. -/
  append : Nat → Record → σ → Except StorageError Nat × σ
  /-- The records of a stream from a number on. -/
  readFrom : StreamId → Nat → σ → Except StorageError (List Record)
  highest : Nat → StreamId → σ → Except StorageError Nat × σ
  byTag : String → σ → Except StorageError (List Record)
  saveSnapshot : StreamId → Snapshot Json → Retention → σ → Except StorageError Unit × σ
  loadSnapshot : {α : Type} → Decoder α → StreamId → σ → Except StorageError (Option (Snapshot α))
  /-- Makes journals refuse every record, or take records again. -/
  setFailing : Bool → σ → σ

/-! ### In memory -/

structure Memory where
  journal : Journal.Volatile
  snapshots : Snapshot.Volatile

def Memory.empty : Memory := ⟨.empty, .empty⟩

/-- Everything is kept in memory. -/
def memory : Backend Memory where
  openJournal m := (0, m)
  append _ r m :=
    match m.journal.append r with
    | .ok (n, j) => (.ok n, { m with journal := j })
    | .error e => (.error e, m)
  readFrom id start m := .ok (m.journal.readFrom id start)
  highest _ id m := (.ok (m.journal.highest id), m)
  byTag tag m := .ok (m.journal.byTag tag)
  saveSnapshot id snapshot retention m :=
    (.ok (), { m with snapshots := m.snapshots.save id snapshot retention })
  loadSnapshot state id m := m.snapshots.load id state
  setFailing failing m := { m with journal := m.journal.setFailing failing }

/-! ### On disk -/

abbrev Files := Journal.Durable

/-- Everything is kept in files. Their journals take records at any time. -/
def files : Backend Files where
  openJournal := Journal.Durable.openNew
  append journal r s := s.append journal r
  readFrom id start s := s.readFrom id start
  highest journal id s := s.highest journal id
  byTag tag s := s.byTag tag
  saveSnapshot id snapshot retention s :=
    let (answer, disk) := Snapshot.Durable.save s.disk id snapshot retention
    (answer, { s with disk := disk })
  loadSnapshot state id s := Snapshot.Durable.load s.disk id state
  setFailing _ s := s

end CartLedger.Storage
