import CartLedger.Record.Basic
import CartLedger.Snapshot.Basic
import CartLedger.Storage.Error

/-! Snapshots in memory: for each stream the states kept, by sequence number. -/
namespace CartLedger.Snapshot
open CartLedger.Json (Decoder)

structure Volatile where
  kept : List (StreamId × OrderedMap Nat Json)

namespace Volatile

def empty : Volatile := ⟨[]⟩

def of (s : Volatile) (id : StreamId) : OrderedMap Nat Json :=
  (Entries.find? id s.kept).getD .empty

/-- Adds a snapshot, then discards those that are not to be kept, be it itself. -/
def save (s : Volatile) (id : StreamId) (snapshot : Snapshot Json) (retention : Retention) :
    Volatile :=
  let states := (s.of id).insert snapshot.sequenceNr snapshot.state.canonical
  let states := states.filter (fun n => retention.deleteUpto snapshot.sequenceNr < n)
  ⟨Entries.set id states s.kept⟩

/-- The latest snapshot. One that cannot be understood hides those before it. -/
def load (s : Volatile) (id : StreamId) (state : Decoder α) :
    Except StorageError (Option (Snapshot α)) :=
  match (s.of id).last? with
  | none => .ok none
  | some (sequenceNr, v) =>
    match Json.decode state v with
    | .ok a => .ok (some ⟨a, sequenceNr⟩)
    | .error _ => .error .illegible

def sequenceNrs (s : Volatile) (id : StreamId) : List Nat := (s.of id).keys

end Volatile

end CartLedger.Snapshot
