import CartLedger.Journal.Numbering

/-! A journal in memory.

It keeps every record twice: in its stream, for reading a stream, and in a log of all
streams, for reading by tag. -/
namespace CartLedger.Journal

structure Volatile where
  streams : List (StreamId × List Record)
  log : List Record
  /-- While set, nothing is taken. -/
  failing : Bool

namespace Volatile

def empty : Volatile := ⟨[], [], false⟩

def stream (j : Volatile) (id : StreamId) : List Record :=
  (Entries.find? id j.streams).getD []

/-- Takes a record, and says its number. -/
def append (j : Volatile) (r : Record) : Except StorageError (Nat × Volatile) :=
  if j.failing then .error .unavailable
  else
    match checkNext r (highestOf (j.stream r.stream)) with
    | .error e => .error e
    | .ok () =>
      .ok (r.sequenceNr, { j with
        streams := Entries.set r.stream (j.stream r.stream ++ [r]) j.streams
        log := j.log ++ [r] })

def readFrom (j : Volatile) (id : StreamId) (start : Nat) : List Record :=
  (j.stream id).filter (fun r => start ≤ r.sequenceNr)

def highest (j : Volatile) (id : StreamId) : Nat := highestOf (j.stream id)

/-- The records with a tag, in the order in which they were taken. -/
def byTag (j : Volatile) (tag : String) : List Record := j.log.filter (fun r => r.tags.contains tag)

def setFailing (j : Volatile) (failing : Bool) : Volatile := { j with failing := failing }

end Volatile

end CartLedger.Journal
