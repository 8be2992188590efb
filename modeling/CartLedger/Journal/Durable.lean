import CartLedger.Journal.Numbering
import CartLedger.Record.Codec
import CartLedger.Storage.Registry

/-! Journals on disk.

A stream is a file with a record on each line. Several journals may write to one disk.
Each remembers, for the streams it wrote, where the file ended and which number came
last, and trusts that as long as the file still has that length; otherwise it looks
again. What a write that was cut short left behind the last newline is not read, and is
cut off by the next record. -/
namespace CartLedger.Journal
open CartLedger.Json (Document)
open CartLedger.Storage

/-- The end of the intact part of a stream's file. -/
structure Tail where
  length : Nat
  highest : Nat
  deriving DecidableEq, Repr

structure Durable where
  disk : Disk
  /-- What journals remember, by their numbers and streams. -/
  tails : List ((Nat × StreamId) × Tail)
  /-- How many journals were opened; they are numbered from zero. -/
  opened : Nat
  /-- The time of the system's own clock, in seconds. -/
  seconds : Nat

namespace Durable

def onDisk (d : Disk) : Durable := ⟨d, [], 0, 0⟩

/-- One more journal, which remembers nothing yet. -/
def openNew (s : Durable) : Nat × Durable := (s.opened, { s with opened := s.opened + 1 })

def remembered (s : Durable) (journal : Nat) (id : StreamId) : Option Tail :=
  Entries.find? (journal, id) s.tails

def forget (s : Durable) (journal : Nat) (id : StreamId) : Durable :=
  { s with tails := Entries.erase (journal, id) s.tails }

def remember (s : Durable) (journal : Nat) (id : StreamId) (tail : Tail) : Durable :=
  { s with tails := Entries.set (journal, id) tail s.tails }

/-! ### Reading a file -/

/-- The intact part of a stream's file; nothing if it is missing. -/
def intact (d : Disk) (file : Path) : Except StorageError (List UInt8) :=
  match d.read file with
  | .ok bytes => .ok (Text.Lines.intact bytes)
  | .error .missing => .ok []
  | .error .other => .error (.system .other)

/-- Decodes what is on line `number`. -/
def line (file : Path) (number : Nat) (decoder : Json.Decoder α) (bytes : List UInt8) :
    Except StorageError α :=
  match (Document.ofBytes bytes).decode decoder with
  | .ok a => .ok a
  | .error _ => .error (.illegibleLine file number)

/-- The records numbered `start` or later. Of the others only the number is understood. -/
def records (file : Path) (start : Nat) : List (Nat × List UInt8) → Except StorageError (List Record)
  | [] => .ok []
  | (number, bytes) :: rest => do
    let position ← line file number Record.position bytes
    if position < start then records file start rest
    else
      let r ← line file number Record.decoder bytes
      let rs ← records file start rest
      return r :: rs

def readFile (d : Disk) (file : Path) (start : Nat) : Except StorageError (List Record) := do
  let bytes ← intact d file
  records file start (Text.Lines.numbered bytes)

/-- Finds the end of a file, understanding no more than the number on its last line. -/
def scan (d : Disk) (file : Path) : Except StorageError Tail := do
  let bytes ← intact d file
  match (Text.Lines.numbered bytes).getLast? with
  | none => return ⟨bytes.length, 0⟩
  | some (number, last) => return ⟨bytes.length, ← line file number Record.position last⟩

/-- The length of a file, cut or not. -/
def length (d : Disk) (file : Path) : Except StorageError Nat :=
  match d.read file with
  | .ok bytes => .ok bytes.length
  | .error .missing => .ok 0
  | .error .other => .error (.system .other)

/-- What is remembered if the file still has that length, otherwise what a look at the
file says. -/
def currentTail (d : Disk) (file : Path) (known : Option Tail) : Except StorageError Tail := do
  let length ← length d file
  match known with
  | some tail => if tail.length = length then return tail else scan d file
  | none => scan d file

/-! ### The journal's operations -/

/-- The bytes of a record's line. -/
def lineOf (r : Record) : List UInt8 := Text.Utf8.encode (r.toJson.compact ++ ['\n'])

/-- Writes a record behind the intact part of its file. -/
def place (file : Path) (tail : Tail) (r : Record) (d : Disk) : Except StorageError Disk :=
  match d.read file with
  | .ok bytes => Registry.system (d.write file (bytes.take tail.length ++ lineOf r))
  | .error .missing => Registry.system (d.write file (lineOf r))
  | .error .other => .error (.system .other)

/-- Adds a record to its stream, and says its number. A stream that the journal does not
remember is begun. -/
def append (s : Durable) (journal : Nat) (r : Record) : Except StorageError Nat × Durable :=
  let known := s.remembered journal r.stream
  let (begun, disk) :=
    if known.isSome then (.ok [], s.disk) else Registry.ensure r.stream s.seconds s.disk
  let s := { s with disk := disk }
  match begun, Layout.eventsFile r.stream with
  | .error e, _ => (.error e, s)
  | .ok _, .error e => (.error e, s)
  | .ok _, .ok file =>
    match currentTail s.disk file known with
    | .error e => (.error e, s.forget journal r.stream)
    | .ok tail =>
      match checkNext r tail.highest with
      | .error e => (.error e, s.remember journal r.stream tail)
      | .ok () =>
        match place file tail r s.disk with
        | .error e => (.error e, s.forget journal r.stream)
        | .ok disk =>
          let tail := ⟨tail.length + (lineOf r).length, r.sequenceNr⟩
          (.ok r.sequenceNr, { s with disk := disk }.remember journal r.stream tail)

def readFrom (s : Durable) (id : StreamId) (start : Nat) : Except StorageError (List Record) := do
  readFile s.disk (← Layout.eventsFile id) start

def highest (s : Durable) (journal : Nat) (id : StreamId) : Except StorageError Nat × Durable :=
  match Layout.eventsFile id with
  | .error e => (.error e, s)
  | .ok file =>
    match currentTail s.disk file (s.remembered journal id) with
    | .error e => (.error e, s)
    | .ok tail => (.ok tail.highest, s.remember journal id tail)

/-- The records of one stream that have a tag. -/
def taggedIn (d : Disk) (tag : String) (id : StreamId) : Except StorageError (List Record) := do
  let rs ← readFile d (← Layout.eventsFile id) 0
  return rs.filter (fun r => r.tags.contains tag)

/-- The records with a tag: stream by stream, by type and then by id. -/
def byTag (s : Durable) (tag : String) : Except StorageError (List Record) := do
  let types ← Layout.entityTypes s.disk
  let found ← types.mapM fun entityType => do
    let ids ← Layout.entityIds s.disk entityType
    let found ← ids.mapM fun entityId => taggedIn s.disk tag ⟨entityType, entityId⟩
    return found.flatten
  return found.flatten

end Durable

end CartLedger.Journal
