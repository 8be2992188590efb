import CartLedger.Json.Printer
import CartLedger.Json.Reader
import CartLedger.Snapshot.Basic
import CartLedger.Storage.Layout

/-! Snapshots on disk: a file for each, named so that names sort as numbers do.

A new file is written under a temporary name first, so that it is there completely or
not at all. A file that makes no sense is passed over in favour of an older one. -/
namespace CartLedger.Snapshot.Durable
open CartLedger.Json (Decoder Document)
open CartLedger.Storage

/-! ### File names -/

def fileName (sequenceNr : Nat) : String :=
  "snapshot-" ++ String.ofList (Text.Decimal.padded 20 sequenceNr) ++ ".json"

def temporaryName (sequenceNr : Nat) : String := fileName sequenceNr ++ ".tmp"

/-- A number of 64 bits, any number of leading zeros and a plus sign allowed. -/
def number? (cs : List Char) : Option Nat :=
  let ds := match cs with
    | '+' :: rest => rest
    | cs => cs
  if ds ≠ [] ∧ ds.all Char.isDigit ∧ Text.Decimal.value ds < UInt64.size then some (Text.Decimal.value ds)
  else none

/-- What follows `word`. -/
def after? : List Char → List Char → Option (List Char)
  | [], cs => some cs
  | w :: ws, c :: cs => if w = c then after? ws cs else none
  | _ :: _, [] => none

/-- What stands before `word` at the end. -/
def before? (word cs : List Char) : Option (List Char) :=
  (after? word.reverse cs.reverse).map List.reverse

/-- The number of the snapshot in a file of that name. -/
def sequenceNr? (name : String) : Option Nat := do
  let cs ← after? "snapshot-".toList name.toList
  let cs ← before? ".json".toList cs
  number? cs

/-! ### Files -/

/-- The numbers of the snapshots in a directory, the latest first. -/
def list (d : Disk) (directory : Path) : Except StorageError (List Nat) :=
  match d.names directory with
  | .ok names => .ok ((names.filterMap sequenceNr?).mergeSort (fun a b => b ≤ a))
  | .error .missing => .ok []
  | .error .other => .error (.system .other)

/-- Removes the files of snapshots up to a number, in the order given. -/
def prune (directory : Path) (upto : Nat) : List Nat → Disk → Except StorageError Unit × Disk
  | [], d => (.ok (), d)
  | n :: rest, d =>
    if n ≤ upto then
      match d.remove (directory ++ [fileName n]) with
      | .error t => (.error (.system t), d)
      | .ok d => prune directory upto rest d
    else prune directory upto rest d

/-- Writes a file under its temporary name and gives it its own. -/
def place (directory : Path) (sequenceNr : Nat) (bytes : List UInt8) (d : Disk) :
    Except StorageError Unit × Disk :=
  match d.makeDirectories directory with
  | .error t => (.error (.system t), d)
  | .ok d =>
    let temporary := directory ++ [temporaryName sequenceNr]
    match d.write temporary bytes with
    | .error t => (.error (.system t), d)
    | .ok d =>
      match d.rename temporary (directory ++ [fileName sequenceNr]) with
      | .error t => (.error (.system t), d)
      | .ok d => (.ok (), d)

def bytesOf (snapshot : Snapshot Json) : List UInt8 := Text.Utf8.encode snapshot.toJson.pretty

/-- Adds a snapshot, then discards those that are not to be kept, be it itself. What was
done before something fails stays done. -/
def save (d : Disk) (id : StreamId) (snapshot : Snapshot Json) (retention : Retention) :
    Except StorageError Unit × Disk :=
  match Layout.snapshotDirectory id with
  | .error e => (.error e, d)
  | .ok directory =>
    match place directory snapshot.sequenceNr (bytesOf snapshot) d with
    | (.error e, d) => (.error e, d)
    | (.ok (), d) =>
      match list d directory with
      | .error e => (.error e, d)
      | .ok numbers => prune directory (retention.deleteUpto snapshot.sequenceNr) numbers d

/-- The first of the numbered files that is there and makes sense. -/
def firstLegible (d : Disk) (directory : Path) (state : Decoder α) :
    List Nat → Except StorageError (Option (Snapshot α))
  | [] => .ok none
  | n :: rest =>
    match d.read (directory ++ [fileName n]) with
    | .error .missing => firstLegible d directory state rest
    | .error .other => .error (.system .other)
    | .ok bytes =>
      match (Document.ofBytes bytes).decode (Snapshot.decoder state) with
      | .ok snapshot => .ok (some snapshot)
      | .error _ => firstLegible d directory state rest

/-- The latest snapshot that makes sense. -/
def load (d : Disk) (id : StreamId) (state : Decoder α) : Except StorageError (Option (Snapshot α)) := do
  let directory ← Layout.snapshotDirectory id
  firstLegible d directory state (← list d directory)

end CartLedger.Snapshot.Durable
