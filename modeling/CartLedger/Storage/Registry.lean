import CartLedger.Json.Printer
import CartLedger.Json.Reader
import CartLedger.Storage.Layout
import CartLedger.Text.Lines

/-! The registry of streams: a line for each stream that was ever begun.

A stream is entered once, at the end of the file; lines that make no sense are passed
over. -/
namespace CartLedger.Storage.Registry
open CartLedger.Json (Document)

/-- The line for a stream that is entered at the time `seconds`. -/
def entry (id : StreamId) (seconds : Nat) : List UInt8 :=
  Text.Utf8.encode (Json.compact (.object [("id", .text id.entityId), ("ts", .natural seconds),
    ("type", .text id.entityType)]) ++ ['\n'])

/-- Whether a line is an entry for the stream. -/
def names (id : StreamId) (line : List Char) : Bool :=
  match (Document.ofGlyphs (line.map some)).toJson? with
  | none => false
  | some v =>
    (v.member? "type").bind Json.text? = some id.entityType &&
      (v.member? "id").bind Json.text? = some id.entityId

/-- Looks for the stream line by line; a line that is no text ends the search in failure. -/
def search (id : StreamId) : List (List UInt8) → Except StorageError Bool
  | [] => .ok false
  | line :: rest =>
    match Text.Utf8.decode? line with
    | none => .error .illegible
    | some cs => if names id cs then .ok true else search id rest

/-- Whether the stream is entered. Without a file, none is. -/
def holds (d : Disk) (id : StreamId) : Except StorageError Bool :=
  match d.read Layout.registryFile with
  | .ok bytes => search id (Text.Lines.all bytes)
  | .error .missing => .ok false
  | .error .other => .error (.system .other)

/-- Lifts what the operating system says. -/
def system : Except Trouble α → Except StorageError α
  | .ok a => .ok a
  | .error t => .error (.system t)

/-- Sees to it that a stream has its directory and its entry, and says where the directory
is. What was done before something fails stays done. -/
def ensure (id : StreamId) (seconds : Nat) (d : Disk) : Except StorageError Path × Disk :=
  match Layout.streamDirectory id with
  | .error e => (.error e, d)
  | .ok directory =>
    match d.makeDirectories directory with
    | .error t => (.error (.system t), d)
    | .ok d =>
      match d.makeDirectories Layout.metaDirectory with
      | .error t => (.error (.system t), d)
      | .ok d =>
        match holds d id with
        | .error e => (.error e, d)
        | .ok true => (.ok directory, d)
        | .ok false =>
          match d.append Layout.registryFile (entry id seconds) with
          | .error t => (.error (.system t), d)
          | .ok d => (.ok directory, d)

end CartLedger.Storage.Registry
