import CartLedger.Storage.Error

/-! Where things are on disk.

Streams, snapshots and the registry of streams have a directory each, and below it a
directory per entity type and one per entity. Names of entities are taken as they come,
so one that is not a plain name is refused before anything is looked at. -/
namespace CartLedger.Storage.Layout

/-- Whether a name denotes an entry of its own in a directory. -/
def isUsable (name : String) : Bool :=
  name ≠ "" ∧ name ≠ "." ∧ name ≠ ".." ∧
    name.toList.all (fun c => c ≠ '/' ∧ c ≠ '\\' ∧ c ≠ '\x00')

def component (name : String) : Except StorageError String :=
  if isUsable name then .ok name else .error (.unusableName name)

def streamsDirectory : Path := ["streams"]

def entityDirectory (top : String) (id : StreamId) : Except StorageError Path := do
  let entityType ← component id.entityType
  let entityId ← component id.entityId
  return [top, entityType, entityId]

def streamDirectory (id : StreamId) : Except StorageError Path := entityDirectory "streams" id

def eventsFile (id : StreamId) : Except StorageError Path := do
  return (← streamDirectory id) ++ ["events.jsonl"]

def snapshotDirectory (id : StreamId) : Except StorageError Path := entityDirectory "snapshots" id

def metaDirectory : Path := ["meta"]

def registryFile : Path := metaDirectory ++ ["streams.jsonl"]

/-! ### Listings -/

/-- The names of the directories in a directory, in order; none if it is missing. -/
def subdirectories (d : Disk) (p : Path) : Except StorageError (List String) :=
  match d.directoryNames p with
  | .ok names => .ok (names.mergeSort (fun a b => a ≤ b))
  | .error .missing => .ok []
  | .error .other => .error (.system .other)

def entityTypes (d : Disk) : Except StorageError (List String) := subdirectories d streamsDirectory

def entityIds (d : Disk) (entityType : String) : Except StorageError (List String) := do
  let name ← component entityType
  subdirectories d (streamsDirectory ++ [name])

end CartLedger.Storage.Layout
