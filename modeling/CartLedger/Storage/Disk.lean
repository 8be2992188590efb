import CartLedger.Entries

/-! A directory tree, as far as a store of carts needs one.

A disk is a list of entries, each under the names that lead to it from the base
directory. Only what the operating system would let happen happens: a file is made
where its directory is, a directory is not written to, and nothing lies below a file. -/
namespace CartLedger.Storage

/-- The names that lead from the base directory to an entry. -/
abbrev Path := List String

/-- A path as it is shown, behind the name of the base directory. -/
def Path.shown (base : String) (p : Path) : String := "/".intercalate (base :: p)

inductive Entry where
  | directory
  | file (bytes : List UInt8)
  deriving DecidableEq, Repr

/-- What the operating system objects. -/
inductive Trouble where
  | missing
  | other
  deriving DecidableEq, Repr

structure Disk where
  entries : List (Path × Entry)
  deriving Repr

namespace Disk

def empty : Disk := ⟨[]⟩

def find? (d : Disk) (p : Path) : Option Entry :=
  if p = [] then some .directory else Entries.find? p d.entries

def isFile (d : Disk) (p : Path) : Bool :=
  match d.find? p with
  | some (.file _) => true
  | _ => false

def isDirectory (d : Disk) (p : Path) : Bool := d.find? p = some .directory

/-- The path itself and everything above it, from the top. -/
def stations (p : Path) : List Path := (List.range (p.length + 1)).map (fun n => p.take n)

/-- Whether the path leads to a file or through one. -/
def throughFile (d : Disk) (p : Path) : Bool := (stations p).any d.isFile

/-- What is at a path. -/
def look (d : Disk) (p : Path) : Except Trouble Entry :=
  match d.find? p with
  | some e => .ok e
  | none => .error (if d.throughFile p then .other else .missing)

def erase (d : Disk) (p : Path) : Disk := ⟨Entries.erase p d.entries⟩

/-- The disk with an entry put in place, whatever was there. -/
def put (d : Disk) (p : Path) (e : Entry) : Disk := ⟨Entries.set p e d.entries⟩

/-! ### Directories -/

/-- Makes a directory and all above it that are missing. -/
def makeDirectories (d : Disk) (p : Path) : Except Trouble Disk :=
  if d.throughFile p then .error .other
  else .ok ((stations p).foldl (fun d q => if (d.find? q).isSome then d else d.put q .directory) d)

/-- The names in a directory, in no particular order. -/
def names (d : Disk) (p : Path) : Except Trouble (List String) :=
  match d.look p with
  | .error e => .error e
  | .ok (.file _) => .error .other
  | .ok .directory =>
    .ok (d.entries.filterMap fun e =>
      match e.1.getLast? with
      | some name => if e.1 = p ++ [name] then some name else none
      | none => none)

/-- The names of a directory's own directories. -/
def directoryNames (d : Disk) (p : Path) : Except Trouble (List String) :=
  (d.names p).map (·.filter fun name => d.isDirectory (p ++ [name]))

/-! ### Files -/

def read (d : Disk) (p : Path) : Except Trouble (List UInt8) :=
  match d.look p with
  | .error e => .error e
  | .ok .directory => .error .other
  | .ok (.file bytes) => .ok bytes

/-- Makes a file hold exactly these bytes. Its directory has to be there. -/
def write (d : Disk) (p : Path) (bytes : List UInt8) : Except Trouble Disk :=
  match d.look p with
  | .ok .directory => .error .other
  | .ok (.file _) => .ok (d.put p (.file bytes))
  | .error .other => .error .other
  | .error .missing =>
    if d.isDirectory p.dropLast then .ok (d.put p (.file bytes)) else .error .missing

/-- Adds bytes to a file, which is made if it is missing. -/
def append (d : Disk) (p : Path) (bytes : List UInt8) : Except Trouble Disk :=
  match d.read p with
  | .ok old => d.write p (old ++ bytes)
  | .error .missing => d.write p bytes
  | .error .other => .error .other

/-- Gives a file another name; a file of that name is replaced. -/
def rename (d : Disk) (source target : Path) : Except Trouble Disk :=
  match d.read source with
  | .error e => .error e
  | .ok bytes => (d.write target bytes).map (·.erase source)

/-- Removes a file. -/
def remove (d : Disk) (p : Path) : Except Trouble Disk := (d.read p).map (fun _ => d.erase p)

/-- Removes a file, or a directory with everything in it. -/
def removeTree (d : Disk) (p : Path) : Except Trouble Disk :=
  (d.look p).map (fun _ => ⟨d.entries.filter (fun e => !p.isPrefixOf e.1)⟩)

end Disk

end CartLedger.Storage
