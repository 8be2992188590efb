import CartLedger.Json.Draft

/-! Decoding drafts into domain types.

A decoder takes the parts of a draft in the order in which they stand there and stops
at the first fault. A record is an object whose members it knows by name, in any order,
or the list of its members' values in declaration order. Members that it does not know
are passed over; a member that it knows may stand there once. A choice is tagged: its
name is the member `type`, and what it holds is the member `data`, in either order. -/
namespace CartLedger.Json

/-- Why a draft is refused. -/
inductive Fault where
  /-- An item id without a character. -/
  | emptyItemId
  /-- Anything else. -/
  | malformed
  deriving DecidableEq, Repr

abbrev Decoder (α : Type) := Draft → Except Fault α

namespace Decoder

/-! ### Simple values -/

def text : Decoder String
  | .text (some s) => .ok s
  | _ => .error .malformed

def flag : Decoder Bool
  | .bool b => .ok b
  | _ => .error .malformed

/-- An integer that lies in `[low, high)`. -/
def integer (low high : Int) : Decoder Int
  | .number (some (.integer n)) => if low ≤ n ∧ n < high then .ok n else .error .malformed
  | _ => .error .malformed

/-- A natural number of 64 bits. -/
def natural : Decoder Nat := fun d => (integer 0 UInt64.size d).map Int.toNat

def word32 : Decoder UInt32 := fun d => (integer 0 UInt32.size d).map (fun n => UInt32.ofNat n.toNat)

def signed32 : Decoder Int32 := fun d => (integer (-0x80000000) 0x80000000 d).map Int32.ofInt

/-- Any value; its lists and objects may nest `room` deep. -/
def value (room : Nat) : Decoder Json := fun d =>
  match d.toJson? room with
  | some v => .ok v
  | none => .error .malformed

/-- Nothing for `null`. -/
def option (d : Decoder α) : Decoder (Option α)
  | .null => .ok none
  | v => (d v).map some

def items (d : Decoder α) : List Draft → Except Fault (List α)
  | [] => .ok []
  | item :: rest => do
    let a ← d item
    let as ← items d rest
    return a :: as

def list (d : Decoder α) : Decoder (List α)
  | .list ds => items d ds
  | _ => .error .malformed

/-! ### Records -/

structure Field where
  name : String
  check : Draft → Except Fault Unit

def field (name : String) (d : Decoder α) : Field := ⟨name, fun v => (d v).map (fun _ => ())⟩

/-- Checks the members one after another, `seen` being the known names passed. -/
def checkMembers (fields : List Field) (seen : List String) : List Draft.Member → Except Fault Unit
  | [] => .ok ()
  | (none, _) :: _ => .error .malformed
  | (some key, v) :: rest =>
    match fields.find? (fun f => f.name = key) with
    | none => checkMembers fields seen rest
    | some f =>
      if key ∈ seen then .error .malformed
      else
        match f.check v with
        | .error e => .error e
        | .ok () => checkMembers fields (key :: seen) rest

def find? (name : String) (members : List Draft.Member) : Option Draft :=
  (members.find? (fun m => m.1 = some name)).map (·.2)

/-- The member of that name, which has to be there. -/
def required (name : String) (d : Decoder α) (members : List Draft.Member) : Except Fault α :=
  match find? name members with
  | some v => d v
  | none => .error .malformed

/-- The member of that name; `null` stands for none, and so does its absence. -/
def optional (name : String) (d : Decoder α) (members : List Draft.Member) :
    Except Fault (Option α) :=
  match find? name members with
  | some v => option d v
  | none => .ok none

/-- The members of a record given as an object, or as the list of its members' values,
of which the last `spare` may be missing. -/
def members (names : List String) (spare : Nat) : Draft → Except Fault (List Draft.Member)
  | .object ms => .ok ms
  | .list ds =>
    let fits := names.length ≤ ds.length + spare ∧ ds.length ≤ names.length
    .ok ((names.map some).zip ds ++ if fits then [] else [Draft.lost])
  | _ => .error .malformed

/-- A record that may be given as an object only. -/
def objectOnly (fields : List Field) (build : List Draft.Member → Except Fault α) : Decoder α
  | .object ms => do
    checkMembers fields [] ms
    build ms
  | _ => .error .malformed

/-- A record whose last `spare` members may be missing when it is given as a list. -/
def recordWith (spare : Nat) (fields : List Field)
    (build : List Draft.Member → Except Fault α) : Decoder α := fun d => do
  let ms ← members (fields.map (·.name)) spare d
  checkMembers fields [] ms
  build ms

def record (fields : List Field) (build : List Draft.Member → Except Fault α) : Decoder α :=
  recordWith 0 fields build

/-! ### Tagged choices -/

structure Variant (α : Type) where
  name : String
  body : Decoder α
  /-- What the name alone stands for. -/
  bare : Except Fault α := .error .malformed

/-- A variant without data. -/
def unit (name : String) (a : α) : Variant α where
  name := name
  body
    | .null => .ok a
    | _ => .error .malformed
  bare := .ok a

inductive Role where
  | tag
  | data
  /-- A member without a legible name. -/
  | illegible
  deriving DecidableEq, Repr

def roleOf : Option String → Option Role
  | none => some .illegible
  | some "type" => some .tag
  | some "data" => some .data
  | some _ => none

/-- The members that matter to a tagged choice, in order. -/
def roles (ms : List Draft.Member) : List (Role × Draft) :=
  ms.filterMap fun m => (roleOf m.1).map (·, m.2)

/-- A name, plain or as the only member of an object that holds nothing for it. -/
def tagName? : Draft → Option String
  | .text s => s
  | .object [(name, .null)] => name
  | _ => none

def variant? (variants : List (Variant α)) (name : Option String) : Except Fault (Variant α) :=
  match variants.find? (fun v => some v.name = name) with
  | some v => .ok v
  | none => .error .malformed

/-- A result that stands only if nothing of interest follows. -/
def closing (rest : List β) (a : α) : Except Fault α :=
  if rest.isEmpty then .ok a else .error .malformed

/-- Data that comes before its tag is read in full before it is understood.

How deep it may nest then is what a reader of texts allows. A decoder does not know where its
draft is from, so a value that was never a text is held to the same limit, though nothing reads
it: with data that nests more than 126 deep in front of its tag it is refused, where it could be
understood. Values that were read from a text stay within the limit. -/
def tagged (variants : List (Variant α)) : Decoder α
  | .object ms =>
    match roles ms with
    | [(.tag, t)] => do
      let v ← variant? variants (tagName? t)
      v.bare
    | (.tag, t) :: (.data, d) :: rest => do
      let v ← variant? variants (tagName? t)
      let a ← v.body d
      closing rest a
    | (.data, d) :: (.tag, t) :: rest => do
      let _ ← value (Draft.depthLimit - 1) d
      let v ← variant? variants (tagName? t)
      let a ← v.body d
      closing rest a
    | _ => .error .malformed
  | .list (.text name :: d :: rest) => do
    let v ← variant? variants name
    let a ← v.body d
    closing rest a
  | _ => .error .malformed

end Decoder

/-! ### Where drafts come from -/

/-- Decodes a value. Its nesting is not limited, except where a decoder reads a part of it in
full (`Decoder.tagged`). -/
def decode (d : Decoder α) (v : Json) : Except Fault α := d (Draft.ofJson v)

/-- A document has to end where the value does. -/
def Document.decode (d : Decoder α) (doc : Document) : Except Fault α :=
  match d doc.root with
  | .error e => .error e
  | .ok a => if doc.complete then .ok a else .error .malformed

end CartLedger.Json
