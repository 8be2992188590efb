import CartLedger.Json.Value

/-! Documents as they are met.

A reader of a document learns of its faults only when it gets to them, and a part that
nobody asks for is passed over without being understood. A `Draft` keeps exactly that:
a string that is no text and a number out of range are still there, as `none`, and
where the document stops making sense stands a `cut`. Behind a cut nothing follows: a
list or an object that holds one ends with one.

A `Json` value is a draft without faults (`ofJson`), and a draft without faults stands
for one (`toJson?`). -/
namespace CartLedger.Json

inductive Draft where
  | null
  | bool (b : Bool)
  /-- Nothing for a number that no binary64 number is near. -/
  | number (n : Option Number)
  /-- Nothing for a string that holds half a surrogate pair or bytes that are no text. -/
  | text (s : Option String)
  | list (items : List Draft)
  /-- The members in the order of the document, repeated keys included. -/
  | object (members : List (Option String × Draft))
  /-- The document breaks off here. -/
  | cut
  deriving Repr, Inhabited

namespace Draft

abbrev Member := Option String × Draft

/-- What stands where a member should have come. -/
def lost : Member := (none, .cut)

mutual

def ofJson : Json → Draft
  | .null => .null
  | .bool b => .bool b
  | .number n => .number (some n)
  | .text s => .text (some s)
  | .list items => .list (ofItems items)
  | .object members => .object (ofMembers members)

def ofItems : List Json → List Draft
  | [] => []
  | item :: rest => ofJson item :: ofItems rest

def ofMembers : List (String × Json) → List Member
  | [] => []
  | (key, value) :: rest => (some key, ofJson value) :: ofMembers rest

end

mutual

/-- The canonical value of a draft without faults whose lists and objects nest at most
`room` deep. -/
def toJson? (room : Nat) : Draft → Option Json
  | .null => some .null
  | .bool b => some (.bool b)
  | .number n => n.map .number
  | .text s => s.map .text
  | .list items =>
    match room with
    | 0 => none
    | r + 1 => (toItems? r items).map .list
  | .object members =>
    match room with
    | 0 => none
    | r + 1 => (toMembers? r [] members).map .object
  | .cut => none

def toItems? (room : Nat) : List Draft → Option (List Json)
  | [] => some []
  | item :: rest =>
    match toJson? room item with
    | none => none
    | some v => (toItems? room rest).map (v :: ·)

def toMembers? (room : Nat) (kept : List (String × Json)) :
    List Member → Option (List (String × Json))
  | [] => some kept
  | (none, _) :: _ => none
  | (some key, value) :: rest =>
    match toJson? room value with
    | none => none
    | some v => toMembers? room (Entries.put key v kept) rest

end

/-- How deep lists and objects of a document may nest: the limit of a reader of texts. -/
def depthLimit : Nat := 127

end Draft

/-- A whole text: what it starts with, and whether nothing but blanks follows. -/
structure Document where
  root : Draft
  complete : Bool
  deriving Repr

/-- The value that a document stands for. -/
def Document.toJson? (d : Document) : Option Json :=
  if d.complete then d.root.toJson? Draft.depthLimit else none

end CartLedger.Json
