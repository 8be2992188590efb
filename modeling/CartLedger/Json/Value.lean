import CartLedger.Json.Binary64
import CartLedger.OrderedMap

/-! JSON values.

Members of an object keep the order in which they are listed, since that is the order
in which a document shows them. A value has one canonical listing, `canonical`, with
keys ascending and, of members with one key, the last. -/
namespace CartLedger

inductive Json.Number where
  | integer (n : Int)
  /-- A number written with a fraction or an exponent, or beyond 64 bits. -/
  | real (negative : Bool) (magnitude : Json.Binary64)
  deriving DecidableEq, Repr

inductive Json where
  | null
  | bool (b : Bool)
  | number (n : Json.Number)
  | text (s : String)
  | list (items : List Json)
  | object (members : List (String × Json))
  deriving Repr, Inhabited

namespace Json

def natural (n : Nat) : Json := .number (.integer n)

def integer (n : Int) : Json := .number (.integer n)

def isNull : Json → Bool
  | .null => true
  | _ => false

/-- The member of that name; nothing for a value that is no object. -/
def member? (key : String) : Json → Option Json
  | .object members => Entries.find? key members
  | _ => none

def text? : Json → Option String
  | .text s => some s
  | _ => none

mutual

/-- The same value with keys ascending; of members with one key the last counts. -/
def canonical : Json → Json
  | .list items => .list (canonicalItems items)
  | .object members => .object (canonicalMembers [] members)
  | .null => .null
  | .bool b => .bool b
  | .number n => .number n
  | .text s => .text s

def canonicalItems : List Json → List Json
  | [] => []
  | item :: rest => canonical item :: canonicalItems rest

def canonicalMembers (kept : List (String × Json)) : List (String × Json) → List (String × Json)
  | [] => kept
  | (key, value) :: rest => canonicalMembers (Entries.put key (canonical value) kept) rest

end

end Json

end CartLedger
