import CartLedger.Json.Value

/-! Writing values.

`compact` writes no blanks, `pretty` one item or member per line with an indentation of
two. Both list members as the value lists them. In strings only the quote, the
backslash and control characters are escaped. -/
namespace CartLedger.Json

def hexDigit (n : Nat) : Char := Nat.digitChar n

def escape (c : Char) : List Char :=
  match c with
  | '"' => ['\\', '"']
  | '\\' => ['\\', '\\']
  | '\x08' => ['\\', 'b']
  | '\t' => ['\\', 't']
  | '\n' => ['\\', 'n']
  | '\x0c' => ['\\', 'f']
  | '\r' => ['\\', 'r']
  | c => if c < ' ' then ['\\', 'u', '0', '0', hexDigit (c.toNat / 16), hexDigit (c.toNat % 16)] else [c]

def quote (s : String) : List Char := '"' :: (s.toList.flatMap escape ++ ['"'])

def Number.numeral : Number → List Char
  | .integer n => Text.Decimal.integer n
  | .real negative magnitude => (if negative then ['-'] else []) ++ magnitude.numeral

def truth (b : Bool) : List Char := if b then "true".toList else "false".toList

mutual

def compact : Json → List Char
  | .null => "null".toList
  | .bool b => truth b
  | .number n => n.numeral
  | .text s => quote s
  | .list items => '[' :: (compactItems items ++ [']'])
  | .object members => '\x7b' :: (compactMembers members ++ ['\x7d'])

def compactItems : List Json → List Char
  | [] => []
  | [item] => compact item
  | item :: rest => compact item ++ ',' :: compactItems rest

def compactMembers : List (String × Json) → List Char
  | [] => []
  | [(key, value)] => quote key ++ ':' :: compact value
  | (key, value) :: rest => quote key ++ ':' :: (compact value ++ ',' :: compactMembers rest)

end

/-- A new line at a depth. -/
def lineBreak (depth : Nat) : List Char := '\n' :: List.replicate (2 * depth) ' '

mutual

/-- The value as it stands at a depth, without the indentation of its first line. -/
def prettyAt (depth : Nat) : Json → List Char
  | .null => "null".toList
  | .bool b => truth b
  | .number n => n.numeral
  | .text s => quote s
  | .list [] => "[]".toList
  | .list items => '[' :: (prettyItems (depth + 1) items ++ lineBreak depth ++ [']'])
  | .object [] => ['\x7b', '\x7d']
  | .object members => '\x7b' :: (prettyMembers (depth + 1) members ++ lineBreak depth ++ ['\x7d'])

def prettyItems (depth : Nat) : List Json → List Char
  | [] => []
  | [item] => lineBreak depth ++ prettyAt depth item
  | item :: rest => lineBreak depth ++ prettyAt depth item ++ ',' :: prettyItems depth rest

def prettyMembers (depth : Nat) : List (String × Json) → List Char
  | [] => []
  | [(key, value)] => lineBreak depth ++ quote key ++ ':' :: ' ' :: prettyAt depth value
  | (key, value) :: rest =>
    lineBreak depth ++ quote key ++ ':' :: ' ' :: (prettyAt depth value ++ ',' :: prettyMembers depth rest)

end

def pretty (v : Json) : List Char := prettyAt 0 v

end CartLedger.Json
