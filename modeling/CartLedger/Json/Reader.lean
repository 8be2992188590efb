import CartLedger.Json.Draft
import CartLedger.Text.Utf8

/-! Reading documents.

The reader goes through the glyphs of a text once, from left to right, and always
answers: with a draft, and with the glyphs that follow it unless the text has broken
off. What a draft's strings and numbers mean is settled on the way; whether anybody
minds that they mean nothing is not the reader's business. -/
namespace CartLedger.Json.Reader
open Text.Utf8 (Glyph)

/-- Something read, and what follows it unless the text has broken off within. -/
abbrev Outcome (α : Type) := α × Option (List Glyph)

def isBlank (c : Char) : Bool := c = ' ' || c = '\t' || c = '\n' || c = '\r'

def skipBlanks : List Glyph → List Glyph
  | some c :: rest => if isBlank c then skipBlanks rest else some c :: rest
  | gs => gs

/-- What follows `word`, if the text starts with it. -/
def literal? : List Char → List Glyph → Option (List Glyph)
  | [], gs => some gs
  | c :: cs, some g :: rest => if c = g then literal? cs rest else none
  | _ :: _, _ => none

/-! ### Strings -/

def hexValue? (c : Char) : Option Nat :=
  if '0' ≤ c ∧ c ≤ '9' then some (c.toNat - '0'.toNat)
  else if 'a' ≤ c ∧ c ≤ 'f' then some (c.toNat - 'a'.toNat + 10)
  else if 'A' ≤ c ∧ c ≤ 'F' then some (c.toNat - 'A'.toNat + 10)
  else none

/-- The code unit of four hexadecimal digits. -/
def unit? (a b c d : Glyph) : Option Nat := do
  let a ← hexValue? (← a)
  let b ← hexValue? (← b)
  let c ← hexValue? (← c)
  let d ← hexValue? (← d)
  return ((a * 16 + b) * 16 + c) * 16 + d

def isHighSurrogate (u : Nat) : Bool := 0xD800 ≤ u && u < 0xDC00

def isLowSurrogate (u : Nat) : Bool := 0xDC00 ≤ u && u < 0xE000

/-- The character of a surrogate pair. -/
def pair (high low : Nat) : Char := Char.ofNat (0x10000 + (high - 0xD800) * 0x400 + (low - 0xDC00))

/-- The character that one letter behind a backslash stands for. -/
def shortEscape? (c : Char) : Option Char :=
  match c with
  | '"' => some '"'
  | '\\' => some '\\'
  | '/' => some '/'
  | 'b' => some '\x08'
  | 'f' => some '\x0c'
  | 'n' => some '\n'
  | 'r' => some '\r'
  | 't' => some '\t'
  | _ => none

/-- What one step through a string yields. -/
inductive Piece where
  | char (c : Char)
  /-- Half of a surrogate pair. -/
  | half (unit : Nat)
  /-- A byte that belongs to no character. -/
  | stray
  deriving DecidableEq, Repr

def pieceOfUnit (u : Nat) : Piece :=
  if isHighSurrogate u || isLowSurrogate u then .half u else .char (Char.ofNat u)

/-- The pieces of a string from behind its opening quote, and what follows its closing
quote. The text breaks off at its end, at a control character and at an escape that
does not exist. -/
def pieces : List Glyph → Outcome (List Piece)
  | [] => ([], none)
  | none :: rest =>
    let (ps, after) := pieces rest
    (.stray :: ps, after)
  | some '"' :: rest => ([], some rest)
  | some '\\' :: some 'u' :: a :: b :: c :: d :: rest =>
    match unit? a b c d with
    | none => ([], none)
    | some u =>
      let (ps, after) := pieces rest
      (pieceOfUnit u :: ps, after)
  | some '\\' :: some e :: rest =>
    match shortEscape? e with
    | none => ([], none)
    | some c =>
      let (ps, after) := pieces rest
      (.char c :: ps, after)
  | some '\\' :: _ => ([], none)
  | some c :: rest =>
    if c < ' ' then ([], none)
    else
      let (ps, after) := pieces rest
      (.char c :: ps, after)

/-- The characters of a string: halves count in pairs, high before low. -/
def join? : List Piece → Option (List Char)
  | [] => some []
  | .char c :: rest => (join? rest).map (c :: ·)
  | .half u :: .half v :: rest =>
    if isHighSurrogate u && isLowSurrogate v then (join? rest).map (pair u v :: ·) else none
  | _ => none

/-- A string from behind its opening quote. -/
def string (gs : List Glyph) : Outcome (Option String) :=
  let (ps, after) := pieces gs
  ((join? ps).map String.ofList, after)

/-! ### Numbers -/

/-- The run of digits that the text starts with, and what follows. -/
def digits : List Glyph → List Char × List Glyph
  | some c :: rest =>
    if c.isDigit then
      let (ds, after) := digits rest
      (c :: ds, after)
    else ([], some c :: rest)
  | gs => ([], gs)

/-- Takes digits into a significand as long as it fits 64 bits, and hands back
the digits that it did not take. -/
def absorb (significand : Nat) : List Char → Nat × List Char
  | [] => (significand, [])
  | d :: ds =>
    let next := significand * 10 + (d.toNat - '0'.toNat)
    if next < UInt64.size then absorb next ds else (significand, d :: ds)

/-- The number written `whole . fraction e exponent`. Without fraction and exponent it
is an integer if it fits 64 bits, except that minus zero is not one. Digits that the
significand cannot take are only counted, or, behind the point, dropped. -/
def numberOf (negative : Bool) (whole : List Char) (fraction : Option (List Char))
    (exponent : Option Int) : Option Number :=
  let (head, dropped) := absorb 0 whole
  let real := fun (significand : Nat) (power : Int) =>
    (Binary64.ofScientific significand power).map (Number.real negative)
  match fraction, exponent with
  | none, none =>
    if !dropped.isEmpty then real head dropped.length
    else if !negative then some (.integer head)
    else if 0 < head ∧ 2 * head ≤ UInt64.size then some (.integer (-head))
    else real head 0
  | _, _ =>
    let tail := fraction.getD []
    let (significand, rest) := absorb head tail
    let taken := tail.length - rest.length
    real significand (dropped.length - taken + exponent.getD 0)

/-- A fraction at the head of the text: none, or the digits behind a point; nothing at
all when the digits are missing. -/
def fraction? : List Glyph → Option (Option (List Char) × List Glyph)
  | some '.' :: rest =>
    match digits rest with
    | ([], _) => none
    | (ds, after) => some (some ds, after)
  | gs => some (none, gs)

/-- An exponent at the head of the text, in the same way. -/
def exponent? : List Glyph → Option (Option Int × List Glyph)
  | some c :: rest =>
    if c = 'e' ∨ c = 'E' then
      let (negative, body) :=
        match rest with
        | some '+' :: body => (false, body)
        | some '-' :: body => (true, body)
        | body => (false, body)
      match digits body with
      | ([], _) => none
      | (ds, after) =>
        let n : Int := Text.Decimal.value ds
        some (some (if negative then -n else n), after)
    else some (none, some c :: rest)
  | gs => some (none, gs)

/-- A number from behind its sign; nothing if there is none. -/
def number? (negative : Bool) (gs : List Glyph) : Option (Option Number × List Glyph) :=
  match digits gs with
  | ([], _) => none
  | (d :: ds, rest) =>
    if d = '0' ∧ ds ≠ [] then none
    else do
      let (fraction, rest) ← fraction? rest
      let (exponent, rest) ← exponent? rest
      return (numberOf negative (d :: ds) fraction exponent, rest)

/-! ### Values -/

def broken : Outcome Draft := (.cut, none)

def word (w : String) (d : Draft) (gs : List Glyph) : Outcome Draft :=
  match literal? w.toList gs with
  | some rest => (d, some rest)
  | none => broken

def numeral (negative : Bool) (gs : List Glyph) : Outcome Draft :=
  match number? negative gs with
  | some (n, rest) => (.number n, some rest)
  | none => broken

mutual

/-- The value that the text starts with. Each call takes one unit of `fuel`, and of two
nested calls at least one passes a glyph, so twice the number of glyphs is enough. -/
def value (fuel : Nat) (gs : List Glyph) : Outcome Draft :=
  match fuel with
  | 0 => broken
  | fuel + 1 =>
    match skipBlanks gs with
    | some 'n' :: rest => word "ull" .null rest
    | some 't' :: rest => word "rue" (.bool true) rest
    | some 'f' :: rest => word "alse" (.bool false) rest
    | some '"' :: rest =>
      match string rest with
      | (s, some after) => (.text s, some after)
      | (_, none) => broken
    | some '-' :: rest => numeral true rest
    | some '[' :: rest =>
      match skipBlanks rest with
      | some ']' :: after => (.list [], some after)
      | _ =>
        let (items, after) := elements fuel rest
        (.list items, after)
    | some '{' :: rest =>
      match skipBlanks rest with
      | some '}' :: after => (.object [], some after)
      | _ =>
        let (ms, after) := members fuel rest
        (.object ms, after)
    | gs => numeral false gs

/-- The items of a list from behind its bracket or a comma. -/
def elements (fuel : Nat) (gs : List Glyph) : Outcome (List Draft) :=
  match fuel with
  | 0 => ([.cut], none)
  | fuel + 1 =>
    match value fuel gs with
    | (item, none) => ([item, .cut], none)
    | (item, some rest) =>
      match skipBlanks rest with
      | some ',' :: rest =>
        let (items, after) := elements fuel rest
        (item :: items, after)
      | some ']' :: after => ([item], some after)
      | _ => ([item, .cut], none)

/-- The members of an object from behind its brace or a comma. -/
def members (fuel : Nat) (gs : List Glyph) : Outcome (List Draft.Member) :=
  match fuel with
  | 0 => ([Draft.lost], none)
  | fuel + 1 =>
    match skipBlanks gs with
    | some '"' :: rest =>
      match string rest with
      | (_, none) => ([Draft.lost], none)
      | (key, some rest) =>
        match skipBlanks rest with
        | some ':' :: rest =>
          match value fuel rest with
          | (v, none) => ([(key, v), Draft.lost], none)
          | (v, some rest) =>
            match skipBlanks rest with
            | some ',' :: rest =>
              let (ms, after) := members fuel rest
              ((key, v) :: ms, after)
            | some '}' :: after => ([(key, v)], some after)
            | _ => ([(key, v), Draft.lost], none)
        | _ => ([(key, .cut), Draft.lost], none)
    | _ => ([Draft.lost], none)

end

end Reader

namespace Document

def ofGlyphs (gs : List Text.Utf8.Glyph) : Document :=
  match Reader.value (2 * gs.length + 1) gs with
  | (root, some rest) => ⟨root, (Reader.skipBlanks rest).isEmpty⟩
  | (root, none) => ⟨root, false⟩

def ofString (s : String) : Document := ofGlyphs (s.toList.map some)

def ofBytes (bytes : List UInt8) : Document := ofGlyphs (Text.Utf8.glyphs bytes)

end Document

end CartLedger.Json
