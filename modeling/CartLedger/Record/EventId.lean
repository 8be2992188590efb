/-! Ids of recorded events: 128 bits, written as 32 hexadecimal digits in five groups. -/
namespace CartLedger.Record

structure EventId where
  digits : List (Fin 16)
  length_digits : digits.length = 32
  deriving DecidableEq

namespace EventId

def of? (digits : List (Fin 16)) : Option EventId :=
  if h : digits.length = 32 then some ⟨digits, h⟩ else none

/-- The digit that tells how an id came about; random ids have a 4 there. -/
def version (e : EventId) : Fin 16 := e.digits.getD 12 0

/-! ### Text -/

def digitChar (d : Fin 16) : Char := Nat.digitChar d.val

def digitOf? (c : Char) : Option (Fin 16) :=
  if '0' ≤ c ∧ c ≤ '9' then some (Fin.ofNat 16 (c.toNat - '0'.toNat))
  else if 'a' ≤ c ∧ c ≤ 'f' then some (Fin.ofNat 16 (c.toNat - 'a'.toNat + 10))
  else if 'A' ≤ c ∧ c ≤ 'F' then some (Fin.ofNat 16 (c.toNat - 'A'.toNat + 10))
  else none

def text (e : EventId) : List Char :=
  let cs := e.digits.map digitChar
  cs.take 8 ++ '-' :: ((cs.drop 8).take 4 ++ '-' :: ((cs.drop 12).take 4 ++ '-' ::
    ((cs.drop 16).take 4 ++ '-' :: cs.drop 20)))

def toString (e : EventId) : String := String.ofList e.text

/-- The digits alone. -/
def readPlain? (cs : List Char) : Option EventId := do of? (← cs.mapM digitOf?)

/-- The digits of five groups. -/
def readGroups? (cs : List Char) : Option EventId :=
  if cs.length = 36 ∧ cs[8]? = some '-' ∧ cs[13]? = some '-' ∧ cs[18]? = some '-' ∧
      cs[23]? = some '-' then
    readPlain? (cs.take 8 ++ (cs.drop 9).take 4 ++ (cs.drop 14).take 4 ++ (cs.drop 19).take 4 ++
      cs.drop 24)
  else none

/-- What a URN has before the groups; its letters may be of either case. -/
def urnMark : List Char := "urn:uuid:".toList

/-- The digits with or without hyphens; with them also in braces or as a URN. -/
def read? (cs : List Char) : Option EventId :=
  match cs with
  | '\x7b' :: rest => if rest.getLast? = some '\x7d' then readGroups? rest.dropLast else none
  | cs =>
    if (cs.take urnMark.length).map Char.toLower = urnMark then
      readGroups? (cs.drop urnMark.length)
    else if cs.length = 32 then readPlain? cs
    else readGroups? cs

def ofString? (s : String) : Option EventId := read? s.toList

/-! ### New ids -/

/-- The lowest `width` hexadecimal digits of a number, the highest of them first. -/
def lowDigits (n : Nat) : Nat → List (Fin 16)
  | 0 => []
  | width + 1 => lowDigits (n / 16) width ++ [Fin.ofNat 16 n]

theorem length_lowDigits (n width : Nat) : (lowDigits n width).length = width := by
  induction width generalizing n with
  | zero => rfl
  | succ width ih => simp [lowDigits, ih]

/-- The `n`-th id that a run of the system gives out. It has the form of a random id;
chance plays no part in it. -/
def generated (n : Nat) : EventId where
  digits := List.replicate 12 0 ++ [4] ++ List.replicate 3 0 ++ [8] ++ lowDigits n 15
  length_digits := by simp [length_lowDigits]

end EventId

end CartLedger.Record
