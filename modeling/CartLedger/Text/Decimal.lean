/-! Decimal numerals. -/
namespace CartLedger.Text.Decimal

/-- The numeral of `n`, without leading zeros. -/
def digits (n : Nat) : List Char := Nat.toDigits 10 n

/-- The numeral of `n` with leading zeros up to `width` digits. -/
def padded (width n : Nat) : List Char :=
  List.replicate (width - (digits n).length) '0' ++ digits n

/-- The number that a run of digits stands for. -/
def value (ds : List Char) : Nat := Nat.ofDigitChars 10 ds 0

def integer : Int → List Char
  | .ofNat n => digits n
  | .negSucc n => '-' :: digits (n + 1)

/-- The digits that the text starts with, at most `limit` of them, and what follows. -/
def span (limit : Nat) : List Char → List Char × List Char
  | [] => ([], [])
  | c :: rest =>
    match limit with
    | 0 => ([], c :: rest)
    | n + 1 =>
      if c.isDigit then
        let (ds, after) := span n rest
        (c :: ds, after)
      else ([], c :: rest)

/-- A number of one to `limit` digits at the head of the text. -/
def read? (limit : Nat) (cs : List Char) : Option (Nat × List Char) :=
  match span limit cs with
  | ([], _) => none
  | (ds, rest) => some (value ds, rest)

theorem value_digits (n : Nat) : value (digits n) = n := Nat.ofDigitChars_ten_toDigits

theorem value_padded (width n : Nat) : value (padded width n) = n := by
  simp [value, padded, digits, Nat.ofDigitChars_append]

end CartLedger.Text.Decimal
