import CartLedger.Text.Decimal
import CartLedger.Time.Date

/-! Instants in universal time, and their text.

An instant is a date and a time of day down to the nanosecond. A minute may have a
sixty-first second, which is kept; no other second is longer than a second. The text is that of RFC 3339 with the fewest of 0,
3, 6 or 9 fraction digits that are exact, and with a sign in front of years that do not
have four digits. Reading is more generous: it allows blanks between the parts, fewer
digits, a blank for the `T`, and any offset in whole minutes. -/
namespace CartLedger.Time

structure IsTimeOfDay (hour minute second nanosecond : Nat) : Prop where
  hour_lt : hour < 24
  minute_lt : minute < 60
  second_le : second ≤ 60
  nanosecond_lt : nanosecond < 1000000000

instance (h m s n : Nat) : Decidable (IsTimeOfDay h m s n) :=
  decidable_of_iff (h < 24 ∧ m < 60 ∧ s ≤ 60 ∧ n < 1000000000)
    ⟨fun ⟨a, b, c, d⟩ => ⟨a, b, c, d⟩, fun ⟨a, b, c, d⟩ => ⟨a, b, c, d⟩⟩

/-- An instant that has a text of its own.

A clock may show a second that goes on for up to another whole one. If it is the last of its
minute, what goes on is the sixty-first second here. Any other such second has no place in
this type: it is written as the second after it, and is read as that one. Instants with these
seconds among them, and what their texts keep of them, are in `Proofs/Time/Instant.lean`. -/
structure Timestamp where
  date : Date
  hour : Nat
  minute : Nat
  second : Nat
  nanosecond : Nat
  isTimeOfDay : IsTimeOfDay hour minute second nanosecond
  deriving DecidableEq

namespace Timestamp
open Text

def of? (date : Date) (hour minute second nanosecond : Nat) : Option Timestamp :=
  if h : IsTimeOfDay hour minute second nanosecond then
    some ⟨date, hour, minute, second, nanosecond, h⟩
  else none

/-- The date that lies `days` after, for `-1 ≤ days ≤ 1`. -/
def shiftDate? (date : Date) (days : Int) : Option Date :=
  if days < 0 then date.previous? else if 0 < days then date.next? else some date

/-- The instant at which clocks that are `offset` minutes ahead of universal time show
this date and time of day. -/
def ofLocal? (date : Date) (hour minute second nanosecond : Nat) (offset : Int) :
    Option Timestamp := do
  guard (IsTimeOfDay hour minute second nanosecond)
  let minutes := (hour * 60 + minute : Nat) - offset
  let date ← shiftDate? date (minutes / 1440)
  let rest := (minutes % 1440).toNat
  of? date (rest / 60) (rest % 60) second nanosecond

/-! ### Writing -/

def yearText (year : Int) : List Char :=
  if 0 ≤ year ∧ year ≤ 9999 then Decimal.padded 4 year.toNat
  else (if year < 0 then '-' else '+') :: Decimal.padded 4 year.natAbs

def fractionText (nanosecond : Nat) : List Char :=
  if nanosecond = 0 then []
  else if nanosecond % 1000000 = 0 then '.' :: Decimal.padded 3 (nanosecond / 1000000)
  else if nanosecond % 1000 = 0 then '.' :: Decimal.padded 6 (nanosecond / 1000)
  else '.' :: Decimal.padded 9 nanosecond

def text (t : Timestamp) : List Char :=
  yearText t.date.year ++ '-' :: (Decimal.padded 2 t.date.month ++ '-' ::
    (Decimal.padded 2 t.date.day ++ 'T' :: (Decimal.padded 2 t.hour ++ ':' ::
      (Decimal.padded 2 t.minute ++ ':' :: (Decimal.padded 2 t.second ++
        (fractionText t.nanosecond ++ ['Z']))))))

def toString (t : Timestamp) : String := String.ofList t.text

/-! ### Reading -/

/-- Characters of the property White_Space. -/
def isSpace (c : Char) : Bool :=
  ('\t' ≤ c && c ≤ '\r') || c = ' ' || c = '\u0085' || c = '\u00a0' || c = '\u1680' ||
    ('\u2000' ≤ c && c ≤ '\u200a') || c = '\u2028' || c = '\u2029' || c = '\u202f' ||
    c = '\u205f' || c = '\u3000'

def skipSpace (cs : List Char) : List Char := cs.dropWhile isSpace

/-- What follows the character `c`, blanks in front of it aside. -/
def mark? (c : Char) (cs : List Char) : Option (List Char) :=
  match skipSpace cs with
  | d :: rest => if c = d then some rest else none
  | [] => none

/-- A number of at most `limit` digits, blanks in front of it aside. -/
def number? (limit : Nat) (cs : List Char) : Option (Nat × List Char) :=
  Decimal.read? limit (skipSpace cs)

/-- A year: four digits at most, or any number of them behind a sign. -/
def year? (cs : List Char) : Option (Int × List Char) :=
  match skipSpace cs with
  | '-' :: rest => (Decimal.read? rest.length rest).map fun (n, after) => (-(n : Int), after)
  | '+' :: rest => (Decimal.read? rest.length rest).map fun (n, after) => ((n : Int), after)
  | cs => (Decimal.read? 4 cs).map fun (n, after) => ((n : Int), after)

/-- A fraction of a second in nanoseconds; digits past the ninth are dropped. -/
def fraction? : List Char → Option (Nat × List Char)
  | '.' :: rest =>
    match Decimal.span 9 rest with
    | ([], _) => none
    | (ds, after) =>
      some (Decimal.value (ds ++ List.replicate (9 - ds.length) '0'), after.dropWhile Char.isDigit)
  | cs => some (0, cs)

/-- Hours and minutes of an offset, two digits each. -/
def offsetMinutes? (cs : List Char) : Option (Int × List Char) :=
  match cs with
  | a :: b :: rest =>
    match rest.dropWhile (fun c => c = ':' || isSpace c) with
    | c :: d :: after =>
      if a.isDigit && b.isDigit && c.isDigit && d.isDigit then
        let hours := Decimal.value [a, b]
        let minutes := Decimal.value [c, d]
        if hours < 24 ∧ minutes < 60 then some ((hours * 60 + minutes : Nat), after) else none
      else none
    | _ => none
  | _ => none

/-- An offset from universal time in minutes: a `Z`, the letters `UTC`, or a sign with
hours and minutes. -/
def offset? (cs : List Char) : Option (Int × List Char) :=
  match cs with
  | 'Z' :: rest => some (0, rest)
  | 'z' :: rest => some (0, rest)
  | '+' :: rest => offsetMinutes? rest
  | '-' :: rest => (offsetMinutes? rest).map fun (n, after) => (-n, after)
  | '\u2212' :: rest => (offsetMinutes? rest).map fun (n, after) => (-n, after)
  | a :: b :: c :: rest =>
    if a.toLower = 'u' ∧ b.toLower = 't' ∧ c.toLower = 'c' then some (0, rest) else none
  | _ => none

/-- What stands between the date and the time of day. -/
def separator? : List Char → Option (List Char)
  | c :: rest => if c = 'T' ∨ c = 't' ∨ c = ' ' then some rest else none
  | [] => none

def read? (cs : List Char) : Option Timestamp := do
  let (year, cs) ← year? cs
  let cs ← mark? '-' cs
  let (month, cs) ← number? 2 cs
  let cs ← mark? '-' cs
  let (day, cs) ← number? 2 cs
  let cs ← separator? cs
  let (hour, cs) ← number? 2 cs
  let cs ← mark? ':' cs
  let (minute, cs) ← number? 2 cs
  let cs ← mark? ':' cs
  let (second, cs) ← number? 2 cs
  let (nanosecond, cs) ← fraction? cs
  let (offset, cs) ← offset? (skipSpace cs)
  guard (skipSpace cs).isEmpty
  let date ← Date.of? year month day
  ofLocal? date hour minute second nanosecond offset

def ofString? (s : String) : Option Timestamp := read? s.toList

end Timestamp

end CartLedger.Time
