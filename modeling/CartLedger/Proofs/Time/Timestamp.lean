import CartLedger.Proofs.Text.Decimal
import CartLedger.Time.Timestamp

/-! An instant is read back from its text.

The text has no blanks, its parts have the width that the reader expects, and the offset
is none, so each part is read up to its end and the instant is the one that was written
(`ofString?_toString`). -/
namespace CartLedger.Time.Timestamp
open Text

/-! ### Numbers without blanks -/

theorem isSpace_digit {c : Char} (h : c.isDigit) : isSpace c = false := by
  have hne : ∀ d : Char, d.isDigit = false → c ≠ d := fun d hd he => by rw [he, hd] at h; cases h
  simp only [Char.isDigit, Bool.and_eq_true, decide_eq_true_eq] at h
  have hlow : 48 ≤ c.toNat := h.1
  have hhigh : c.toNat ≤ 57 := h.2
  have hcontrol : ¬ c ≤ '\r' := fun hc => by
    have : c.toNat ≤ 13 := hc
    omega
  have hwide : ¬ '\u2000' ≤ c := fun hc => by
    have : 0x2000 ≤ c.toNat := hc
    omega
  simp [isSpace, hcontrol, hwide, hne ' ' rfl, hne '\u0085' rfl, hne '\u00a0' rfl, hne '\u1680' rfl,
    hne '\u2028' rfl, hne '\u2029' rfl, hne '\u202f' rfl, hne '\u205f' rfl, hne '\u3000' rfl]

theorem skipSpace_digits {ds : List Char} (hne : ds ≠ []) (hds : ∀ c ∈ ds, c.isDigit)
    (rest : List Char) : skipSpace (ds ++ rest) = ds ++ rest := by
  cases ds with
  | nil => exact absurd rfl hne
  | cons d ds =>
    rw [List.cons_append, skipSpace, List.dropWhile_cons_of_neg]
    simp [isSpace_digit (hds d (List.mem_cons_self ..))]

/-- Digits do not start with anything but a digit. -/
theorem digits_append_ne {ds : List Char} (hne : ds ≠ []) (hds : ∀ c ∈ ds, c.isDigit) {c : Char}
    (hc : c.isDigit = false) (rest rest' : List Char) : ds ++ rest ≠ c :: rest' := by
  cases ds with
  | nil => exact absurd rfl hne
  | cons d ds =>
    intro h
    obtain ⟨rfl, -⟩ := List.cons.inj h
    rw [hds d (List.mem_cons_self ..)] at hc
    cases hc

theorem number?_padded {width n : Nat} (hwidth : 0 < width) (h : n < 10 ^ width) (rest : List Char) :
    number? width (Decimal.padded width n ++ rest) = some (n, rest) := by
  rw [number?, skipSpace_digits (Decimal.padded_ne_nil width n) fun _ => Decimal.isDigit_of_mem_padded]
  exact Decimal.read?_padded hwidth h rest

theorem mark?_cons {c : Char} (h : isSpace c = false) (rest : List Char) :
    mark? c (c :: rest) = some rest := by
  rw [mark?, skipSpace, List.dropWhile_cons_of_neg (by simp [h])]
  exact if_pos rfl

/-! ### Years -/

/-- A year behind its sign: as many digits as there are. -/
theorem read?_signed (n : Nat) (rest : List Char) :
    Decimal.read? (Decimal.padded 4 n ++ '-' :: rest).length (Decimal.padded 4 n ++ '-' :: rest) =
      some (n, '-' :: rest) := by
  rw [Decimal.read?_append (Decimal.padded_ne_nil 4 n) (fun _ => Decimal.isDigit_of_mem_padded)
    (by rw [List.length_append]; omega) (.inr (Decimal.stops_cons rfl rest)), Decimal.value_padded]

theorem year?_yearText (year : Int) (rest : List Char) :
    year? (yearText year ++ '-' :: rest) = some (year, '-' :: rest) := by
  rw [yearText]
  split
  · rename_i h
    have hread := Decimal.read?_padded (by decide) (show year.toNat < 10 ^ 4 by omega) ('-' :: rest)
    have hne (c : Char) (hc : c.isDigit = false) (rest' : List Char) :=
      digits_append_ne (Decimal.padded_ne_nil 4 year.toNat)
        (fun _ => Decimal.isDigit_of_mem_padded) hc ('-' :: rest) rest'
    rw [year?, skipSpace_digits (Decimal.padded_ne_nil 4 year.toNat)
      fun _ => Decimal.isDigit_of_mem_padded]
    split
    · rename_i heq
      exact absurd heq (hne _ rfl _)
    · rename_i heq
      exact absurd heq (hne _ rfl _)
    · rw [hread, Option.map_some]
      simp only [Int.toNat_of_nonneg h.1]
  · rename_i h
    split
    · rw [List.cons_append, year?, skipSpace, List.dropWhile_cons_of_neg (by decide)]
      simp only [read?_signed, Option.map_some]
      congr 2
      omega
    · rw [List.cons_append, year?, skipSpace, List.dropWhile_cons_of_neg (by decide)]
      simp only [read?_signed, Option.map_some]
      congr 2
      omega

/-! ### Fractions -/

/-- Digits of a fraction count from the first on. -/
theorem fraction?_padded {width n : Nat} (hwidth : 0 < width) (hle : width ≤ 9) (h : n < 10 ^ width) :
    fraction? ('.' :: (Decimal.padded width n ++ ['Z'])) = some (10 ^ (9 - width) * n, ['Z']) := by
  have hlen := Decimal.length_padded_of_lt hwidth h
  have hspan : Decimal.span 9 (Decimal.padded width n ++ ['Z']) = (Decimal.padded width n, ['Z']) :=
    Decimal.span_append (fun _ => Decimal.isDigit_of_mem_padded) (by omega)
      (.inr (Decimal.stops_cons rfl []))
  have hvalue : Decimal.value (Decimal.padded width n ++ List.replicate (9 - width) '0') =
      10 ^ (9 - width) * n := by
    rw [Decimal.value, Nat.ofDigitChars_append, Nat.ofDigitChars_replicate_zero]
    rw [show Nat.ofDigitChars 10 (Decimal.padded width n) 0 = n from Decimal.value_padded width n]
  rw [fraction?, hspan]
  split
  · rename_i heq
    exact absurd (Prod.mk.inj heq).1 (Decimal.padded_ne_nil width n)
  · rename_i heq
    obtain ⟨rfl, rfl⟩ := Prod.mk.inj heq
    rw [hlen, hvalue]
    rfl

theorem fraction?_fractionText {nanosecond : Nat} (h : nanosecond < 1000000000) :
    fraction? (fractionText nanosecond ++ ['Z']) = some (nanosecond, ['Z']) := by
  rw [fractionText]
  split
  · rename_i hzero
    rw [hzero]
    rfl
  · split
    · rename_i hmilli
      rw [List.cons_append, fraction?_padded (by decide) (by decide) (by omega)]
      congr 2
      omega
    · split
      · rename_i hmicro
        rw [List.cons_append, fraction?_padded (by decide) (by decide) (by omega)]
        congr 2
        omega
      · rw [List.cons_append, fraction?_padded (by decide) (by decide) (by omega)]
        congr 2
        omega

/-! ### Instants -/

/-- A part that was read, and what is read behind it. -/
theorem bind_of_eq_some {o : Option α} {a : α} (h : o = some a) (f : α → Option β) : (o >>= f) = f a := by
  rw [h]
  rfl

/-- Without an offset, clocks show universal time. -/
theorem ofLocal?_zero (t : Timestamp) :
    ofLocal? t.date t.hour t.minute t.second t.nanosecond 0 = some t := by
  obtain ⟨date, hour, minute, second, nanosecond, h⟩ := t
  have hh := h.hour_lt
  have hm := h.minute_lt
  have hday : (((hour * 60 + minute : Nat) : Int) - 0) / 1440 = 0 := by omega
  have hrest : ((((hour * 60 + minute : Nat) : Int) - 0) % 1440).toNat = hour * 60 + minute := by omega
  have hhour : (hour * 60 + minute) / 60 = hour := by omega
  have hminute : (hour * 60 + minute) % 60 = minute := by omega
  rw [ofLocal?]
  have hguard : guard (IsTimeOfDay hour minute second nanosecond) = some () := if_pos h
  refine (bind_of_eq_some hguard _).trans ?_
  simp only [hday, hrest, hhour, hminute, of?, dif_pos h]
  rfl

theorem of?_date (d : Date) : Date.of? d.year d.month d.day = some d := dif_pos d.isDate

theorem separator?_T (rest : List Char) : separator? ('T' :: rest) = some rest := rfl

theorem offset?_Z : offset? (skipSpace ['Z']) = some (0, []) := rfl

theorem read?_text (t : Timestamp) : read? t.text = some t := by
  have hmonth := t.date.isDate.month_le
  have hday : t.date.day < 10 ^ 2 := by
    have hle := t.date.isDate.day_le
    rw [daysIn] at hle
    split at hle
    · split at hle <;> omega
    · split at hle <;> omega
  have htime := t.isTimeOfDay
  have hhour := htime.hour_lt
  have hminute := htime.minute_lt
  have hsecond := htime.second_le
  rw [read?, text]
  refine (bind_of_eq_some (year?_yearText t.date.year _) _).trans ?_
  refine (bind_of_eq_some (mark?_cons (c := '-') rfl _) _).trans ?_
  refine (bind_of_eq_some (number?_padded (by decide : 0 < 2) (by omega : t.date.month < 10 ^ 2) _) _).trans ?_
  refine (bind_of_eq_some (mark?_cons (c := '-') rfl _) _).trans ?_
  refine (bind_of_eq_some (number?_padded (by decide : 0 < 2) hday _) _).trans ?_
  refine (bind_of_eq_some (separator?_T _) _).trans ?_
  refine (bind_of_eq_some (number?_padded (by decide : 0 < 2) (by omega : t.hour < 10 ^ 2) _) _).trans ?_
  refine (bind_of_eq_some (mark?_cons (c := ':') rfl _) _).trans ?_
  refine (bind_of_eq_some (number?_padded (by decide : 0 < 2) (by omega : t.minute < 10 ^ 2) _) _).trans ?_
  refine (bind_of_eq_some (mark?_cons (c := ':') rfl _) _).trans ?_
  refine (bind_of_eq_some (number?_padded (by decide : 0 < 2) (by omega : t.second < 10 ^ 2) _) _).trans ?_
  refine (bind_of_eq_some (fraction?_fractionText htime.nanosecond_lt) _).trans ?_
  refine (bind_of_eq_some offset?_Z _).trans ?_
  refine (bind_of_eq_some rfl _).trans ?_
  exact (bind_of_eq_some (of?_date t.date) _).trans (ofLocal?_zero t)

theorem ofString?_toString (t : Timestamp) : ofString? t.toString = some t := by
  rw [ofString?, toString, String.toList_ofList, read?_text]

/-- The beginning of Unix time. -/
def epoch : Timestamp := ⟨⟨1970, 1, 1, by decide⟩, 0, 0, 0, 0, by decide⟩

end CartLedger.Time.Timestamp
