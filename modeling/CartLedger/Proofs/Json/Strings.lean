import CartLedger.Json.Printer
import CartLedger.Json.Reader

/-! Strings are read back.

A character of a string is written as itself, as a short escape or as a code unit, and
each of the three is one step of the reader (`pieces_escape`). -/
namespace CartLedger.Json.Reader
open Text.Utf8 (Glyph)

theorem pieces_plain {c : Char} (hquote : c ≠ '"') (hback : c ≠ '\\') (hlow : ¬ c < ' ')
    (gs : List Glyph) : pieces (some c :: gs) = (.char c :: (pieces gs).1, (pieces gs).2) := by
  rw [pieces]
  · exact if_neg hlow
  · exact hquote
  · exact fun _ _ _ _ _ _ h => hback h
  · exact fun _ _ _ h => hback h
  · exact hback

theorem pieces_short {e c : Char} (hu : e ≠ 'u') (h : shortEscape? e = some c) (gs : List Glyph) :
    pieces (some '\\' :: some e :: gs) = (.char c :: (pieces gs).1, (pieces gs).2) := by
  rw [pieces]
  · rw [h]
  · exact fun _ _ _ _ _ _ he => hu he

theorem hexValue?_hexDigit : ∀ n, n < 16 → hexValue? (hexDigit n) = some n := by decide

theorem unit?_control {n : Nat} (h : n < 32) :
    unit? (some '0') (some '0') (some (hexDigit (n / 16))) (some (hexDigit (n % 16))) = some n := by
  rw [unit?]
  simp only [Option.bind_eq_bind, Option.bind_some, hexValue?_hexDigit (n / 16) (by omega),
    hexValue?_hexDigit (n % 16) (by omega), show hexValue? '0' = some 0 from rfl, Option.pure_def]
  congr 1
  omega

theorem pieces_control {c : Char} (h : c < ' ') (gs : List Glyph) :
    pieces (some '\\' :: some 'u' :: some '0' :: some '0' :: some (hexDigit (c.toNat / 16)) ::
      some (hexDigit (c.toNat % 16)) :: gs) = (.char c :: (pieces gs).1, (pieces gs).2) := by
  have hn : c.toNat < 32 := h
  have hhigh : decide (0xD800 ≤ c.toNat) = false := decide_eq_false (by omega)
  have hlow : decide (0xDC00 ≤ c.toNat) = false := decide_eq_false (by omega)
  have hpiece : pieceOfUnit c.toNat = .char c := by
    simp [pieceOfUnit, isHighSurrogate, isLowSurrogate, hhigh, hlow]
  rw [pieces, unit?_control hn]
  simp only [hpiece]

/-- The escape of a character is one step through a string. -/
theorem pieces_escape (c : Char) (gs : List Glyph) :
    pieces ((escape c).map some ++ gs) = (.char c :: (pieces gs).1, (pieces gs).2) := by
  unfold escape
  split
  case h_8 hquote hback _ _ _ _ _ =>
    split
    · rename_i hlow
      exact pieces_control hlow gs
    · rename_i hlow
      exact pieces_plain hquote hback hlow gs
  all_goals exact pieces_short (by decide) rfl gs

theorem pieces_quoted (cs : List Char) (gs : List Glyph) :
    pieces ((cs.flatMap escape ++ ['"']).map some ++ gs) = (cs.map .char, some gs) := by
  induction cs with
  | nil => rw [List.flatMap_nil, List.nil_append, List.map_singleton, List.singleton_append, pieces]; rfl
  | cons c cs ih =>
    rw [List.flatMap_cons, List.append_assoc, List.map_append, List.append_assoc, pieces_escape, ih]
    rfl

theorem join?_chars (cs : List Char) : join? (cs.map .char) = some cs := by
  induction cs with
  | nil => rfl
  | cons c cs ih => rw [List.map_cons, join?, ih]; rfl

/-- A quoted string is read from behind its opening quote. -/
theorem string_quoted (s : String) (gs : List Glyph) :
    string ((s.toList.flatMap escape ++ ['"']).map some ++ gs) = (some s, some gs) := by
  rw [string, pieces_quoted]
  simp only [join?_chars, Option.map_some, String.ofList_toList]

end CartLedger.Json.Reader
