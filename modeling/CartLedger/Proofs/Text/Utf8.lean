import CartLedger.OrderedMap
import CartLedger.Text.Lines
import CartLedger.Text.Utf8

/-! What is written as UTF-8 is read back.

Each character is read from its own bytes whatever follows them, so a text comes back
glyph for glyph (`glyphs_encode`). The only character with a newline among its bytes is
the newline, which is why a line of text is a line of bytes. And texts are in the order of
their bytes (`ofString_lt_iff`). -/
namespace CartLedger.Text.Utf8

theorem first?_encodeChar (c : Char) (rest : List UInt8) :
    first? (String.utf8EncodeChar c ++ rest) = some c := by
  have hle : (String.utf8EncodeChar c).length ≤ 4 := by
    rw [String.length_utf8EncodeChar]
    exact c.utf8Size_le_four
  rw [first?, List.take_append, List.take_of_length_le hle, List.toByteArray_append]
  exact ByteArray.utf8DecodeChar?_utf8EncodeChar_append

/-- Bytes that are passed over leave no glyph. -/
theorem glyphsAfter_length (skipped rest : List UInt8) :
    glyphsAfter skipped.length (skipped ++ rest) = glyphs rest := by
  induction skipped with
  | nil => rfl
  | cons b skipped ih => exact ih

theorem glyphs_encodeChar (c : Char) (rest : List UInt8) :
    glyphs (String.utf8EncodeChar c ++ rest) = some c :: glyphs rest := by
  have hlen := String.length_utf8EncodeChar c
  have hfirst := first?_encodeChar c rest
  have hpos := c.utf8Size_pos
  cases h : String.utf8EncodeChar c with
  | nil =>
    rw [h, List.length_nil] at hlen
    omega
  | cons b bs =>
    rw [h, List.length_cons] at hlen
    rw [h, List.cons_append] at hfirst
    have hskip : c.utf8Size - 1 = bs.length := by omega
    rw [List.cons_append, glyphs, glyphsAfter, hfirst]
    simp only
    rw [hskip, glyphsAfter_length]

theorem glyphs_encode_append (cs : List Char) (rest : List UInt8) :
    glyphs (encode cs ++ rest) = cs.map some ++ glyphs rest := by
  induction cs with
  | nil => rfl
  | cons c cs ih =>
    rw [encode, List.flatMap_cons, List.append_assoc, glyphs_encodeChar, ← encode, ih]
    rfl

theorem glyphs_encode (cs : List Char) : glyphs (encode cs) = cs.map some := by
  have h := glyphs_encode_append cs []
  rwa [List.append_nil, show glyphs [] = [] from rfl, List.append_nil] at h

theorem decode?_encode (cs : List Char) : decode? (encode cs) = some cs := by
  rw [decode?, glyphs_encode, List.mapM_map]
  exact (List.mapM_pure (m := Option) (f := id)).trans (congrArg some (List.map_id cs))

theorem encode_append (cs ds : List Char) : encode (cs ++ ds) = encode cs ++ encode ds :=
  List.flatMap_append

/-! ### Newlines -/

theorem newline_mem_encodeChar {c : Char} (h : Lines.newline ∈ String.utf8EncodeChar c) :
    c = '\n' := by
  -- The bytes of a longer character are all beyond ASCII.
  have high : ∀ n : Nat, 0x80 ≤ n → n < 0x100 → Lines.newline ≠ UInt8.ofNat n := by
    intro n hlow hhigh he
    have hval : (10 : Nat) = (UInt8.ofNat n).toNat := congrArg UInt8.toNat he
    rw [UInt8.toNat_ofNat', Nat.mod_eq_of_lt hhigh] at hval
    omega
  rw [String.utf8EncodeChar] at h
  split at h
  · rename_i hle
    have hval : (10 : Nat) = (UInt8.ofNat c.val.toNat).toNat :=
      congrArg UInt8.toNat (List.mem_singleton.1 h)
    rw [UInt8.toNat_ofNat', Nat.mod_eq_of_lt (by omega)] at hval
    exact Char.ext (UInt32.toNat_inj.1 hval.symm)
  · exfalso
    split at h
    · simp only [List.mem_cons, List.not_mem_nil, or_false] at h
      rcases h with h | h <;> exact high _ (by omega) (by omega) h
    · split at h <;> simp only [List.mem_cons, List.not_mem_nil, or_false] at h
      · rcases h with h | h | h <;> exact high _ (by omega) (by omega) h
      · rcases h with h | h | h | h <;> exact high _ (by omega) (by omega) h

/-- A text without a newline is written without one. -/
theorem newline_notMem_encode {cs : List Char} (h : '\n' ∉ cs) : Lines.newline ∉ encode cs := by
  intro hmem
  obtain ⟨c, hc, hb⟩ := List.mem_flatMap.1 hmem
  exact h (newline_mem_encodeChar hb ▸ hc)

theorem encode_newline : encode ['\n'] = [Lines.newline] := rfl

/-! ### The order of bytes -/

/-- The number of a character is at most 0x10FFFF. -/
theorem toNat_lt (c : Char) : c.toNat < 0x110000 := by
  have hvalid := c.valid
  simp only [UInt32.isValidChar, Nat.isValidChar] at hvalid
  show c.val.toNat < 0x110000
  omega

/-- The bytes of an earlier character come first, whatever follows them. -/
theorem encodeChar_lt {c d : Char} (h : c < d) (rest rest' : List UInt8) :
    String.utf8EncodeChar c ++ rest < String.utf8EncodeChar d ++ rest' := by
  have hlt : c.val.toNat < d.val.toNat := h
  have hd : d.val.toNat < 0x110000 := toNat_lt d
  have hbyte : ∀ n, n < 256 → (UInt8.ofNat n).toNat = n := fun n hn =>
    UInt8.toNat_ofNat'.trans (Nat.mod_eq_of_lt hn)
  have hdigit₂ : ∀ n, n / 4096 = n / 64 / 64 := fun n => (Nat.div_div_eq_div_mul n 64 64).symm
  have hdigit₃ : ∀ n, n / 262144 = n / 64 / 64 / 64 := fun n => by
    rw [Nat.div_div_eq_div_mul, Nat.div_div_eq_div_mul]
  unfold String.utf8EncodeChar
  generalize c.val.toNat = v at *
  generalize d.val.toNat = w at *
  dsimp only
  -- First bytes tell characters of different lengths apart; characters of one length are
  -- written in digits.
  repeat' split
  all_goals
    simp (disch := omega) only [List.cons_append, List.nil_append, List.cons_lt_cons_iff, UInt8.lt_iff_toNat_lt,
      ← UInt8.toNat_inj, hbyte, hdigit₂, hdigit₃]
    omega

theorem encode_cons (c : Char) (cs : List Char) : encode (c :: cs) = String.utf8EncodeChar c ++ encode cs :=
  List.flatMap_cons

theorem encode_lt {cs ds : List Char} (h : cs < ds) : encode cs < encode ds := by
  induction h with
  | @nil d ds =>
    rw [encode_cons]
    have hlength := String.length_utf8EncodeChar d
    have hpos := d.utf8Size_pos
    cases hd : String.utf8EncodeChar d with
    | nil =>
      rw [hd, List.length_nil] at hlength
      omega
    | cons b bs => exact List.nil_lt_cons ..
  | rel h =>
    rw [encode_cons, encode_cons]
    exact encodeChar_lt h _ _
  | @cons c cs ds _ ih =>
    rw [encode_cons, encode_cons]
    exact List.append_left_lt ih

/-- **Texts are in the order of their bytes.** -/
theorem ofString_lt_iff {s t : String} : ofString s < ofString t ↔ s < t := by
  constructor
  · intro h
    refine Decidable.byContradiction fun hnot => ?_
    obtain he | hne := Decidable.em (s = t)
    · exact List.lt_irrefl _ (he ▸ h)
    · have hlt : t < s := OrderedKey.total hnot hne
      exact List.lt_asymm h (encode_lt hlt)
  · exact encode_lt
theorem ofString_le_iff {s t : String} : ofString s ≤ ofString t ↔ s ≤ t :=
  not_congr ofString_lt_iff

end CartLedger.Text.Utf8
