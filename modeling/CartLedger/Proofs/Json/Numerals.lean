import CartLedger.Json.Printer
import CartLedger.Json.Reader
import CartLedger.Proofs.Text.Decimal

/-! Numerals are read up to their ends.

A `Numeral` is a number as the grammar has it: whole digits without a leading zero, and
perhaps a sign, a fraction and an exponent. Whatever number is printed, its text is one
(`exists_numeral`), and the reader takes all of a numeral and nothing else
(`number?_unsigned`). What number it makes of the digits is another matter: an integer of
64 bits is read back as it is (`IsWord`), of others no more is said than that they are
read. -/
namespace CartLedger.Json
open Text

/-- At least one digit, and nothing else. -/
def Digits (ds : List Char) : Prop := ds ≠ [] ∧ ∀ c ∈ ds, c.isDigit

theorem Digits.append {ds ds' : List Char} (h : Digits ds) (h' : ∀ c ∈ ds', c.isDigit) :
    Digits (ds ++ ds') := by
  refine ⟨by simp [h.1], fun c hc => ?_⟩
  exact (List.mem_append.1 hc).elim (h.2 c) (h' c)

theorem Digits.take {ds : List Char} (h : Digits ds) {n : Nat} (hn : 0 < n) : Digits (ds.take n) := by
  have hlength := List.length_pos_iff.2 h.1
  refine ⟨List.ne_nil_of_length_pos ?_, fun c hc => h.2 c (List.mem_of_mem_take hc)⟩
  rw [List.length_take]
  omega

theorem Digits.drop {ds : List Char} (h : Digits ds) {n : Nat} (hn : n < ds.length) : Digits (ds.drop n) := by
  refine ⟨List.ne_nil_of_length_pos ?_, fun c hc => h.2 c (List.mem_of_mem_drop hc)⟩
  rw [List.length_drop]
  omega

/-- A number that is written `whole . fraction e exponent`. -/
structure Numeral where
  negative : Bool
  whole : List Char
  fraction : Option (List Char)
  exponent : Option Int
  digits_whole : Digits whole
  /-- Nothing follows a leading zero. -/
  nil_of_zero : ∀ {ds}, whole = '0' :: ds → ds = []
  digits_fraction : ∀ ds ∈ fraction, Digits ds

namespace Numeral

def fractionText : Option (List Char) → List Char
  | none => []
  | some ds => '.' :: ds

def exponentText : Option Int → List Char
  | none => []
  | some e => 'e' :: Binary64.signedExponent e

/-- What follows the sign. -/
def unsigned (m : Numeral) : List Char := m.whole ++ (fractionText m.fraction ++ exponentText m.exponent)

def text (m : Numeral) : List Char := (if m.negative then ['-'] else []) ++ m.unsigned

/-- The number that a reader makes of it. -/
def number (m : Numeral) : Option Number := Reader.numberOf m.negative m.whole m.fraction m.exponent

/-- The same numeral with another sign. -/
def signed (negative : Bool) (m : Numeral) : Numeral := { m with negative := negative }

end Numeral

/-! ### What is printed is a numeral -/

theorem digits_digits (n : Nat) : Digits (Decimal.digits n) :=
  ⟨Decimal.digits_ne_nil n, fun _ => Decimal.isDigit_of_mem_digits⟩

/-- The digits of a natural number. -/
def Numeral.natural (n : Nat) : Numeral where
  negative := false
  whole := Decimal.digits n
  fraction := none
  exponent := none
  digits_whole := digits_digits n
  nil_of_zero := Decimal.digits_zero_cons
  digits_fraction _ h := by cases h

theorem Numeral.unsigned_natural (n : Nat) : (natural n).unsigned = Decimal.digits n :=
  List.append_nil _

/-- The numeral of an integer. -/
def Numeral.integer : Int → Numeral
  | .ofNat n => natural n
  | .negSucc n => (natural (n + 1)).signed true

theorem Numeral.text_integer (n : Int) : (integer n).text = Decimal.integer n := by
  cases n with
  | ofNat n => exact unsigned_natural n
  | negSucc n => exact congrArg ('-' :: ·) (unsigned_natural (n + 1))

namespace Binary64

/-- Only digits that stand for zero start with one. -/
theorem digits_eq_zero {d : Nat} {ds : List Char} (h : Decimal.digits d = '0' :: ds) : d = 0 := by
  rw [← Decimal.value_digits d, h, Decimal.digits_zero_cons h]
  rfl

theorem shiftTen_pos {v : Nat × Nat} (h : 0 < v.1) (k : Int) : 0 < (shiftTen v k).1 := by
  rw [shiftTen]
  split
  · exact h
  · exact Nat.mul_pos h (Nat.pow_pos (by decide))

theorem quotient_pos {x : Binary64} (h : 0 < x.mantissa) : 0 < x.quotient.1 := by
  rw [quotient]
  split
  · rw [Nat.shiftLeft_eq]
    exact Nat.mul_pos h (Nat.two_pow_pos _)
  · exact h

/-- Zero is too far from any other number. -/
theorem ne_zero_of_readsBack {x : Binary64} (hx : 0 < x.mantissa) {d : Nat} {k : Int}
    (h : x.readsBack d k) : d ≠ 0 := by
  rintro rfl
  have hlower : 0 < (shiftTen x.bounds.1 k).1 := by
    apply shiftTen_pos
    rw [bounds]
    dsimp only
    split <;> exact quotient_pos (by dsimp only; omega)
  rw [readsBack] at h
  dsimp only at h
  split at h
  · simp at h
    omega
  · simp at h

theorem readsBack_of_atGrid {x : Binary64} {k : Int} {d : Nat} (h : x.atGrid k = some d) :
    x.readsBack d k := by
  obtain ⟨first, second, hgrid⟩ : ∃ first second, x.atGrid k =
      if x.readsBack first k then some first else if x.readsBack second k then some second else none :=
    ⟨_, _, rfl⟩
  rw [hgrid] at h
  split at h
  · next hreads => exact Option.some.inj h ▸ hreads
  · split at h
    · next hreads => exact Option.some.inj h ▸ hreads
    · cases h

theorem search_zero {x : Binary64} (hx : 0 < x.mantissa) (p : Int) (digits rounds : Nat) :
    (search x p digits rounds).1 = 0 → (search x p digits rounds).2 = 0 := by
  induction rounds generalizing digits with
  | zero => exact fun _ => rfl
  | succ rounds ih =>
    rw [search]
    cases hgrid : x.atGrid (p - digits) with
    | none => exact ih (digits + 1)
    | some d => exact fun h => absurd h (ne_zero_of_readsBack hx (readsBack_of_atGrid hgrid))

theorem strip_zero {d : Nat} {k : Int} (h : d = 0 → k = 0) (rounds : Nat) :
    (strip d k rounds).1 = 0 → (strip d k rounds).2 = 0 := by
  induction rounds generalizing d k with
  | zero => exact h
  | succ rounds ih =>
    rw [strip]
    split
    · refine ih fun hzero => ?_
      omega
    · exact h

/-- The digits zero come without an exponent. -/
theorem shortest_zero {x : Binary64} (hx : 0 < x.mantissa) (h : x.shortest.1 = 0) : x.shortest.2 = 0 := by
  have hsearch := search_zero hx (magnitude x.quotient) 1 17
  exact strip_zero hsearch 20 h

/-- The first digits of a number are a leading zero only if that is all. -/
theorem nil_of_take_digits {d n : Nat} {rest : List Char} (h : (Decimal.digits d).take n = '0' :: rest) :
    rest = [] := by
  cases hds : Decimal.digits d with
  | nil => exact absurd hds (Decimal.digits_ne_nil d)
  | cons c cs =>
    rw [hds] at h
    cases n with
    | zero => cases h
    | succ n =>
      obtain ⟨rfl, rfl⟩ := List.cons.inj h
      rw [Decimal.digits_zero_cons hds, List.take_nil]

theorem isDigit_of_mem_zeros {n : Nat} {c : Char} (h : c ∈ List.replicate n '0') : c.isDigit := by
  rw [List.eq_of_mem_replicate h]
  rfl

theorem exists_pointed {ds ds' : List Char} (h : Digits ds)
    (hzero : ∀ {rest}, ds = '0' :: rest → rest = []) (h' : Digits ds') :
    ∃ m : Numeral, m.negative = false ∧ m.text = ds ++ '.' :: ds' :=
  ⟨⟨false, ds, some ds', none, h, hzero, fun _ hds => Option.mem_some.1 hds ▸ h'⟩, rfl,
    congrArg (ds ++ ·) (List.append_nil ('.' :: ds'))⟩

theorem exists_scientific {ds : List Char} (h : Digits ds) (hzero : ∀ {rest}, ds = '0' :: rest → rest = [])
    (fraction : Option (List Char)) (hfraction : ∀ ds' ∈ fraction, Digits ds') (e : Int) :
    ∃ m : Numeral, m.negative = false ∧
      m.text = ds ++ Numeral.fractionText fraction ++ 'e' :: signedExponent e :=
  ⟨⟨false, ds, fraction, some e, h, hzero, hfraction⟩, rfl,
    (List.append_assoc ds (Numeral.fractionText fraction) ('e' :: signedExponent e)).symm⟩

/-- **A binary fraction is printed as a numeral**, in each of its forms. -/
theorem exists_numeral (x : Binary64) : ∃ m : Numeral, m.negative = false ∧ m.text = x.numeral := by
  have hone : Digits ['0'] := ⟨List.cons_ne_nil _ _, List.forall_mem_singleton.2 rfl⟩
  have hsingle : ∀ {rest : List Char}, ['0'] = '0' :: rest → rest = [] := fun h => (List.cons.inj h).2.symm
  rw [numeral]
  split
  · exact exists_pointed hone hsingle hone
  next hx =>
  have hx : 0 < x.mantissa := Nat.pos_of_ne_zero fun he => hx (beq_iff_eq.2 he)
  have hshortest := shortest_zero hx
  generalize x.shortest = dk at hshortest
  obtain ⟨d, k⟩ := dk
  dsimp only at hshortest ⊢
  have hds := digits_digits d
  split
  · next hk =>
    -- Zeros fill the digits up to the point.
    have hzero : ∀ {rest}, Decimal.digits d ++ List.replicate k.toNat '0' = '0' :: rest → rest = [] := by
      intro rest h
      obtain ⟨c, cs, hcs⟩ := List.exists_cons_of_ne_nil hds.1
      rw [hcs, List.cons_append] at h
      obtain ⟨rfl, rfl⟩ := List.cons.inj h
      rw [hshortest (digits_eq_zero hcs), Decimal.digits_zero_cons hcs]
      rfl
    exact exists_pointed (hds.append fun _ => isDigit_of_mem_zeros) hzero hone
  split
  · next hk hpoint =>
    -- The point falls between the digits.
    exact exists_pointed (hds.take (by omega)) nil_of_take_digits (hds.drop (by omega))
  split
  · next hk hpoint hsmall =>
    -- Zeros fill the digits down to the point.
    refine exists_pointed hone hsingle ⟨by simp [hds.1], fun c hc => ?_⟩
    exact (List.mem_append.1 hc).elim isDigit_of_mem_zeros (hds.2 c)
  · next hk hpoint hsmall =>
    have hlength := List.length_pos_iff.2 hds.1
    split
    · exact exists_scientific (hds.take Nat.one_pos) nil_of_take_digits none (fun _ h => by cases h) _
    · next hmany =>
      exact exists_scientific (hds.take Nat.one_pos) nil_of_take_digits (some _)
        (fun _ h => Option.mem_some.1 h ▸ hds.drop (n := 1) (by omega)) _

end Binary64

/-- **Whatever number is printed, its text is a numeral.** -/
theorem Number.exists_numeral (n : Number) : ∃ m : Numeral, m.text = n.numeral := by
  cases n with
  | integer n => exact ⟨.integer n, Numeral.text_integer n⟩
  | real negative x =>
    obtain ⟨m, hpositive, htext⟩ := x.exists_numeral
    refine ⟨m.signed negative, ?_⟩
    rw [Numeral.text, hpositive] at htext
    rw [Number.numeral, ← htext]
    rfl

/-! ### What is read -/

namespace Reader
open Text.Utf8 (Glyph)

/-- No digit follows. -/
def EndsDigits (gs : List Glyph) : Prop := ∀ c, gs.head? = some (some c) → c.isDigit = false

/-- Nothing follows that would belong to a number in front of it. -/
def EndsNumber (gs : List Glyph) : Prop :=
  ∀ c, gs.head? = some (some c) → c.isDigit = false ∧ c ≠ '.' ∧ c ≠ 'e' ∧ c ≠ 'E'

theorem EndsNumber.endsDigits {gs : List Glyph} (h : EndsNumber gs) : EndsDigits gs :=
  fun c hc => (h c hc).1

theorem endsDigits_cons {c : Char} (h : c.isDigit = false) (gs : List Glyph) : EndsDigits (some c :: gs) := by
  intro d hd
  obtain rfl : c = d := by simpa using hd
  exact h

theorem digits_append {ds : List Char} (hds : ∀ c ∈ ds, c.isDigit) {gs : List Glyph}
    (hgs : EndsDigits gs) : digits (ds.map some ++ gs) = (ds, gs) := by
  induction ds with
  | nil =>
    rw [List.map_nil, List.nil_append]
    match gs with
    | [] => rfl
    | none :: gs => rfl
    | some c :: gs =>
      rw [digits]
      simp only [hgs c rfl, Bool.false_eq_true, if_false]
  | cons d ds ih =>
    rw [List.map_cons, List.cons_append, digits, ih fun c hc => hds c (List.mem_cons_of_mem _ hc)]
    simp only [hds d (List.mem_cons_self ..), if_true]

theorem fraction?_text {fraction : Option (List Char)} (h : ∀ ds ∈ fraction, Digits ds) {gs : List Glyph}
    (hgs : EndsDigits gs) (hpoint : gs.head? ≠ some (some '.')) :
    fraction? ((Numeral.fractionText fraction).map some ++ gs) = some (fraction, gs) := by
  cases fraction with
  | none =>
    rw [Numeral.fractionText, List.map_nil, List.nil_append]
    unfold fraction?
    split
    · exact absurd rfl hpoint
    · rfl
  | some ds =>
    obtain ⟨hne, hds⟩ := h ds rfl
    rw [Numeral.fractionText, List.map_cons, List.cons_append, fraction?, digits_append hds hgs]
    cases ds with
    | nil => exact absurd rfl hne
    | cons d ds => rfl

theorem exponent?_text (exponent : Option Int) {gs : List Glyph} (hgs : EndsNumber gs) :
    exponent? ((Numeral.exponentText exponent).map some ++ gs) = some (exponent, gs) := by
  have hread : ∀ n, digits ((Decimal.digits n).map some ++ gs) = (Decimal.digits n, gs) := fun n =>
    digits_append (digits_digits n).2 hgs.endsDigits
  cases exponent with
  | none =>
    rw [Numeral.exponentText, List.map_nil, List.nil_append]
    unfold exponent?
    split
    · rename_i c rest
      have hc := hgs c rfl
      exact if_neg (not_or.2 ⟨hc.2.2.1, hc.2.2.2⟩)
    · rfl
  | some e =>
    cases e with
    | ofNat n =>
      show exponent? (some 'e' :: some '+' :: ((Decimal.digits n).map some ++ gs)) = _
      rw [exponent?, if_pos (.inl rfl)]
      dsimp only
      rw [hread]
      split
      · next heq => exact absurd (congrArg Prod.fst heq) (Decimal.digits_ne_nil n)
      · next heq =>
        obtain ⟨rfl, rfl⟩ := Prod.mk.inj heq
        rw [Decimal.value_digits]
        rfl
    | negSucc n =>
      show exponent? (some 'e' :: some '-' :: ((Decimal.digits (n + 1)).map some ++ gs)) = _
      rw [exponent?, if_pos (.inl rfl)]
      dsimp only
      rw [hread]
      split
      · next heq => exact absurd (congrArg Prod.fst heq) (Decimal.digits_ne_nil (n + 1))
      · next heq =>
        obtain ⟨rfl, rfl⟩ := Prod.mk.inj heq
        rw [Decimal.value_digits]
        rfl

/-- What follows the whole digits of a numeral. -/
theorem endsDigits_exponentText (exponent : Option Int) {gs : List Glyph} (hgs : EndsNumber gs) :
    EndsDigits ((Numeral.exponentText exponent).map some ++ gs) ∧
      ((Numeral.exponentText exponent).map some ++ gs).head? ≠ some (some '.') := by
  cases exponent with
  | none => exact ⟨hgs.endsDigits, fun h => (hgs '.' h).2.1 rfl⟩
  | some e => exact ⟨endsDigits_cons rfl _, fun h => absurd h (by simp [Numeral.exponentText])⟩

theorem endsDigits_fractionText (fraction : Option (List Char)) {gs : List Glyph} (hgs : EndsDigits gs) :
    EndsDigits ((Numeral.fractionText fraction).map some ++ gs) := by
  cases fraction with
  | none => exact hgs
  | some ds => exact endsDigits_cons rfl _

/-- **A numeral is read to its end.** -/
theorem number?_unsigned (m : Numeral) {gs : List Glyph} (hgs : EndsNumber gs) :
    number? m.negative (m.unsigned.map some ++ gs) = some (m.number, gs) := by
  obtain ⟨hends, hpoint⟩ := endsDigits_exponentText m.exponent hgs
  simp only [Numeral.unsigned, List.map_append, List.append_assoc]
  rw [number?, digits_append m.digits_whole.2 (endsDigits_fractionText m.fraction hends)]
  cases hwhole : m.whole with
  | nil => exact absurd hwhole m.digits_whole.1
  | cons d ds =>
    have hzero : ¬ (d = '0' ∧ ds ≠ []) := by
      rintro ⟨rfl, hne⟩
      exact hne (m.nil_of_zero hwhole)
    simp only [if_neg hzero, fraction?_text m.digits_fraction hends hpoint, exponent?_text m.exponent hgs,
      Option.bind_eq_bind, Option.bind_some, Option.pure_def, Numeral.number, hwhole]

/-! ### Whole numbers -/

/-- Digits only make a significand greater. -/
theorem le_ofDigitChars (significand : Nat) (ds : List Char) :
    significand ≤ Nat.ofDigitChars 10 ds significand := by
  induction ds generalizing significand with
  | nil => exact Nat.le_refl _
  | cons d ds ih =>
    rw [Nat.ofDigitChars_cons]
    exact Nat.le_trans (by omega) (ih _)

/-- Digits of a number that fits 64 bits are all taken. -/
theorem absorb_eq {ds : List Char} {significand : Nat}
    (h : Nat.ofDigitChars 10 ds significand < UInt64.size) :
    absorb significand ds = (Nat.ofDigitChars 10 ds significand, []) := by
  induction ds generalizing significand with
  | nil => rfl
  | cons d ds ih =>
    rw [Nat.ofDigitChars_cons, Nat.mul_comm] at h
    have hnext : significand * 10 + (d.toNat - '0'.toNat) < UInt64.size :=
      Nat.lt_of_le_of_lt (le_ofDigitChars _ ds) h
    rw [absorb]
    simp only [hnext, if_true]
    rw [ih h, Nat.ofDigitChars_cons, Nat.mul_comm 10]

theorem absorb_digits {n : Nat} (h : n < UInt64.size) : absorb 0 (Decimal.digits n) = (n, []) := by
  have hvalue : Nat.ofDigitChars 10 (Decimal.digits n) 0 = n := Decimal.value_digits n
  rw [absorb_eq (by rw [hvalue]; exact h), hvalue]

/-- Numbers that are written and read as integers. -/
def IsWord (n : Int) : Prop := -0x8000000000000000 ≤ n ∧ n < 0x10000000000000000

/-- An integer of 64 bits is read back as it is. -/
theorem number_integer {n : Int} (h : IsWord n) : (Numeral.integer n).number = some (.integer n) := by
  obtain ⟨hlow, hhigh⟩ := h
  have hsize : UInt64.size = 0x10000000000000000 := rfl
  cases n with
  | ofNat n =>
    have hn : n < UInt64.size := Int.ofNat_lt.1 hhigh
    show numberOf false (Decimal.digits n) none none = _
    rw [numberOf, absorb_digits hn]
    rfl
  | negSucc n =>
    have hn : 2 * (n + 1) ≤ UInt64.size := by omega
    show numberOf true (Decimal.digits (n + 1)) none none = _
    rw [numberOf, absorb_digits (by omega)]
    simp only [List.isEmpty_nil, Bool.not_true, Bool.false_eq_true, if_false, Nat.succ_pos, hn, and_self,
      if_true]
    rfl

end Reader

/-! ### One line -/

theorem newline_notMem_digits {ds : List Char} (h : Digits ds) : '\n' ∉ ds :=
  fun hmem => absurd (h.2 _ hmem) (by decide)

/-- No numeral has a line break in it. -/
theorem Numeral.newline_notMem_text (m : Numeral) : '\n' ∉ m.text := by
  have hdigits : ∀ n, '\n' ∉ Decimal.digits n := fun n => newline_notMem_digits (digits_digits n)
  have hfraction : '\n' ∉ fractionText m.fraction := by
    cases hds : m.fraction with
    | none => exact List.not_mem_nil
    | some ds => simp [fractionText, newline_notMem_digits (m.digits_fraction ds hds)]
  have hexponent : '\n' ∉ exponentText m.exponent := by
    cases m.exponent with
    | none => exact List.not_mem_nil
    | some e => cases e <;> simp [exponentText, Binary64.signedExponent, Decimal.integer, hdigits]
  have hunsigned : '\n' ∉ m.unsigned := by
    simp [unsigned, newline_notMem_digits m.digits_whole, hfraction, hexponent]
  cases hnegative : m.negative <;> simp [text, hnegative, hunsigned]

end CartLedger.Json
