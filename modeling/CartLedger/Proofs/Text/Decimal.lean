import CartLedger.Text.Decimal
import Mathlib.Algebra.Group.Nat.Defs

/-! Numerals are read back.

A numeral is a run of digits and nothing else, without a leading zero unless it is zero,
and a reader that takes digits takes exactly the numeral when none follows. Numerals of one width
are in the order of their numbers (`padded_lt`). -/
namespace CartLedger.Text.Decimal

theorem isDigit_of_mem_digits {n : Nat} {c : Char} (h : c ∈ digits n) : c.isDigit :=
  Nat.isDigit_of_mem_toDigits (by decide) (by decide) h

theorem digits_ne_nil (n : Nat) : digits n ≠ [] := Nat.toDigits_ne_nil

theorem digits_of_lt {n : Nat} (h : n < 10) : digits n = [n.digitChar] :=
  Nat.toDigits_of_lt_base h

theorem digits_of_le {n : Nat} (h : 10 ≤ n) :
    digits n = digits (n / 10) ++ [(n % 10).digitChar] :=
  Nat.toDigits_of_base_le (by decide) h

theorem isDigit_of_mem_padded {width n : Nat} {c : Char} (h : c ∈ padded width n) : c.isDigit := by
  rcases List.mem_append.1 h with h | h
  · rw [List.eq_of_mem_replicate h]
    rfl
  · exact isDigit_of_mem_digits h

theorem length_padded (width n : Nat) : (padded width n).length = max width (digits n).length := by
  rw [padded, List.length_append, List.length_replicate]
  omega

theorem padded_ne_nil (width n : Nat) : padded width n ≠ [] := by
  intro h
  exact digits_ne_nil n (List.append_eq_nil_iff.1 h).2

/-- A number that has enough room fills it. -/
theorem length_padded_of_lt {width n : Nat} (hwidth : 0 < width) (h : n < 10 ^ width) :
    (padded width n).length = width := by
  have hle : (digits n).length ≤ width := (Nat.length_toDigits_le_iff (by decide) hwidth).2 h
  rw [length_padded, Nat.max_eq_left hle]

theorem digits_zero_cons {n : Nat} {ds : List Char} (h : digits n = '0' :: ds) : ds = [] := by
  induction n using Nat.strongRecOn generalizing ds with
  | ind n ih =>
    rcases Nat.lt_or_ge n 10 with hn | hn
    · rw [digits_of_lt hn] at h
      exact (List.cons.inj h).2.symm
    · rw [digits_of_le hn] at h
      cases hq : digits (n / 10) with
      | nil => exact absurd hq (digits_ne_nil _)
      | cons d ds' =>
        rw [hq, List.cons_append] at h
        obtain ⟨rfl, -⟩ := List.cons.inj h
        have hds := ih (n / 10) (by omega) hq
        -- A quotient with the one digit zero is zero, and `n` is not below ten.
        have hzero : n / 10 = 0 := by
          rw [← value_digits (n / 10), hq, hds]
          rfl
        omega

/-! ### The order of numerals -/

theorem toNat_of_isDigit {c : Char} (h : c.isDigit) : 48 ≤ c.toNat ∧ c.toNat ≤ 57 :=
  Char.isDigit_iff_toNat.1 h

theorem value_cons (d : Char) (ds : List Char) :
    value (d :: ds) = (d.toNat - 48) * 10 ^ ds.length + value ds := by
  rw [value, Nat.ofDigitChars_cons, Nat.ofDigitChars_eq_ofDigitChars_zero, Nat.mul_zero, Nat.zero_add, Nat.mul_comm]
  rfl

theorem value_lt {ds : List Char} (h : ∀ c ∈ ds, c.isDigit) : value ds < 10 ^ ds.length := by
  induction ds with
  | nil => exact Nat.one_pos
  | cons d ds ih =>
    obtain ⟨hd, hds⟩ := List.forall_mem_cons.1 h
    have hdigit := toNat_of_isDigit hd
    have hfirst : (d.toNat - 48) * 10 ^ ds.length ≤ 9 * 10 ^ ds.length := Nat.mul_le_mul_right _ (by omega)
    have hrest := ih hds
    rw [value_cons, List.length_cons, Nat.pow_succ]
    omega

/-- Of two runs of digits of one length, that of the smaller number comes first, whatever follows. -/
theorem append_lt_append {ds ds' : List Char} (hds : ∀ c ∈ ds, c.isDigit) (hds' : ∀ c ∈ ds', c.isDigit)
    (hlength : ds.length = ds'.length) (h : value ds < value ds') (rest rest' : List Char) :
    ds ++ rest < ds' ++ rest' := by
  induction ds generalizing ds' with
  | nil =>
    obtain rfl := List.eq_nil_of_length_eq_zero hlength.symm
    exact absurd h (Nat.lt_irrefl _)
  | cons d ds ih =>
    cases ds' with
    | nil => exact absurd hlength (by simp)
    | cons d' ds' =>
      obtain ⟨hd, hdigits⟩ := List.forall_mem_cons.1 hds
      obtain ⟨hd', hdigits'⟩ := List.forall_mem_cons.1 hds'
      rw [List.length_cons, List.length_cons, Nat.succ_inj] at hlength
      rw [value_cons, value_cons, hlength] at h
      rw [List.cons_append, List.cons_append, List.cons_lt_cons_iff]
      obtain hlt | rfl | hgt := Std.lt_trichotomy d d'
      · exact .inl hlt
      · exact .inr ⟨rfl, ih hdigits hdigits' hlength (Nat.lt_of_add_lt_add_left h)⟩
      · -- What follows a digit is less than one of its units.
        have hbelow := value_lt hdigits'
        have hnext : d'.toNat < d.toNat := hgt
        have hdigit' := toNat_of_isDigit hd'
        have hfirst : (d'.toNat - 48 + 1) * 10 ^ ds'.length ≤ (d.toNat - 48) * 10 ^ ds'.length :=
          Nat.mul_le_mul_right _ (by omega)
        rw [Nat.add_mul] at hfirst
        omega

theorem padded_lt {width m n : Nat} (hwidth : 0 < width) (hn : n < 10 ^ width) (h : m < n) (rest rest' : List Char) :
    padded width m ++ rest < padded width n ++ rest' := by
  refine append_lt_append (fun _ => isDigit_of_mem_padded) (fun _ => isDigit_of_mem_padded) ?_ ?_ rest rest'
  · rw [length_padded_of_lt hwidth (Nat.lt_trans h hn), length_padded_of_lt hwidth hn]
  · rwa [value_padded, value_padded]

/-! ### Reading a run of digits -/

/-- The text goes on with something else than a digit, if at all. -/
def Stops (rest : List Char) : Prop := ∀ c ∈ rest.head?, c.isDigit = false

theorem stops_cons {c : Char} (h : c.isDigit = false) (rest : List Char) : Stops (c :: rest) := by
  intro d hd
  obtain rfl : c = d := by simpa using hd
  exact h

theorem span_append {ds rest : List Char} (hds : ∀ c ∈ ds, c.isDigit) {limit : Nat}
    (hlimit : ds.length ≤ limit) (hrest : ds.length = limit ∨ Stops rest) :
    span limit (ds ++ rest) = (ds, rest) := by
  induction ds generalizing limit with
  | nil =>
    cases rest with
    | nil => rw [List.nil_append, span]
    | cons c rest =>
      cases limit with
      | zero => rfl
      | succ limit =>
        have hc : c.isDigit = false := by
          rcases hrest with hrest | hrest
          · exact absurd hrest (by simp)
          · exact hrest c rfl
        rw [List.nil_append, span]
        simp only [hc, Bool.false_eq_true, if_false]
  | cons d ds ih =>
    cases limit with
    | zero => exact absurd hlimit (by simp)
    | succ limit =>
      rw [List.length_cons] at hlimit hrest
      rw [List.cons_append, span, ih (fun c hc => hds c (List.mem_cons_of_mem _ hc)) (by omega)
        (hrest.imp_left (by omega))]
      simp only [hds d (List.mem_cons_self ..), if_true]

theorem read?_append {ds rest : List Char} (hne : ds ≠ []) (hds : ∀ c ∈ ds, c.isDigit) {limit : Nat}
    (hlimit : ds.length ≤ limit) (hrest : ds.length = limit ∨ Stops rest) :
    read? limit (ds ++ rest) = some (value ds, rest) := by
  rw [read?, span_append hds hlimit hrest]
  cases ds with
  | nil => exact absurd rfl hne
  | cons d ds => rfl

/-- A numeral of full width is read up to its end. -/
theorem read?_padded {width n : Nat} (hwidth : 0 < width) (h : n < 10 ^ width) (rest : List Char) :
    read? width (padded width n ++ rest) = some (n, rest) := by
  have hlen := length_padded_of_lt hwidth h
  rw [read?_append (padded_ne_nil width n) (fun _ => isDigit_of_mem_padded)
    (Nat.le_of_eq hlen) (.inl hlen),
    value_padded]

end CartLedger.Text.Decimal
