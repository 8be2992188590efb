import CartLedger.Proofs.Shards
import CartLedger.Proofs.Text.Utf8
import Mathlib.Algebra.BigOperators.Fin
import Mathlib.Data.Int.ModEq
import Mathlib.Tactic.Ring

/-! The hash of an id, and the shard that is told by it.

The hash takes the code units of an id one by one, and each of its steps is exact but for a
multiple of 2^32 (`toInt_step`). So it is a polynomial in 31 with the units as coefficients, up to
such a multiple (`hashFrom_modEq`), and as a signed word it is the one remainder that fits. Of the
words that tell the shard none overflows: the remainder has the sign of the hash, and
its size is below the count, which has 32 bits (`toNat_shardWord`). -/
namespace CartLedger

/-! ### Code units -/

/-- The form of a character in UTF-16: its number, or a high and a low surrogate if that has more
than sixteen bits. -/
inductive Utf16 (c : Char) : List Nat → Prop where
  | single (h : c.toNat < 0x10000) : Utf16 c [c.toNat]
  | pair {high low : Nat} (hhigh : 0xD800 ≤ high ∧ high < 0xDC00) (hlow : 0xDC00 ≤ low ∧ low < 0xE000)
      (h : c.toNat = 0x10000 + (high - 0xD800) * 0x400 + (low - 0xDC00)) : Utf16 c [high, low]

theorem utf16_iff {c : Char} {units : List Nat} : Utf16 c units ↔ units = utf16Units c := by
  have hbound := Text.Utf8.toNat_lt c
  rw [utf16Units]
  constructor
  · rintro (h | ⟨hhigh, hlow, h⟩)
    · rw [if_pos h]
    · rw [if_neg (by omega), List.cons.injEq, List.cons.injEq]
      exact ⟨by omega, by omega, rfl⟩
  · rintro rfl
    split
    · next h => exact .single h
    · next h => exact .pair (by omega) (by omega) (by omega)

def codeUnits (s : String) : List Nat := s.toList.flatMap utf16Units

theorem codeUnits_append (s t : String) : codeUnits (s ++ t) = codeUnits s ++ codeUnits t := by
  rw [codeUnits, String.toList_append, List.flatMap_append]
  rfl

/-! ### The hash -/

/-- The polynomial in 31 that has these coefficients, the last one for the constant. -/
def polynomial (units : List Nat) : Nat := ∑ i : Fin units.length, units[i] * 31 ^ (units.length - 1 - i)

theorem polynomial_cons (u : Nat) (units : List Nat) :
    polynomial (u :: units) = u * 31 ^ units.length + polynomial units := by
  rw [polynomial, polynomial]
  refine (Fin.sum_univ_succ _).trans (congrArg₂ (· + ·) rfl (Finset.sum_congr rfl fun i _ => ?_))
  have hdegree : (u :: units).length - 1 - i.succ = units.length - 1 - i := by
    rw [List.length_cons, Fin.val_succ]
    omega
  rw [hdegree]
  rfl

/-- The hash goes on from `h` with further units. -/
def hashFrom (h : Int32) (units : List Nat) : Int32 := units.foldl (fun h u => h * 31 + Int32.ofNat u) h

theorem stringHash_eq (s : String) : stringHash s = hashFrom 0 (codeUnits s) := rfl

/-- A signed word is known by its remainder. -/
theorem toInt_eq_bmod {x : Int32} {n : Int} (h : x.toInt ≡ n [ZMOD 2 ^ 32]) : x.toInt = n.bmod (2 ^ 32) := by
  have hmod : x.toInt % ((2 ^ 32 : Nat) : Int) = n % ((2 ^ 32 : Nat) : Int) := h
  calc x.toInt = x.toInt.bmod (2 ^ 32) := x.toInt_bmod.symm
    _ = (x.toInt % ((2 ^ 32 : Nat) : Int)).bmod (2 ^ 32) := (Int.emod_bmod _ _).symm
    _ = n.bmod (2 ^ 32) := by rw [hmod, Int.emod_bmod]

theorem toInt_step (h : Int32) (u : Nat) :
    (h * 31 + Int32.ofNat u).toInt ≡ h.toInt * 31 + u [ZMOD 2 ^ 32] := by
  have hbmod (n : Int) : n.bmod (2 ^ 32) ≡ n [ZMOD 2 ^ 32] := Int.bmod_emod
  rw [Int32.toInt_add, Int32.toInt_mul, Int32.toInt_ofNat']
  exact (hbmod _).trans ((hbmod _).add (hbmod _))

/-- **A hash that goes on is moved up by the units that follow and takes in their polynomial.** -/
theorem hashFrom_modEq (h : Int32) (units : List Nat) :
    (hashFrom h units).toInt ≡ h.toInt * 31 ^ units.length + polynomial units [ZMOD 2 ^ 32] := by
  induction units generalizing h with
  | nil => simp [hashFrom, polynomial]
  | cons u units ih =>
    -- The units that follow move up what one step leaves, and with it the multiple it is off by.
    have hstep := ((toInt_step h u).mul_right (31 ^ units.length)).add_right (polynomial units : Int)
    have hsum : (h.toInt * 31 + u) * 31 ^ units.length + polynomial units =
        h.toInt * 31 ^ (u :: units).length + polynomial (u :: units) := by
      rw [polynomial_cons, List.length_cons]
      push_cast
      ring
    rw [← hsum]
    exact (ih _).trans hstep

theorem stringHash_modEq (s : String) : (stringHash s).toInt ≡ polynomial (codeUnits s) [ZMOD 2 ^ 32] := by
  have h := hashFrom_modEq 0 (codeUnits s)
  rwa [← stringHash_eq, Int32.toInt_zero, Int.zero_mul, Int.zero_add] at h

theorem stringHash_append (s t : String) : (stringHash (s ++ t)).toInt ≡
    (stringHash s).toInt * 31 ^ (codeUnits t).length + (stringHash t).toInt [ZMOD 2 ^ 32] := by
  have h := hashFrom_modEq (stringHash s) (codeUnits t)
  have hwhole : hashFrom (stringHash s) (codeUnits t) = stringHash (s ++ t) := by
    rw [stringHash_eq, stringHash_eq, codeUnits_append]
    exact List.foldl_append.symm
  rw [hwhole] at h
  exact h.trans ((stringHash_modEq t).symm.add_left _)

/-! ### Shards -/

namespace Shards

theorem count_of (stem : String) (n : Nat) : (Shards.of stem n).count = max n 1 := by
  rw [Shards.of]
  split
  · next h => exact (Nat.max_eq_left h).symm
  · next h => exact (Nat.max_eq_right (by omega)).symm

/-- The shard as words compute it: the remainder has 64 bits and a sign, its size 64 bits and none, and
the shard is what 32 bits have room for. -/
def shardWord (hash : Int32) (count : UInt32) : UInt32 :=
  (hash.toInt64 % count.toUInt64.toInt64).abs.toUInt64.toUInt32

theorem toNat_max_one (count : UInt32) : (max count 1).toNat = max count.toNat 1 := by
  show (if count ≤ 1 then 1 else count).toNat = max count.toNat 1
  split
  · next h => exact (Nat.max_eq_right (UInt32.le_iff_toNat_le.1 h)).symm
  · next h => exact (Nat.max_eq_left (Nat.le_of_not_le fun hle => h (UInt32.le_iff_toNat_le.2 hle))).symm

theorem toNat_abs (x : Int64) : x.abs.toUInt64.toNat = x.toInt.natAbs := by
  show x.toBitVec.abs.toNat = x.toBitVec.toInt.natAbs
  have hlt := x.toBitVec.isLt
  rw [BitVec.toNat_abs, BitVec.toInt_eq_msb_cond]
  split
  · omega
  · rfl

theorem toInt_widened (n : UInt32) : n.toUInt64.toInt64.toInt = n.toNat := by
  have hlt := n.toNat_lt
  show n.toUInt64.toBitVec.toInt = n.toNat
  rw [BitVec.toInt_eq_toNat_of_lt]
  · rfl
  · show 2 * n.toNat < 2 ^ 64
    omega

/-- **The words tell the shard**: what is cut off in the end is zero. -/
theorem toNat_shardWord (S : Shards) {count : UInt32} (h : S.count = count.toNat) (id : String) :
    (shardWord (stringHash id) count).toNat = S.shardFor id := by
  have hsize : (stringHash id).toInt.natAbs % count.toNat < 2 ^ 32 :=
    Nat.lt_of_lt_of_le (Nat.mod_lt _ (h ▸ S.count_pos)) (Nat.le_of_lt count.toNat_lt)
  rw [shardWord, UInt64.toNat_toUInt32, toNat_abs, Int64.toInt_mod, Int32.toInt_toInt64, toInt_widened,
    Int.natAbs_tmod, Int.natAbs_natCast, Nat.mod_eq_of_lt hsize, shardFor_eq, h]

end Shards

/-- **The hash of an id is a polynomial, read as a signed word, and its shard is what is left of the
size of the hash.** -/
theorem polynomial_hash :
    (∀ c units, Utf16 c units ↔ units = utf16Units c) ∧
      (∀ s, (stringHash s).toInt = (polynomial (codeUnits s) : Int).bmod (2 ^ 32)) ∧
      (∀ s t, (stringHash (s ++ t)).toInt ≡
        (stringHash s).toInt * 31 ^ (codeUnits t).length + (stringHash t).toInt [ZMOD 2 ^ 32]) ∧
      ∀ (stem : String) (count : UInt32) (id : String),
        (Shards.of stem count.toNat).shardFor id = (stringHash id).toInt.natAbs % max count.toNat 1 ∧
          (Shards.of stem count.toNat).shardFor id < max count.toNat 1 ∧
          (Shards.shardWord (stringHash id) (max count 1)).toNat = (Shards.of stem count.toNat).shardFor id := by
  refine ⟨fun c units => utf16_iff, fun s => toInt_eq_bmod (stringHash_modEq s), stringHash_append,
    fun stem count id => ?_⟩
  have hcount := Shards.count_of stem count.toNat
  refine ⟨?_, ?_, ?_⟩
  · rw [Shards.shardFor_eq, hcount]
  · exact hcount ▸ Shards.shardFor_lt _ id
  · exact Shards.toNat_shardWord _ (hcount.trans (Shards.toNat_max_one count).symm) id

/-- The least hash there is. -/
example : stringHash "polygenelubricants" = Int32.minValue ∧
    (Shards.of "" (2 ^ 32 - 1)).shardFor "polygenelubricants" = 2 ^ 31 := by decide +kernel

end CartLedger
