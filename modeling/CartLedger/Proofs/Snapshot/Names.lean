import CartLedger.Proofs.Text.Decimal
import CartLedger.Snapshot.Durable

/-! The names of snapshot files are read back.

A listing knows of snapshots only by the names of their files, so a name that is written has
to be read as the number it was written for, and two numbers never share one. Names sort as
the numbers do (`fileName_lt_iff`), and one that ends otherwise, as temporary names
do, is read as no number. -/
namespace CartLedger.Snapshot.Durable
open CartLedger.Text.Decimal (padded value value_padded isDigit_of_mem_padded padded_ne_nil padded_lt)

theorem after?_append (word cs : List Char) : after? word (word ++ cs) = some cs := by
  induction word with
  | nil => rfl
  | cons w word ih => rw [List.cons_append, after?, if_pos rfl, ih]

theorem before?_append (cs word : List Char) : before? word (cs ++ word) = some cs := by
  rw [before?, List.reverse_append, after?_append, Option.map_some, List.reverse_reverse]

theorem after?_eq_some {word cs rest : List Char} (h : after? word cs = some rest) : cs = word ++ rest := by
  induction word generalizing cs with
  | nil => exact Option.some.inj h
  | cons w word ih =>
    cases cs with
    | nil => cases h
    | cons c cs =>
      rw [after?] at h
      split at h
      · next he => rw [he, ih h, List.cons_append]
      · cases h

theorem before?_eq_some {word cs rest : List Char} (h : before? word cs = some rest) : cs = rest ++ word := by
  obtain ⟨reversed, hafter, rfl⟩ := Option.map_eq_some_iff.1 h
  have hcs := congrArg List.reverse (after?_eq_some hafter)
  rwa [List.reverse_reverse, List.reverse_append, List.reverse_reverse] at hcs

theorem number?_unsigned {cs : List Char} (h : ∀ rest, cs ≠ '+' :: rest) :
    number? cs = if cs ≠ [] ∧ cs.all Char.isDigit ∧ value cs < UInt64.size then some (value cs) else none := by
  cases cs with
  | nil => rfl
  | cons c rest =>
    simp only [number?]

/-- A plus sign may come first, but no numeral has one. -/
theorem number?_padded {n : Nat} (h : n < UInt64.size) (width : Nat) : number? (padded width n) = some n := by
  have hdigits : (padded width n).all Char.isDigit = true :=
    List.all_eq_true.2 fun _ hc => isDigit_of_mem_padded hc
  rw [number?_unsigned, if_pos ⟨padded_ne_nil width n, hdigits, by rwa [value_padded]⟩, value_padded]
  intro rest hplus
  have hsign : ('+' : Char).isDigit := isDigit_of_mem_padded (hplus ▸ List.mem_cons_self ..)
  exact absurd hsign (by decide)

/-- A name is read as the number it was written for. -/
theorem sequenceNr?_fileName {n : Nat} (h : n < UInt64.size) : sequenceNr? (fileName n) = some n := by
  rw [sequenceNr?, fileName, String.toList_append, String.toList_append, List.append_assoc, after?_append]
  simp only [Option.bind_eq_bind, Option.bind_some]
  rw [before?_append, Option.bind_some, String.toList_ofList, number?_padded h]

/-- What is read as a number has the ends of a name that is written. -/
theorem sequenceNr?_eq_some {name : String} {n : Nat} (h : sequenceNr? name = some n) :
    ∃ cs, name.toList = "snapshot-".toList ++ (cs ++ ".json".toList) ∧ number? cs = some n := by
  obtain ⟨behind, hafter, h⟩ := Option.bind_eq_some_iff.1 h
  obtain ⟨cs, hbefore, hnumber⟩ := Option.bind_eq_some_iff.1 h
  exact ⟨cs, before?_eq_some hbefore ▸ after?_eq_some hafter, hnumber⟩

/-! ### Temporary names -/

theorem temporary_ne_json (cs ds : List Char) : cs ++ ".tmp".toList ≠ ds ++ ".json".toList := by
  intro h
  have hlast := congrArg List.getLast? h
  rw [List.getLast?_append, List.getLast?_append] at hlast
  simp at hlast

/-- A temporary name is read as no number. -/
theorem sequenceNr?_temporary (stem : String) : sequenceNr? (stem ++ ".tmp") = none := by
  refine Option.eq_none_iff_forall_ne_some.2 fun n hread => ?_
  obtain ⟨cs, hname, -⟩ := sequenceNr?_eq_some hread
  rw [String.toList_append, ← List.append_assoc] at hname
  exact temporary_ne_json _ _ hname

/-- No snapshot goes by a temporary name. -/
theorem fileName_ne_temporary (n : Nat) (stem : String) : fileName n ≠ stem ++ ".tmp" := by
  intro h
  have hchars := congrArg String.toList h
  simp only [fileName, String.toList_append] at hchars
  exact temporary_ne_json _ _ hchars.symm

/-! ### The order of names -/

theorem fileName_inj {m n : Nat} (h : fileName m = fileName n) : m = n := by
  have hchars := congrArg String.toList h
  simp only [fileName, String.toList_append, String.toList_ofList] at hchars
  have hpadded := List.append_cancel_left (List.append_cancel_right hchars)
  rw [← value_padded 20 m, hpadded, value_padded]

theorem fileName_lt {m n : Nat} (hn : n < UInt64.size) (h : m < n) : fileName m < fileName n := by
  have hwidth : n < 10 ^ 20 := Nat.lt_trans hn (by decide)
  show (fileName m).toList < (fileName n).toList
  simp only [fileName, String.toList_append, String.toList_ofList, List.append_assoc]
  exact List.append_left_lt (padded_lt (by decide) hwidth h _ _)

/-- **Names are in the order of their numbers.** -/
theorem fileName_lt_iff {m n : Nat} (hm : m < UInt64.size) (hn : n < UInt64.size) :
    fileName m < fileName n ↔ m < n := by
  refine ⟨fun h => Nat.lt_of_not_le fun hle => ?_, fileName_lt hn⟩
  obtain hlt | rfl := Nat.lt_or_eq_of_le hle
  · exact String.lt_irrefl _ (String.lt_trans h (fileName_lt hm hlt))
  · exact String.lt_irrefl _ h

end CartLedger.Snapshot.Durable
