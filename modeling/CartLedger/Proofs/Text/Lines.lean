import CartLedger.Text.Lines

/-! Files that are lists of lines.

`joined` is what a file holds after lines were written one after another. Read again it
is all intact, whatever was torn off behind it, and its lines are the ones written,
numbered from one (`numbered_joined`). -/
namespace CartLedger.Text.Lines

/-- The bytes of lines, each with its newline. -/
def joined (ls : List (List UInt8)) : List UInt8 := ls.flatMap (· ++ [newline])

theorem joined_cons (l : List UInt8) (ls : List (List UInt8)) :
    joined (l :: ls) = l ++ newline :: joined ls := by
  rw [joined, List.flatMap_cons, List.append_assoc]
  rfl

theorem joined_append (ls ls' : List (List UInt8)) :
    joined (ls ++ ls') = joined ls ++ joined ls' := List.flatMap_append

/-- Lines that a file is made of: none is blank, and none holds a newline. -/
def Plain (l : List UInt8) : Prop := l ≠ [] ∧ newline ∉ l

/-! ### The intact part -/

theorem intact_torn {torn : List UInt8} (h : newline ∉ torn) : intact torn = [] := by
  induction torn with
  | nil => rfl
  | cons b torn ih =>
    have hb : b ≠ newline := fun he => h (he ▸ List.mem_cons_self ..)
    rw [intact, ih fun hm => h (List.mem_cons_of_mem _ hm)]
    exact if_neg hb

theorem intact_line (l rest : List UInt8) :
    intact (l ++ newline :: rest) = l ++ newline :: intact rest := by
  induction l with
  | nil =>
    rw [List.nil_append, intact]
    cases intact rest <;> rfl
  | cons b l ih =>
    rw [List.cons_append, intact, ih]
    cases l <;> rfl

/-- What is torn off behind the lines is not part of the file. -/
theorem intact_joined_append (ls : List (List UInt8)) {torn : List UInt8} (h : newline ∉ torn) :
    intact (joined ls ++ torn) = joined ls := by
  induction ls with
  | nil => exact intact_torn h
  | cons l ls ih => rw [joined_cons, List.append_assoc, List.cons_append, intact_line, ih]

theorem intact_joined (ls : List (List UInt8)) : intact (joined ls) = joined ls := by
  have h := intact_joined_append ls (List.not_mem_nil (a := newline))
  rwa [List.append_nil] at h

/-! ### Lines -/

theorem pieces_ne_nil (bytes : List UInt8) : pieces bytes ≠ [] := by
  cases bytes with
  | nil => exact List.cons_ne_nil _ _
  | cons b rest =>
    rw [pieces]
    split
    · exact List.cons_ne_nil _ _
    · split <;> exact List.cons_ne_nil _ _

/-- What stands before a newline and what stands behind it are divided on their own. -/
theorem pieces_append_newline (bytes rest : List UInt8) :
    pieces (bytes ++ newline :: rest) = pieces bytes ++ pieces rest := by
  induction bytes with
  | nil => exact if_pos rfl
  | cons b bytes ih =>
    obtain ⟨piece, more, hpieces⟩ := List.exists_cons_of_ne_nil (pieces_ne_nil bytes)
    rw [List.cons_append, pieces, pieces, ih, hpieces]
    split <;> rfl

theorem pieces_of_notMem {l : List UInt8} (h : newline ∉ l) : pieces l = [l] := by
  induction l with
  | nil => rfl
  | cons b l ih =>
    have hb : b ≠ newline := fun he => h (he ▸ List.mem_cons_self ..)
    rw [pieces, if_neg hb, ih fun hm => h (List.mem_cons_of_mem _ hm)]

theorem pieces_line {l : List UInt8} (h : newline ∉ l) (rest : List UInt8) :
    pieces (l ++ newline :: rest) = l :: pieces rest := by
  rw [pieces_append_newline, pieces_of_notMem h]
  rfl

theorem all_append_newline (bytes rest : List UInt8) : all (bytes ++ newline :: rest) = all bytes ++ all rest := by
  rw [all, pieces_append_newline, List.filter_append]
  rfl

/-- The last line counts without its newline, -/
theorem all_concat_newline (bytes : List UInt8) : all (bytes ++ [newline]) = all bytes :=
  (all_append_newline bytes []).trans (List.append_nil _)

/-- unless there is nothing on it. -/
theorem all_of_plain {l : List UInt8} (h : Plain l) : all l = [l] := by
  rw [all, pieces_of_notMem h.2, List.filter_eq_self]
  simpa using h.1

theorem pieces_joined {ls : List (List UInt8)} (h : ∀ l ∈ ls, Plain l) :
    pieces (joined ls) = ls ++ [[]] := by
  induction ls with
  | nil => rfl
  | cons l ls ih =>
    rw [joined_cons, pieces_line (h l (List.mem_cons_self ..)).2,
      ih fun l' hl' => h l' (List.mem_cons_of_mem _ hl')]
    rfl

theorem all_joined {ls : List (List UInt8)} (h : ∀ l ∈ ls, Plain l) : all (joined ls) = ls := by
  rw [all, pieces_joined h, List.filter_append, List.filter_eq_self.2]
  · exact List.append_nil ls
  · intro l hl
    simpa using (h l hl).1

/-- Lines with the numbers they have in a file, counted from `first`. -/
def counted (first : Nat) (ls : List (List UInt8)) : List (Nat × List UInt8) :=
  (ls.zipIdx first).map Prod.swap

theorem counted_cons (first : Nat) (l : List UInt8) (ls : List (List UInt8)) :
    counted first (l :: ls) = (first, l) :: counted (first + 1) ls := rfl

theorem counted_concat (first : Nat) (ls : List (List UInt8)) (l : List UInt8) :
    counted first (ls ++ [l]) = counted first ls ++ [(first + ls.length, l)] := by
  rw [counted, List.zipIdx_append, List.map_append]
  rfl

theorem filterMap_zipIdx {ls : List (List UInt8)} (h : ∀ l ∈ ls, Plain l) (first : Nat) :
    ((ls ++ [[]]).zipIdx first).filterMap (fun x : List UInt8 × Nat =>
      if x.1.isEmpty then none else some (x.2, x.1)) = counted first ls := by
  induction ls generalizing first with
  | nil => rfl
  | cons l ls ih =>
    have hl : l.isEmpty = false := by simpa using (h l (List.mem_cons_self ..)).1
    rw [List.cons_append, List.zipIdx_cons, List.filterMap_cons, counted_cons,
      ih (fun l' hl' => h l' (List.mem_cons_of_mem _ hl')) (first + 1)]
    simp only [hl, Bool.false_eq_true, if_false]

theorem numbered_joined {ls : List (List UInt8)} (h : ∀ l ∈ ls, Plain l) :
    numbered (joined ls) = counted 1 ls := by
  rw [numbered, intact_joined, pieces_joined h]
  exact filterMap_zipIdx h 1

/-- The lines of a file have ascending numbers, blank ones left out. -/
theorem pairwise_numbered (bytes : List UInt8) :
    (numbered bytes).Pairwise (fun l l' => l.1 < l'.1) := by
  have hlines : ((pieces (intact bytes)).zipIdx 1).Pairwise (fun l l' => l.2 < l'.2) := by
    rw [← List.pairwise_map, List.zipIdx_map_snd]
    exact List.pairwise_lt_range' 1
  refine hlines.filterMap _ fun l l' hlt b hb b' hb' => ?_
  obtain rfl := Option.some.inj (Option.ite_none_left_eq_some.1 hb).2
  obtain rfl := Option.some.inj (Option.ite_none_left_eq_some.1 hb').2
  exact hlt

/-- One more line makes a file longer. -/
theorem length_joined_lt {ls ls' : List (List UInt8)} (h : ls' ≠ []) :
    (joined ls).length < (joined (ls ++ ls')).length := by
  cases ls' with
  | nil => exact absurd rfl h
  | cons l ls' =>
    rw [joined_append, joined_cons]
    simp only [List.length_append, List.length_cons]
    omega

end CartLedger.Text.Lines
