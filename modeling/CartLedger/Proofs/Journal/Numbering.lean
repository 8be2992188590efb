import CartLedger.Journal.Numbering

/-! Streams without gaps.

A stream is `Numbered` when its records count from one. Then the number of its last record
is how many there are, what is to come next follows from that alone, and reading from a
number on is dropping what is before it. `Tidy` says so of all streams of a journal, and is
kept by every record that is taken in its turn. -/
namespace CartLedger.Journal
variable {rs : List Record} {r : Record}

/-- Records count from one. -/
def Numbered (rs : List Record) : Prop := rs.map (·.sequenceNr) = List.range' 1 rs.length

theorem numbered_nil : Numbered [] := rfl

theorem Numbered.concat (h : Numbered rs) (hr : r.sequenceNr = rs.length + 1) : Numbered (rs ++ [r]) := by
  rw [Numbered, List.map_append, h, List.length_append, List.length_singleton, List.range'_concat]
  simp only [List.map_cons, List.map_nil, hr, Nat.one_mul, Nat.add_comm]

theorem Numbered.take (h : Numbered rs) (k : Nat) : Numbered (rs.take k) := by
  rw [Numbered, List.map_take, h, List.length_take]
  obtain hk | hk := Nat.le_total rs.length k
  · rw [List.take_range'_of_length_le hk, Nat.min_eq_right hk]
  · rw [List.take_range'_of_length_ge hk, Nat.min_eq_left hk]

theorem Numbered.getElem (h : Numbered rs) {i : Nat} (hi : i < rs.length) : rs[i].sequenceNr = i + 1 := by
  have hmap : (rs.map (·.sequenceNr))[i]? = (List.range' 1 rs.length)[i]? := by rw [h]
  simp [hi] at hmap
  omega

theorem Numbered.highestOf (h : Numbered rs) : highestOf rs = rs.length := by
  rw [Journal.highestOf]
  cases hlast : rs.getLast? with
  | none => rw [List.getLast?_eq_none_iff.1 hlast]; rfl
  | some r =>
    have hne : rs ≠ [] := fun he => by rw [he] at hlast; cases hlast
    have hlength := List.length_pos_iff.2 hne
    rw [List.getLast?_eq_some_getLast hne] at hlast
    have hr := h.getElem (i := rs.length - 1) (by omega)
    rw [← List.getLast_eq_getElem hne, Option.some.inj hlast] at hr
    show r.sequenceNr = rs.length
    omega

/-- Of records counted from `first`, those from `start` on are what is left behind a drop. -/
theorem filter_counted {first : Nat} (h : rs.map (·.sequenceNr) = List.range' first rs.length)
    (start : Nat) : rs.filter (fun r => start ≤ r.sequenceNr) = rs.drop (start - first) := by
  induction rs generalizing first with
  | nil => simp
  | cons r rest ih =>
    rw [List.map_cons, List.length_cons, List.range'_succ, List.cons.injEq] at h
    have hrest := ih h.2
    rw [List.filter_cons, hrest, h.1]
    by_cases hstart : start ≤ first
    · have hzero : start - first = 0 := by omega
      have hzero' : start - (first + 1) = 0 := by omega
      rw [hzero, hzero', if_pos (decide_eq_true hstart), List.drop_zero, List.drop_zero]
    · have hsucc : start - first = (start - (first + 1)) + 1 := by omega
      rw [hsucc, List.drop_succ_cons, if_neg (by simpa using hstart)]

theorem Numbered.filter (h : Numbered rs) (start : Nat) :
    rs.filter (fun r => start ≤ r.sequenceNr) = rs.drop (start - 1) := filter_counted h start

/-- Numbered or not, all records come after none. -/
theorem filter_zero (rs : List Record) : rs.filter (fun r => 0 ≤ r.sequenceNr) = rs :=
  List.filter_eq_self.2 fun r _ => decide_eq_true (Nat.zero_le r.sequenceNr)

/-! ### The next record -/

theorem checkNext_ok {highest : Nat} (h : r.sequenceNr = highest + 1) : checkNext r highest = .ok () :=
  if_pos h

theorem checkNext_error {highest : Nat} (h : r.sequenceNr ≠ highest + 1) :
    ∃ e, checkNext r highest = .error e := by
  rw [checkNext, if_neg h]
  split
  · exact ⟨_, rfl⟩
  · exact ⟨_, rfl⟩

/-! ### Streams -/

/-- The streams after a record was taken. -/
def extend (streams : StreamId → List Record) (r : Record) : StreamId → List Record :=
  fun id => if id = r.stream then streams id ++ [r] else streams id

theorem extend_self (streams : StreamId → List Record) (r : Record) :
    extend streams r r.stream = streams r.stream ++ [r] := if_pos rfl

theorem extend_of_ne {streams : StreamId → List Record} {id : StreamId} (h : id ≠ r.stream) :
    extend streams r id = streams id := if_neg h

/-- Records are in their own streams, and each stream is without gaps. -/
structure Tidy (streams : StreamId → List Record) : Prop where
  numbered : ∀ id, Numbered (streams id)
  own : ∀ id, ∀ r ∈ streams id, r.stream = id

theorem tidy_empty : Tidy fun _ => [] := ⟨fun _ => numbered_nil, fun _ _ hr => by cases hr⟩

theorem Tidy.extend {streams : StreamId → List Record} (h : Tidy streams)
    (hr : r.sequenceNr = (streams r.stream).length + 1) : Tidy (extend streams r) where
  numbered id := by
    by_cases hid : id = r.stream
    · rw [hid, extend_self]
      exact (h.numbered r.stream).concat hr
    · rw [extend_of_ne hid]
      exact h.numbered id
  own id r' hr' := by
    by_cases hid : id = r.stream
    · rw [hid, extend_self] at hr'
      obtain hr' | hr' := List.mem_append.1 hr'
      · exact (h.own _ r' hr').trans hid.symm
      · rw [List.mem_singleton.1 hr', hid]
    · rw [extend_of_ne hid] at hr'
      exact h.own id r' hr'

end CartLedger.Journal
