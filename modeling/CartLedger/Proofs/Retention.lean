import CartLedger.Retention

/-! Which snapshots are left.

After `m` events of a cart, the snapshots that were saved and not discarded again are
those at the last few multiples of `every` (`keptNumbers`). One more event either is not
saved at, and changes nothing, or adds one multiple and lets the ones that the window no
longer reaches fall off (`keptNumbers_due`, `keptNumbers_not_due`). -/
namespace CartLedger.Retention
variable {r : Retention} {m : Nat}

/-- How many snapshots there are after `m` events. -/
def keptCount (r : Retention) (m : Nat) : Nat := min (m / r.every) (max r.keep 1)

/-- The numbers of the snapshots that are there after `m` events: so many of the multiples of
`every` up to `m`, the last ones. -/
def keptNumbers (r : Retention) (m : Nat) : List Nat :=
  (List.range' (m / r.every + 1 - r.keptCount m) (r.keptCount m)).map (r.every * ·)

/-- The number of the latest snapshot after `m` events, zero if there is none. -/
def latest (r : Retention) (m : Nat) : Nat := r.every * (m / r.every)

theorem latest_le (r : Retention) (m : Nat) : r.latest m ≤ m := Nat.mul_div_le m r.every

theorem keptCount_le (r : Retention) (m : Nat) : r.keptCount m ≤ m / r.every := Nat.min_le_left ..

theorem mem_keptNumbers {n : Nat} :
    n ∈ r.keptNumbers m ↔ ∃ j, (m / r.every < j + r.keptCount m ∧ j ≤ m / r.every) ∧ n = r.every * j := by
  have hle := r.keptCount_le m
  simp only [keptNumbers, List.mem_map, List.mem_range'_1]
  refine exists_congr fun j => ?_
  rw [eq_comm (a := n)]
  refine and_congr_left fun _ => ?_
  omega

theorem le_of_mem_keptNumbers {n : Nat} (h : n ∈ r.keptNumbers m) : n ≤ m := by
  obtain ⟨j, ⟨-, hj⟩, rfl⟩ := mem_keptNumbers.1 h
  exact Nat.le_trans (Nat.mul_le_mul_left _ hj) (r.latest_le m)

theorem keptNumbers_zero (r : Retention) : r.keptNumbers 0 = [] := by
  rw [keptNumbers, keptCount, Nat.zero_div, Nat.zero_min]
  rfl

/-- The last of the snapshots that are there. -/
theorem getLast?_keptNumbers (r : Retention) (m : Nat) :
    (r.keptNumbers m).getLast? = if m / r.every = 0 then none else some (r.latest m) := by
  rw [keptNumbers, List.getLast?_map, List.getLast?_range']
  have hle := r.keptCount_le m
  by_cases hzero : m / r.every = 0
  · have hcount : r.keptCount m = 0 := by omega
    rw [if_pos hcount, if_pos hzero]
    rfl
  · have hcount : r.keptCount m ≠ 0 := by rw [keptCount]; omega
    rw [if_neg hcount, if_neg hzero, Option.map_some, latest]
    congr 2
    omega

/-! ### One more event -/

/-- As long as numbers have 64 bits, it does not show that the window has. -/
theorem deleteUpto_eq (r : Retention) {n : Nat} (h : n < UInt64.size) :
    r.deleteUpto n = n - r.every * max r.keep 1 := by
  rw [deleteUpto, window]
  omega

/-- A snapshot is not discarded by its own save, unless it is at zero or the window is empty. -/
theorem deleteUpto_lt_iff {n : Nat} : r.deleteUpto n < n ↔ r.every ≠ 0 ∧ n ≠ 0 := by
  have hkeep : 0 < max r.keep 1 := Nat.le_max_right ..
  have hwindow : 0 < r.window ↔ r.every ≠ 0 := by
    rw [window, Nat.lt_min, Nat.mul_pos_iff_of_pos_right hkeep, Nat.pos_iff_ne_zero]
    exact and_iff_left (by decide)
  rw [deleteUpto, ← hwindow]
  omega

theorem shouldSnapshot_iff : r.shouldSnapshot m = true ↔ r.every ≠ 0 ∧ m ≠ 0 ∧ m % r.every = 0 := by
  rw [shouldSnapshot, decide_eq_true_eq]

/-- Between two multiples nothing changes. -/
theorem keptNumbers_not_due (hevery : 1 ≤ r.every) (h : r.shouldSnapshot (m + 1) = false) :
    r.keptNumbers (m + 1) = r.keptNumbers m := by
  have hmod : (m + 1) % r.every ≠ 0 := fun hmod => by
    rw [shouldSnapshot_iff.2 ⟨by omega, by omega, hmod⟩] at h
    cases h
  have hdiv : (m + 1) / r.every = m / r.every := Nat.succ_div_of_mod_ne_zero hmod
  rw [keptNumbers, keptNumbers, keptCount, keptCount, hdiv]

/-- At a multiple, that multiple is added and what the window does not reach is left out. -/
theorem keptNumbers_due (hfits : m + 1 < UInt64.size) (h : r.shouldSnapshot (m + 1) = true) :
    r.keptNumbers (m + 1) = (r.keptNumbers m ++ [m + 1]).filter (r.deleteUpto (m + 1) < ·) := by
  obtain ⟨hevery, -, hmod⟩ := shouldSnapshot_iff.1 h
  have hdiv : (m + 1) / r.every = m / r.every + 1 := Nat.succ_div_of_mod_eq_zero hmod
  have hnext : m + 1 = r.every * (m / r.every + 1) := by
    rw [← hdiv, Nat.mul_div_cancel' (Nat.dvd_of_mod_eq_zero hmod)]
  -- With the new one, the multiples are in a row; the window is a bound on which they are.
  have hrow : r.keptNumbers m ++ [m + 1] =
      (List.range' (m / r.every + 1 - r.keptCount m) (r.keptCount m + 1)).map (r.every * ·) := by
    have hle := r.keptCount_le m
    have hlast : m / r.every + 1 - r.keptCount m + r.keptCount m = m / r.every + 1 := by omega
    rw [List.range'_concat, List.map_append, List.map_singleton, Nat.one_mul, hlast, ← hnext]
    rfl
  have hreached : ∀ j, 1 ≤ j →
      (r.deleteUpto (m + 1) < r.every * j ↔ m / r.every + 1 < j + max r.keep 1) := by
    intro j hj
    rw [deleteUpto_eq r hfits, hnext, ← Nat.mul_sub, Nat.mul_lt_mul_left (Nat.pos_of_ne_zero hevery)]
    omega
  have hall : ∀ a count, 1 ≤ a → m / r.every + 1 < a + max r.keep 1 →
      (List.range' a count).filter ((r.deleteUpto (m + 1) < ·) ∘ (r.every * ·)) = List.range' a count := by
    intro a count ha hreach
    refine List.filter_eq_self.2 fun j hj => decide_eq_true ((hreached j ?_).2 ?_)
    · exact Nat.le_trans ha (List.mem_range'_1.1 hj).1
    · have hle := (List.mem_range'_1.1 hj).1
      omega
  rw [hrow, List.filter_map, keptNumbers]
  congr 1
  unfold keptCount
  rw [hdiv]
  have hkeep : 1 ≤ max r.keep 1 := Nat.le_max_right ..
  rcases Nat.lt_or_ge (m / r.every) (max r.keep 1) with hfew | hmany
  · rw [Nat.min_eq_left (Nat.le_of_lt hfew), Nat.min_eq_left hfew, hall _ _ (by omega) (by omega)]
    congr 1
    omega
  · -- There are as many as are kept already, so the first of them falls off.
    have hfirst : ¬ r.deleteUpto (m + 1) < r.every * (m / r.every + 1 - max r.keep 1) := by
      rw [hreached _ (by omega)]
      omega
    rw [Nat.min_eq_right hmany, Nat.min_eq_right (by omega), List.range'_succ,
      List.filter_cons_of_neg (by simpa using hfirst), hall _ _ (by omega) (by omega)]
    congr 1
    omega

end CartLedger.Retention
