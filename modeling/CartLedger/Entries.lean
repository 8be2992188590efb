/-! Lists of entries, each a value under a key.

The first entry of a key is the one that counts. `set` and `erase` leave no other behind,
so what a list answers afterwards is said by `find?_set` and `find?_erase`. Where no key has
two entries to begin with, none ever has. -/
namespace CartLedger.Entries
variable {κ ν : Type} [DecidableEq κ]

/-- The value under a key. -/
def find? (k : κ) (entries : List (κ × ν)) : Option ν :=
  (entries.find? (fun e => e.1 = k)).map (·.2)

def erase (k : κ) (entries : List (κ × ν)) : List (κ × ν) := entries.filter (fun e => e.1 ≠ k)

/-- Puts an entry in front, in the place of any other with its key. -/
def set (k : κ) (v : ν) (entries : List (κ × ν)) : List (κ × ν) := (k, v) :: erase k entries

@[simp] theorem find?_nil (k : κ) : find? k ([] : List (κ × ν)) = none := rfl

theorem find?_cons (k : κ) (e : κ × ν) (rest : List (κ × ν)) :
    find? k (e :: rest) = if e.1 = k then some e.2 else find? k rest := by
  by_cases h : e.1 = k <;> simp [find?, h]

theorem find?_filter (p : κ → Bool) (k : κ) (entries : List (κ × ν)) :
    find? k (entries.filter (fun e => p e.1)) = if p k then find? k entries else none := by
  induction entries with
  | nil => simp
  | cons e rest ih =>
    by_cases hk : e.1 = k
    · by_cases hp : p k <;> simp [find?_cons, hk, hp, ih]
    · by_cases hp : p e.1 <;> simp [find?_cons, hk, hp, ih]

theorem find?_map {μ : Type} (f : κ → ν → μ) (k : κ) (entries : List (κ × ν)) :
    find? k (entries.map fun e => (e.1, f e.1 e.2)) = (find? k entries).map (f k) := by
  induction entries with
  | nil => rfl
  | cons e rest ih =>
    by_cases hk : e.1 = k
    · simp [find?_cons, hk]
    · simp [find?_cons, hk, ih]

theorem find?_absent {k : κ} {entries : List (κ × ν)} (h : k ∉ entries.map (·.1)) : find? k entries = none := by
  induction entries with
  | nil => rfl
  | cons e rest ih =>
    rw [List.map_cons, List.mem_cons, not_or] at h
    rw [find?_cons, if_neg (Ne.symm h.1), ih h.2]

theorem find?_erase (k k' : κ) (entries : List (κ × ν)) :
    find? k' (erase k entries) = if k = k' then none else find? k' entries := by
  have := find?_filter (fun x => decide (x ≠ k)) k' entries
  by_cases h : k = k'
  · simpa [erase, h] using this
  · simpa [erase, h, Ne.symm h] using this

theorem find?_set (k k' : κ) (v : ν) (entries : List (κ × ν)) :
    find? k' (set k v entries) = if k = k' then some v else find? k' entries := by
  rw [set, find?_cons, find?_erase]
  by_cases h : k = k' <;> simp [h]

/-! ### One entry for a key -/

theorem nodup_erase {entries : List (κ × ν)} (h : (entries.map (·.1)).Nodup) (k : κ) :
    ((erase k entries).map (·.1)).Nodup := h.sublist (List.filter_sublist.map _)

theorem nodup_set {entries : List (κ × ν)} (h : (entries.map (·.1)).Nodup) (k : κ) (v : ν) :
    ((set k v entries).map (·.1)).Nodup := by
  refine List.nodup_cons.2 ⟨fun hmem => ?_, nodup_erase h k⟩
  obtain ⟨e, he, hk⟩ := List.mem_map.1 hmem
  exact of_decide_eq_true (List.mem_filter.1 he).2 hk

theorem find?_eq_some_iff_mem {entries : List (κ × ν)} (h : (entries.map (·.1)).Nodup) {k : κ} {v : ν} :
    find? k entries = some v ↔ (k, v) ∈ entries := by
  induction entries with
  | nil => simp
  | cons e rest ih =>
    obtain ⟨hnew, hrest⟩ := List.nodup_cons.1 h
    rw [find?_cons, List.mem_cons]
    split
    · next hk =>
      subst hk
      constructor
      · intro hv
        exact .inl (Option.some.inj hv ▸ rfl)
      · rintro (he | hmem)
        · rw [← he]
        · exact absurd (List.mem_map.2 ⟨_, hmem, rfl⟩) hnew
    · next hk =>
      rw [ih hrest, or_iff_right fun he => hk (congrArg Prod.fst he).symm]

end CartLedger.Entries
