import CartLedger.OrderedMap

/-! What ordered maps answer.

Looking up is all that tells two maps apart (`OrderedMap.ext_get?`), and each operation
is pinned down by what it does to lookups: `get?_insert`, `get?_filter`, `get?_erase`. -/
namespace CartLedger

namespace Entries
variable {κ ν : Type} [LT κ] [DecidableLT κ] [DecidableEq κ]

theorem find?_put (k k' : κ) (v : ν) (entries : List (κ × ν)) :
    find? k' (put k v entries) = if k = k' then some v else find? k' entries := by
  induction entries with
  | nil => rw [put, find?_cons]
  | cons e rest ih =>
    simp only [put]
    split
    · rw [find?_cons]
    · split
      · rename_i h
        by_cases hk : k = k'
        · simp [find?_cons, hk]
        · have : e.1 ≠ k' := fun he => hk (h.trans he)
          simp [find?_cons, hk, this]
      · rename_i h
        rw [find?_cons, find?_cons, ih]
        by_cases hk : k = k'
        · have : e.1 ≠ k' := fun he => h (hk.trans he.symm)
          simp [hk, this]
        · simp [hk]

omit [DecidableLT κ] in
theorem find?_eq_none [OrderedKey κ] {k : κ} {entries : List (κ × ν)}
    (h : ∀ e ∈ entries, k < e.1) : find? k entries = none := by
  induction entries with
  | nil => rfl
  | cons e rest ih =>
    have hne : e.1 ≠ k := fun he => OrderedKey.irrefl k (he ▸ h e (List.mem_cons_self ..))
    rw [find?_cons, if_neg hne, ih fun e he => h e (List.mem_cons_of_mem _ he)]

omit [DecidableLT κ] in
theorem find?_eq_some_iff [OrderedKey κ] {entries : List (κ × ν)} (h : Ascending entries)
    (k : κ) (v : ν) : find? k entries = some v ↔ (k, v) ∈ entries := by
  induction entries with
  | nil => simp [find?]
  | cons e rest ih =>
    obtain ⟨hhead, hrest⟩ := List.pairwise_cons.1 h
    rw [find?_cons]
    by_cases hk : e.1 = k
    · subst hk
      have hnot : (e.1, v) ∉ rest := fun hm => OrderedKey.irrefl _ (hhead (e.1, v) hm)
      simp [hnot, Prod.ext_iff, eq_comm]
    · have : (k, v) ≠ e := fun he => hk (he ▸ rfl)
      simp [hk, this, ih hrest]

omit [DecidableLT κ] in
/-- Ascending lists with the same lookups are the same: the least key of each is in the
other. -/
theorem ext_find? [OrderedKey κ] {as bs : List (κ × ν)} (ha : Ascending as) (hb : Ascending bs)
    (h : ∀ k, find? k as = find? k bs) : as = bs := by
  induction as generalizing bs with
  | nil =>
    cases bs with
    | nil => rfl
    | cons b bs => simpa [find?_cons, find?] using h b.1
  | cons a as ih =>
    cases bs with
    | nil => simpa [find?_cons, find?] using h a.1
    | cons b bs =>
      obtain ⟨hamin, ha'⟩ := List.pairwise_cons.1 ha
      obtain ⟨hbmin, hb'⟩ := List.pairwise_cons.1 hb
      have hab : a ∈ b :: bs := by
        rw [← find?_eq_some_iff hb a.1 a.2, ← h]; simp [find?_cons]
      have hba : b ∈ a :: as := by
        rw [← find?_eq_some_iff ha b.1 b.2, h]; simp [find?_cons]
      have heq : a = b := by
        rcases List.mem_cons.1 hab with hab | hab
        · exact hab
        · rcases List.mem_cons.1 hba with hba | hba
          · exact hba.symm
          · exact absurd (OrderedKey.trans (hamin _ hba) (hbmin _ hab)) (OrderedKey.irrefl _)
      subst heq
      refine congrArg (a :: ·) (ih ha' hb' fun k => ?_)
      have hk := h k
      rw [find?_cons, find?_cons] at hk
      by_cases hak : a.1 = k
      · subst hak
        rw [find?_eq_none hamin, find?_eq_none hbmin]
      · simpa [hak] using hk

/-- Entries of different keys are put in either order. -/
theorem put_comm [OrderedKey κ] {entries : List (κ × ν)} (h : Ascending entries) {k k' : κ} (hne : k ≠ k') {v v' : ν} :
    put k v (put k' v' entries) = put k' v' (put k v entries) := by
  refine ext_find? (ascending_put _ _ (ascending_put _ _ h)) (ascending_put _ _ (ascending_put _ _ h)) fun x => ?_
  simp only [find?_put]
  by_cases hk : k = x
  · have hk' : k' ≠ x := fun he => hne (hk.trans he.symm)
    simp [hk, hk']
  · simp [hk]

/-- An entry behind all others is put at the end. -/
theorem put_last [OrderedKey κ] {k : κ} {v : ν} {entries : List (κ × ν)}
    (h : ∀ e ∈ entries, e.1 < k) : put k v entries = entries ++ [(k, v)] := by
  induction entries with
  | nil => rfl
  | cons e rest ih =>
    have hlt := h e (List.mem_cons_self ..)
    have hnlt : ¬ k < e.1 := fun h' => OrderedKey.irrefl _ (OrderedKey.trans hlt h')
    have hne : k ≠ e.1 := fun he => OrderedKey.irrefl k (he ▸ hlt)
    rw [put, if_neg hnlt, if_neg hne, ih fun e he => h e (List.mem_cons_of_mem _ he)]
    rfl

/-- Under a new key, an entry is put among the others. -/
theorem perm_put {k : κ} {v : ν} {entries : List (κ × ν)} (h : k ∉ entries.map (·.1)) :
    (put k v entries).Perm ((k, v) :: entries) := by
  induction entries with
  | nil => exact .refl _
  | cons e rest ih =>
    rw [List.map_cons, List.mem_cons, not_or] at h
    simp only [put]
    split
    · exact .refl _
    · rw [if_neg h.1]
      exact ((ih h.2).cons e).trans (.swap ..)

end Entries

namespace OrderedMap
variable {κ ν : Type} [LT κ] [DecidableLT κ] [DecidableEq κ]

omit [DecidableLT κ] in
theorem ext_get? [OrderedKey κ] {m m' : OrderedMap κ ν} (h : ∀ k, m.get? k = m'.get? k) : m = m' := by
  obtain ⟨as, ha⟩ := m
  obtain ⟨bs, hb⟩ := m'
  have := Entries.ext_find? ha hb h
  subst this
  rfl

omit [DecidableLT κ] in
@[simp] theorem get?_empty (k : κ) : (empty : OrderedMap κ ν).get? k = none := rfl

theorem get?_insert [OrderedKey κ] (m : OrderedMap κ ν) (k k' : κ) (v : ν) :
    (m.insert k v).get? k' = if k = k' then some v else m.get? k' := Entries.find?_put ..

omit [DecidableLT κ] in
theorem get?_filter (m : OrderedMap κ ν) (p : κ → Bool) (k : κ) :
    (m.filter p).get? k = if p k then m.get? k else none := Entries.find?_filter ..

omit [DecidableLT κ] in
theorem get?_erase (m : OrderedMap κ ν) (k k' : κ) :
    (m.erase k).get? k' = if k = k' then none else m.get? k' := by
  rw [erase, get?_filter]
  by_cases h : k = k'
  · simp [h]
  · simp [h, Ne.symm h]

omit [DecidableLT κ] in
theorem contains_eq_isSome (m : OrderedMap κ ν) (k : κ) : m.contains k = (m.get? k).isSome := by
  simp only [contains, get?, Entries.find?]
  generalize m.entries = entries
  induction entries with
  | nil => rfl
  | cons e rest ih => by_cases h : e.1 = k <;> simp_all

omit [DecidableLT κ] in
theorem get?_eq_some_iff [OrderedKey κ] (m : OrderedMap κ ν) (k : κ) (v : ν) :
    m.get? k = some v ↔ (k, v) ∈ m.entries := Entries.find?_eq_some_iff m.ascending k v

/-- Entries in order, inserted behind those that are there already. -/
theorem entries_foldl_insert [OrderedKey κ] (m : OrderedMap κ ν) (rest : List (κ × ν))
    (h : Entries.Ascending (m.entries ++ rest)) :
    (rest.foldl (fun m e => m.insert e.1 e.2) m).entries = m.entries ++ rest := by
  induction rest generalizing m with
  | nil => exact (List.append_nil _).symm
  | cons e rest ih =>
    have hput : (m.insert e.1 e.2).entries = m.entries ++ [e] :=
      Entries.put_last fun e' he => (List.pairwise_append.1 h).2.2 e' he _ (List.mem_cons_self ..)
    have hassoc : (m.insert e.1 e.2).entries ++ rest = m.entries ++ e :: rest := by
      rw [hput, List.append_assoc]
      rfl
    rw [List.foldl_cons, ih _ (hassoc ▸ h), hassoc]

theorem ofList_entries [OrderedKey κ] (m : OrderedMap κ ν) : ofList m.entries = m := by
  have h : (ofList m.entries).entries = m.entries := entries_foldl_insert empty _ m.ascending
  obtain ⟨entries, hentries⟩ := m
  generalize ofList entries = m' at h
  obtain ⟨entries', hentries'⟩ := m'
  cases h
  rfl

end OrderedMap

namespace OrderedSet

theorem ofList_toList {κ : Type} [LT κ] [DecidableLT κ] [DecidableEq κ] [OrderedKey κ]
    (s : OrderedSet κ) : ofList s.toList = s := by
  rw [ofList, toList, OrderedMap.keys, List.map_map, show ((·, ()) ∘ fun e : κ × Unit => e.1) = id from rfl,
    List.map_id, OrderedMap.ofList_entries]

end OrderedSet

end CartLedger
