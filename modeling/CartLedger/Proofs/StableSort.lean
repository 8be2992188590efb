/-! Sorting by a key, without changing the order of what has the same key.

A list that is sorted by a key is known by its parts, one for each key (`ext_of_parts`).
Sorting leaves the parts as they are (`filter_mergeSort`), so going through the keys in
order and listing the part of each is sorting (`mergeSort_eq_flatMap`). -/
namespace CartLedger.StableSort

/-- What an order owes for lists to be sorted by it. -/
structure Order {κ : Type} (le : κ → κ → Bool) : Prop where
  trans : ∀ {a b c}, le a b → le b c → le a c
  total : ∀ a b, le a b ∨ le b a
  antisymm : ∀ {a b}, le a b → le b a → a = b

theorem Order.refl {κ : Type} {le : κ → κ → Bool} (h : Order le) (a : κ) : le a a := (h.total a a).elim id id

variable {α κ : Type} [DecidableEq κ] {le : κ → κ → Bool} {key : α → κ}

/-- Comparing by key. -/
def byKey (le : κ → κ → Bool) (key : α → κ) (a b : α) : Bool := le (key a) (key b)

omit [DecidableEq κ] in
theorem Order.byKey_trans (h : Order le) (a b c : α) (hab : byKey le key a b) (hbc : byKey le key b c) :
    byKey le key a c := h.trans hab hbc

omit [DecidableEq κ] in
theorem Order.byKey_total (h : Order le) (a b : α) : (byKey le key a b || byKey le key b a) = true :=
  Bool.or_eq_true_iff.2 (h.total (key a) (key b))

theorem filter_mergeSort (h : Order le) (l : List α) (k : κ) :
    (l.mergeSort (byKey le key)).filter (fun a => key a = k) = l.filter (fun a => key a = k) := by
  have hsorted : (l.filter (fun a => key a = k)).Pairwise (fun a b => byKey le key a b) := by
    refine List.pairwise_of_forall_mem_list fun a ha b hb => ?_
    have ha : key a = k := of_decide_eq_true (List.mem_filter.1 ha).2
    have hb : key b = k := of_decide_eq_true (List.mem_filter.1 hb).2
    rw [byKey, ha, hb]
    exact h.refl k
  have hsub := List.sublist_mergeSort h.byKey_trans h.byKey_total hsorted List.filter_sublist
  have hfilter := hsub.filter (fun a => decide (key a = k))
  rw [List.filter_filter, List.filter_congr fun a _ => Bool.and_self _] at hfilter
  refine (hfilter.eq_of_length ?_).symm
  exact ((List.mergeSort_perm l (byKey le key)).filter _).length_eq.symm

/-- Two sorted lists with the same parts are the same. -/
theorem ext_of_parts (h : Order le) {as bs : List α} (ha : as.Pairwise (fun a b => byKey le key a b))
    (hb : bs.Pairwise (fun a b => byKey le key a b))
    (hparts : ∀ k, as.filter (fun a => key a = k) = bs.filter (fun a => key a = k)) : as = bs := by
  induction as generalizing bs with
  | nil =>
    cases bs with
    | nil => rfl
    | cons b bs => simpa using hparts (key b)
  | cons a as ih =>
    cases bs with
    | nil => simpa using hparts (key a)
    | cons b bs =>
      obtain ⟨haas, has⟩ := List.pairwise_cons.1 ha
      obtain ⟨hbbs, hbs⟩ := List.pairwise_cons.1 hb
      -- Each head is among the other list, so neither key comes before the other.
      have hmem : ∀ x ∈ a :: as, x ∈ b :: bs := fun x hx =>
        (List.mem_filter.1 (hparts (key x) ▸ List.mem_filter.2 ⟨hx, decide_eq_true rfl⟩)).1
      have hmem' : ∀ x ∈ b :: bs, x ∈ a :: as := fun x hx =>
        (List.mem_filter.1 (hparts (key x) ▸ List.mem_filter.2 ⟨hx, decide_eq_true rfl⟩)).1
      have hle : le (key b) (key a) := by
        obtain he | hmem := List.mem_cons.1 (hmem a (List.mem_cons_self ..))
        · rw [he]
          exact h.refl _
        · exact hbbs a hmem
      have hle' : le (key a) (key b) := by
        obtain he | hmem := List.mem_cons.1 (hmem' b (List.mem_cons_self ..))
        · rw [he]
          exact h.refl _
        · exact haas b hmem
      have hkey : key a = key b := h.antisymm hle' hle
      have hhead := hparts (key a)
      simp only [List.filter_cons, hkey, decide_true, if_true, List.cons.injEq] at hhead
      obtain ⟨rfl, -⟩ := hhead
      refine congrArg _ (ih has hbs fun k => ?_)
      have hk := hparts k
      rw [List.filter_cons, List.filter_cons] at hk
      split at hk
      · exact (List.cons.inj hk).2
      · exact hk

/-- Of a list for one key, and none for the others, that list is left. -/
theorem flatMap_ite {ks : List κ} (hks : ks.Nodup) (k : κ) (as : List α) :
    (ks.flatMap fun k' => if k' = k then as else []) = if k ∈ ks then as else [] := by
  induction ks with
  | nil => rfl
  | cons k' ks ih =>
    obtain ⟨hnot, hnodup⟩ := List.nodup_cons.1 hks
    rw [List.flatMap_cons, ih hnodup]
    by_cases he : k' = k
    · subst he
      simp [hnot]
    · simp [he, Ne.symm he]

/-- Parts that hold what has their keys, each listed once, are found again. -/
theorem filter_flatMap {ks : List κ} (hks : ks.Nodup) {part : κ → List α} (hown : ∀ k, ∀ a ∈ part k, key a = k)
    (k : κ) : (ks.flatMap part).filter (fun a => key a = k) = if k ∈ ks then part k else [] := by
  have hpart : ∀ k', (part k').filter (fun a => key a = k) = if k' = k then part k else [] := by
    intro k'
    split
    · next he =>
      rw [he, List.filter_eq_self]
      exact fun a ha => decide_eq_true (hown k a ha)
    · next hne =>
      rw [List.filter_eq_nil_iff]
      exact fun a ha hak => hne ((hown k' a ha).symm.trans (of_decide_eq_true hak))
  rw [List.filter_flatMap, ← flatMap_ite hks]
  exact congrArg (List.flatMap · ks) (funext hpart)

/-- **Listing the parts in the order of their keys is sorting.** -/
theorem mergeSort_eq_flatMap (h : Order le) {ks : List κ} (hks : ks.Pairwise fun a b => le a b ∧ a ≠ b)
    {l : List α} (hl : ∀ a ∈ l, key a ∈ ks) :
    l.mergeSort (byKey le key) = ks.flatMap fun k => l.filter (fun a => key a = k) := by
  have hnodup : ks.Nodup := hks.imp And.right
  refine ext_of_parts h (List.pairwise_mergeSort h.byKey_trans h.byKey_total l) ?_ fun k => ?_
  · refine List.pairwise_flatMap.2 ⟨fun k _ => ?_, hks.imp fun {k k'} hkk' a ha b hb => ?_⟩
    · refine List.pairwise_of_forall_mem_list fun a ha b hb => ?_
      rw [byKey, of_decide_eq_true (List.mem_filter.1 ha).2, of_decide_eq_true (List.mem_filter.1 hb).2]
      exact h.refl k
    · rw [byKey, of_decide_eq_true (List.mem_filter.1 ha).2, of_decide_eq_true (List.mem_filter.1 hb).2]
      exact hkk'.1
  · have hown : ∀ k, ∀ a ∈ l.filter (fun a => key a = k), key a = k := fun k a ha =>
      of_decide_eq_true (List.mem_filter.1 ha).2
    rw [filter_mergeSort h, filter_flatMap hnodup hown]
    split
    · rfl
    · next hk =>
      rw [List.filter_eq_nil_iff]
      intro a ha hak
      exact hk (of_decide_eq_true hak ▸ hl a ha)

end CartLedger.StableSort
