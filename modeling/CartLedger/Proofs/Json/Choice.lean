import CartLedger.Proofs.Json.Shape
import Mathlib.Data.List.Permutation

/-! Tagged choices, whichever comes first.

A choice is told from the tag and the data of an object, and with one of each it is the same
for either order (`tagged_object`): data that come first are read in full, and for data that
stand for a value that succeeds. So a choice reads what its variants read (`reads_tagged`). -/
namespace CartLedger.Json.Decoder
open Draft (Stands Member Named MembersStand)

/-! ### Names -/

theorem tagName?_object {ms : List Member} {name : String} :
    tagName? (.object ms) = some name ↔ ms = [(some name, .null)] := by
  constructor
  · intro h
    unfold tagName? at h
    split at h
    · next heq => cases heq
    · next heq =>
      obtain rfl := Draft.object.inj heq
      rw [h]
    · cases h
  · rintro rfl
    rfl

theorem stands_null {room : Nat} {d : Draft} {v : Json} (h : Stands room d v) : d = .null ↔ v = .null := by
  cases h.view <;> simp

/-- A name with nothing for it is all that is in a draft just if it is all that is in the value. -/
theorem lone_name {room : Nat} {ms : List Member} {kept : List (String × Json)} (h : MembersStand room ms kept)
    (name : String) : ms = [(some name, .null)] ↔ kept = [(name, .null)] := by
  constructor
  · rintro rfl
    refine Entries.ext_find? h.ascending (List.pairwise_singleton ..) fun key => ?_
    obtain ⟨hnone, hnone'⟩ | ⟨d, v, hd, hv, hstands⟩ := h.found key
    · rw [hnone', Entries.find?_cons]
      rw [Entries.find?_cons] at hnone
      split at hnone
      · cases hnone
      · next hne => exact (if_neg fun he => hne (congrArg some he)).symm
    · rw [Entries.find?_cons] at hd
      split at hd
      · next he =>
        obtain rfl : name = key := Option.some.inj he
        rw [hv, (stands_null hstands).1 (Option.some.inj hd).symm, Entries.find?_cons, if_pos rfl]
      · cases hd
  · rintro rfl
    have hall : ∀ m ∈ ms, m = (some name, .null) := by
      intro m hm
      obtain ⟨key, hkey⟩ := h.named.legible m hm
      have hfind : Entries.find? (some key) ms = some m.2 :=
        (Entries.find?_eq_some_iff_mem h.named.distinct).2 (hkey ▸ hm)
      obtain ⟨hnone, -⟩ | ⟨d, v, hd, hv, hstands⟩ := h.found key
      · cases hnone.symm.trans hfind
      · obtain rfl := Option.some.inj (hd.symm.trans hfind)
        rw [Entries.find?_cons] at hv
        split at hv
        · next he => exact Prod.ext (hkey.trans (congrArg some he.symm)) ((stands_null hstands).2 (Option.some.inj hv).symm)
        · cases hv
    have hsome : ms ≠ [] := by
      rintro rfl
      obtain ⟨-, hnone⟩ | ⟨d, v, hd, -⟩ := h.found name
      · rw [Entries.find?_cons, if_pos rfl] at hnone
        cases hnone
      · cases hd
    cases ms with
    | nil => exact absurd rfl hsome
    | cons m rest =>
      have hm := hall m (List.mem_cons_self ..)
      cases rest with
      | nil => rw [hm]
      | cons m' rest =>
        have hm' := hall m' (List.mem_cons_of_mem _ (List.mem_cons_self ..))
        exact absurd (hm.trans hm'.symm ▸ List.mem_cons_self ..) (List.nodup_cons.1 h.named.distinct).1

theorem tagName?_stands {room : Nat} {t : Draft} {v : Json} (h : Stands room t v) :
    tagName? t = tagName? (Draft.ofJson v) := by
  have hsettled := h.settled.view
  cases h.view with
  | object hroom hmembers =>
    cases hsettled with
    | object hroom' hmembers' =>
      exact Option.ext fun name => by
        rw [tagName?_object, lone_name hmembers, Draft.ofJson, tagName?_object, lone_name hmembers']
  | _ => rfl

/-! ### Tag and data -/

/-- At most one tag and at most one data. -/
theorem roles_perm {ms : List Member} (hnamed : Named ms) :
    (roles ms).Perm (((find? "type" ms).map (Role.tag, ·)).toList ++ ((find? "data" ms).map (Role.data, ·)).toList) := by
  induction ms with
  | nil => exact .nil
  | cons m rest ih =>
    obtain ⟨key, d, rfl, hnone, hothers⟩ := hnamed.uncons
    have hrest := ih hothers
    have habsent : find? key rest = none := hnone
    rw [find?_cons, find?_cons]
    by_cases htype : key = "type"
    · subst htype
      rw [habsent] at hrest
      exact hrest.cons (Role.tag, d)
    · by_cases hdata : key = "data"
      · subst hdata
        rw [habsent] at hrest
        exact (hrest.cons (Role.data, d)).trans List.perm_middle.symm
      · have hrole : roleOf (some key) = none := by
          unfold roleOf
          split <;> simp_all
        have hskip : roles ((some key, d) :: rest) = roles rest := by simp [roles, hrole]
        rwa [hskip, if_neg htype, if_neg hdata]

/-- What a choice is, told from its tag and its data. -/
def chosen (variants : List (Variant α)) : Option Draft → Option Draft → Except Fault α
  | some t, none => do
    let w ← variant? variants (tagName? t)
    w.bare
  | some t, some d => do
    let w ← variant? variants (tagName? t)
    w.body d
  | none, _ => .error .malformed

theorem bind_closing (x : Except Fault α) : (x >>= fun a => closing ([] : List (Role × Draft)) a) = x := by
  cases x <;> rfl

/-- **The tag and the data of a choice may come in either order.** -/
theorem tagged_object {variants : List (Variant α)} {ms : List Member} (hnamed : Named ms)
    (hdata : ∀ d, find? "data" ms = some d → ∃ v, d.toJson? (Draft.depthLimit - 1) = some v) :
    tagged variants (.object ms) = chosen variants (find? "type" ms) (find? "data" ms) := by
  have hperm := roles_perm hnamed
  rw [tagged]
  cases htype : find? "type" ms with
  | none =>
    cases hfind : find? "data" ms with
    | none =>
      rw [htype, hfind] at hperm
      rw [hperm.eq_nil]
      rfl
    | some d =>
      rw [htype, hfind] at hperm
      rw [hperm.eq_singleton]
      rfl
  | some t =>
    cases hfind : find? "data" ms with
    | none =>
      rw [htype, hfind] at hperm
      rw [hperm.eq_singleton]
      rfl
    | some d =>
      obtain ⟨v, hv⟩ := hdata d hfind
      rw [htype, hfind] at hperm
      obtain hroles | hroles := List.perm_pair.1 hperm
      · rw [hroles]
        exact congrArg _ (funext fun (w : Variant α) => bind_closing (w.body d))
      · -- Data that come first are read in full.
        rw [hroles]
        simp only [value, hv, ok_bind]
        exact congrArg _ (funext fun (w : Variant α) => bind_closing (w.body d))

/-! ### Choices -/

theorem variant?_none (variants : List (Variant α)) : variant? variants none = .error .malformed := by
  have hfind : variants.find? (fun w => some w.name = none) = none := by simp
  rw [variant?, hfind]

theorem mem_of_variant? {variants : List (Variant α)} {name : Option String} {w : Variant α}
    (h : variant? variants name = .ok w) : w ∈ variants ∧ name = some w.name := by
  unfold variant? at h
  split at h
  · next w' hfind =>
    obtain rfl := Except.ok.inj h
    have hname := List.find?_some hfind
    exact ⟨List.mem_of_find?_eq_some hfind, (of_decide_eq_true hname).symm⟩
  · cases h

/-- Every variant reads the shape of its name. -/
def VariantsRead (room : Nat) (inside : String → Shape) : List (Variant α) → Prop
  | [] => True
  | w :: rest => Reads room (inside w.name) w.body ∧ VariantsRead room inside rest

theorem VariantsRead.mem {room : Nat} {inside : String → Shape} {variants : List (Variant α)}
    (h : VariantsRead room inside variants) {w : Variant α} (hw : w ∈ variants) : Reads room (inside w.name) w.body := by
  induction variants with
  | nil => cases hw
  | cons w' rest ih =>
    obtain rfl | hw := List.mem_cons.1 hw
    · exact h.1
    · exact ih h.2 hw

theorem reads_unit {room : Nat} (name : String) (a : α) : Reads room .whole (unit name a).body := by
  refine ⟨fun hstands => ?_⟩
  cases hstands.view <;> rfl

theorem variant_body {room : Nat} {inside : String → Shape} {variants : List (Variant α)}
    (h : VariantsRead room inside variants) {name : String} {d : Draft} {v : Json} (hstands : Stands room d v) :
    (variant? variants (some name) >>= fun w => w.body d).toOption =
      (variant? variants (some name) >>= fun w => w.body (Draft.ofJson ((inside name).known v))).toOption := by
  cases hvariant : variant? variants (some name) with
  | error e => rfl
  | ok w =>
    obtain ⟨hw, hname⟩ := mem_of_variant? hvariant
    obtain rfl := Option.some.inj hname
    exact (h.mem hw).same hstands

theorem tagged_typeFirst (variants : List (Variant α)) (t d : Draft) :
    tagged variants (.object [(some "type", t), (some "data", d)]) =
      (variant? variants (tagName? t) >>= fun w => w.body d) :=
  congrArg _ (funext fun (w : Variant α) => bind_closing (w.body d))

theorem tagged_list (variants : List (Variant α)) (name : String) (d : Draft) (rest : List Draft) :
    tagged variants (.list (.text (some name) :: d :: rest)) =
      (variant? variants (some name) >>= fun w => w.body d) >>= closing rest :=
  (bind_assoc (variant? variants (some name)) (fun w => w.body d) (closing rest)).symm

theorem closing_stands {room : Nat} {ds : List Draft} {vs : List Json} (h : List.Forall₂ (Stands room) ds vs) (a : α) :
    closing ds a = closing (Draft.ofItems vs) a := by
  cases h <;> rfl

section
variable {inside : String → Shape} {variants : List (Variant α)}

/-- What is known of tag and data is all that the choice depends on. -/
theorem chosen_known (h : VariantsRead (Draft.depthLimit - 1) inside variants) {ms : List Member}
    {kept : List (String × Json)} (hmembers : MembersStand (Draft.depthLimit - 1) ms kept) :
    (chosen variants (find? "type" ms) (find? "data" ms)).toOption =
      (tagged variants (Draft.ofJson ((Shape.choice inside).known (.object kept)))).toOption := by
  rw [Shape.known, Shape.nameOf?]
  obtain ⟨ht, ht'⟩ | ⟨t, tv, ht, ht', htype⟩ := hmembers.found "type"
  · obtain ⟨hd, hd'⟩ | ⟨d, dv, hd, hd', -⟩ := hmembers.found "data"
    all_goals
      rw [show find? "type" ms = none from ht, ht', hd']
      rfl
  · have hname := tagName?_stands htype
    obtain ⟨hd, hd'⟩ | ⟨d, dv, hd, hd', hdata⟩ := hmembers.found "data"
    · rw [show find? "type" ms = some t from ht, show find? "data" ms = none from hd, ht', hd', chosen, hname]
      rfl
    · rw [show find? "type" ms = some t from ht, show find? "data" ms = some d from hd, ht', hd', chosen, hname]
      refine Eq.trans ?_ (congrArg Except.toOption (tagged_typeFirst variants (Draft.ofJson tv) _).symm)
      cases hknown : tagName? (Draft.ofJson tv) with
      | none =>
        rw [variant?_none]
        rfl
      | some name =>
        simp only [Option.bind_some, hknown]
        exact variant_body h hdata

theorem reads_tagged (h : VariantsRead (Draft.depthLimit - 1) inside variants) :
    Reads Draft.depthLimit (.choice inside) (tagged variants) := by
  refine ⟨fun hstands => ?_⟩
  cases hstands.view with
  | @object _ ms kept hroom hmembers =>
    obtain rfl := Nat.succ.inj hroom
    have hreadable : ∀ d, find? "data" ms = some d → ∃ v, d.toJson? (Draft.depthLimit - 1) = some v := by
      intro d hd
      obtain ⟨hnone, -⟩ | ⟨d', v, hd', -, hdata⟩ := hmembers.found "data"
      · cases hnone.symm.trans hd
      · obtain rfl := Option.some.inj (hd'.symm.trans hd)
        exact ⟨v, hdata.value⟩
    rw [tagged_object hmembers.named hreadable]
    exact chosen_known h hmembers
  | @list _ ds vs hroom hitems =>
    obtain rfl := Nat.succ.inj hroom
    cases hitems with
    | nil => rfl
    | cons hname hrest =>
      cases hname.view with
      | text name =>
        cases hrest with
        | nil => rfl
        | cons hdata hrest =>
          rw [Shape.known, Draft.ofJson, Draft.ofItems, Draft.ofItems, Draft.ofJson, tagged_list, tagged_list,
            toOption_bind _ (closing _), toOption_bind _ (closing _), variant_body h hdata]
          exact congrArg _ (funext fun a => congrArg _ (closing_stands hrest a))
      | _ => rfl
  | _ => rfl

end

end CartLedger.Json.Decoder
