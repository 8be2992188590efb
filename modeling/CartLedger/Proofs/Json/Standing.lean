import CartLedger.OrderedMap.Lemmas
import CartLedger.Proofs.Json.Canonical
import Mathlib.Data.List.Forall2

/-! Drafts that stand for a value.

A draft `Stands` for a value if it is read as that value and no object in it has two members of
one name. Level by level the two have the same shape then (`Stands.view`): items correspond
one by one, members by their names. The value itself is such a draft (`Stands.settled`), and
so is any other that is only `Reordered`, whatever the order of the members in each object. -/
namespace CartLedger.Json

namespace Draft

mutual

/-- No object in the draft has two members of one name. -/
def Distinct : Draft → Prop
  | .null => True
  | .bool _ => True
  | .number _ => True
  | .text _ => True
  | .list items => DistinctItems items
  | .object members => (members.map (·.1)).Nodup ∧ DistinctMembers members
  | .cut => True

def DistinctItems : List Draft → Prop
  | [] => True
  | item :: rest => Distinct item ∧ DistinctItems rest

def DistinctMembers : List Member → Prop
  | [] => True
  | (_, value) :: rest => Distinct value ∧ DistinctMembers rest

end

/-- The draft is read as the value, and says nothing twice. -/
structure Stands (room : Nat) (d : Draft) (v : Json) : Prop where
  value : d.toJson? room = some v
  distinct : d.Distinct

/-! ### Values as drafts -/

theorem toMembers?_cons {room : Nat} {kept out : List (String × Json)} {m : Member} {rest : List Member}
    (h : toMembers? room kept (m :: rest) = some out) :
    ∃ key v, m.1 = some key ∧ toJson? room m.2 = some v ∧ toMembers? room (Entries.put key v kept) rest = some out := by
  obtain ⟨_ | key, d⟩ := m
  · cases h
  · rw [toMembers?] at h
    split at h
    · cases h
    · next v hv => exact ⟨key, v, rfl, hv, h⟩

theorem toItems?_cons {room : Nat} {vs : List Json} {d : Draft} {rest : List Draft}
    (h : toItems? room (d :: rest) = some vs) :
    ∃ v vs', vs = v :: vs' ∧ toJson? room d = some v ∧ toItems? room rest = some vs' := by
  rw [toItems?] at h
  split at h
  · cases h
  · next v hv =>
    obtain ⟨vs', hvs', rfl⟩ := Option.map_eq_some_iff.1 h
    exact ⟨v, vs', rfl, hv, hvs'⟩

theorem ascending_toMembers? {room : Nat} {ms : List Member} {kept out : List (String × Json)}
    (h : toMembers? room kept ms = some out) (hkept : Entries.Ascending kept) : Entries.Ascending out := by
  induction ms generalizing kept with
  | nil => exact Option.some.inj h ▸ hkept
  | cons m rest ih =>
    obtain ⟨key, v, -, -, hrest⟩ := toMembers?_cons h
    exact ih hrest (Entries.ascending_put _ _ hkept)

/-- Members in the order of their names, each of which is read as it is. -/
theorem toMembers?_settled {room : Nat} {kept rest : List (String × Json)}
    (hascending : Entries.Ascending (kept ++ rest))
    (h : ∀ m ∈ rest, (ofJson m.2).toJson? room = some m.2) :
    toMembers? room kept (ofMembers rest) = some (kept ++ rest) := by
  induction rest generalizing kept with
  | nil => rw [List.append_nil]; rfl
  | cons m rest ih =>
    obtain ⟨key, v⟩ := m
    have hput : Entries.put key v kept = kept ++ [(key, v)] :=
      Entries.put_last fun e he => (List.pairwise_append.1 hascending).2.2 e he _ (List.mem_cons_self ..)
    have hassoc : kept ++ (key, v) :: rest = kept ++ [(key, v)] ++ rest := by rw [List.append_assoc]; rfl
    rw [ofMembers, toMembers?, h _ (List.mem_cons_self ..), hassoc]
    simp only [hput]
    exact ih (hassoc ▸ hascending) fun m hm => h m (List.mem_cons_of_mem _ hm)

theorem distinctMembers_iff {ms : List Member} : DistinctMembers ms ↔ ∀ m ∈ ms, Distinct m.2 := by
  induction ms with
  | nil => simp [DistinctMembers]
  | cons m rest ih => simp [DistinctMembers, ih]

theorem nodup_ofMembers {members : List (String × Json)} (h : Entries.Ascending members) :
    ((ofMembers members).map (·.1)).Nodup := by
  rw [ofMembers_eq_map, List.map_map]
  refine List.Pairwise.map _ (fun a b hlt he => ?_) h
  exact OrderedKey.irrefl a.1 (Option.some.inj he ▸ hlt : a.1 < a.1)

theorem stands_object {room : Nat} {members : List (String × Json)} (hascending : Entries.Ascending members)
    (h : ∀ m ∈ members, Stands room (ofJson m.2) m.2) :
    Stands (room + 1) (ofJson (.object members)) (.object members) where
  value := by
    have hsettled : toMembers? room [] (ofMembers members) = some members :=
      toMembers?_settled hascending fun m hm => (h m hm).value
    rw [ofJson, toJson?, hsettled]
    rfl
  distinct := by
    refine ⟨nodup_ofMembers hascending, distinctMembers_iff.2 fun m hm => ?_⟩
    rw [ofMembers_eq_map] at hm
    obtain ⟨m', hm', rfl⟩ := List.mem_map.1 hm
    exact (h m' hm').distinct

mutual

/-- What is read stands for itself. -/
theorem stands_of_toJson? : (d : Draft) → {room : Nat} → {v : Json} → d.toJson? room = some v →
    Stands room (ofJson v) v
  | .null, _, _, h => Option.some.inj h ▸ ⟨rfl, trivial⟩
  | .bool _, _, _, h => Option.some.inj h ▸ ⟨rfl, trivial⟩
  | .number (some _), _, _, h => Option.some.inj h ▸ ⟨rfl, trivial⟩
  | .text (some _), _, _, h => Option.some.inj h ▸ ⟨rfl, trivial⟩
  | .list items, room + 1, _, h => by
    obtain ⟨vs, hvs, rfl⟩ := Option.map_eq_some_iff.1 h
    obtain ⟨hvalues, hdistinct⟩ := stands_of_toItems? items hvs
    refine ⟨?_, hdistinct⟩
    rw [ofJson, toJson?, hvalues]
    rfl
  | .object members, room + 1, _, h => by
    obtain ⟨kept, hkept, rfl⟩ := Option.map_eq_some_iff.1 h
    exact stands_object (ascending_toMembers? hkept Entries.ascending_nil)
      (stands_of_toMembers? members hkept fun _ hm => absurd hm List.not_mem_nil)

theorem stands_of_toItems? : (items : List Draft) → {room : Nat} → {vs : List Json} →
    toItems? room items = some vs → toItems? room (ofItems vs) = some vs ∧ DistinctItems (ofItems vs)
  | [], _, _, h => Option.some.inj h ▸ ⟨rfl, trivial⟩
  | item :: rest, room, _, h => by
    obtain ⟨v, vs, rfl, hv, hvs⟩ := toItems?_cons h
    have hitem := stands_of_toJson? item hv
    obtain ⟨hvalues, hdistinct⟩ := stands_of_toItems? rest hvs
    refine ⟨?_, hitem.distinct, hdistinct⟩
    rw [ofItems, toItems?, hitem.value, hvalues]
    rfl

theorem stands_of_toMembers? : (members : List Member) → {room : Nat} → {kept out : List (String × Json)} →
    toMembers? room kept members = some out → (∀ m ∈ kept, Stands room (ofJson m.2) m.2) →
    ∀ m ∈ out, Stands room (ofJson m.2) m.2
  | [], _, _, _, h, hkept => Option.some.inj h ▸ hkept
  | (name, value) :: rest, room, kept, _, h, hkept => by
    obtain ⟨key, v, -, hv, hrest⟩ := toMembers?_cons h
    have hvalue := stands_of_toJson? value hv
    refine stands_of_toMembers? rest hrest fun m hm => ?_
    obtain rfl | hold := Entries.mem_put hm
    · exact hvalue
    · exact hkept m hold

end

theorem Stands.settled {room : Nat} {d : Draft} {v : Json} (h : Stands room d v) : Stands room (ofJson v) v :=
  stands_of_toJson? d h.value

/-! ### Level by level -/

/-- Every member has a name, and no two have the same. -/
structure Named (ms : List Member) : Prop where
  legible : ∀ m ∈ ms, ∃ key, m.1 = some key
  distinct : (ms.map (·.1)).Nodup

theorem Named.uncons {m : Member} {rest : List Member} (h : Named (m :: rest)) :
    ∃ key d, m = (some key, d) ∧ Entries.find? (some key) rest = none ∧ Named rest := by
  obtain ⟨hlegible, hdistinct⟩ := h
  obtain ⟨name, d⟩ := m
  obtain ⟨key, rfl⟩ : ∃ key, name = some key := hlegible _ (List.mem_cons_self ..)
  obtain ⟨hnew, hrest⟩ := List.nodup_cons.1 hdistinct
  exact ⟨key, d, rfl, Entries.find?_absent hnew, fun m hm => hlegible m (List.mem_cons_of_mem _ hm), hrest⟩

theorem named_ofMembers {members : List (String × Json)} (h : Entries.Ascending members) :
    Named (ofMembers members) := by
  refine ⟨fun m hm => ?_, nodup_ofMembers h⟩
  rw [ofMembers_eq_map] at hm
  obtain ⟨m', -, rfl⟩ := List.mem_map.1 hm
  exact ⟨_, rfl⟩

/-- Members of an object, and those of its value. -/
structure MembersStand (room : Nat) (ms : List Member) (kept : List (String × Json)) : Prop where
  named : Named ms
  ascending : Entries.Ascending kept
  found : ∀ key, Entries.find? (some key) ms = none ∧ Entries.find? key kept = none ∨
    ∃ d v, Entries.find? (some key) ms = some d ∧ Entries.find? key kept = some v ∧ Stands room d v

/-- What a draft looks like that stands for a value. -/
inductive View (room : Nat) : Draft → Json → Prop
  | null : View room .null .null
  | bool (b : Bool) : View room (.bool b) (.bool b)
  | number (n : Number) : View room (.number (some n)) (.number n)
  | text (s : String) : View room (.text (some s)) (.text s)
  | list {below : Nat} {items : List Draft} {vs : List Json} : room = below + 1 →
    List.Forall₂ (Stands below) items vs → View room (.list items) (.list vs)
  | object {below : Nat} {ms : List Member} {kept : List (String × Json)} : room = below + 1 →
    MembersStand below ms kept → View room (.object ms) (.object kept)

theorem forall₂_of_toItems? {room : Nat} {items : List Draft} {vs : List Json}
    (h : toItems? room items = some vs) (hdistinct : DistinctItems items) :
    List.Forall₂ (Stands room) items vs := by
  induction items generalizing vs with
  | nil => exact Option.some.inj h ▸ .nil
  | cons d rest ih =>
    obtain ⟨v, vs', rfl, hv, hrest⟩ := toItems?_cons h
    exact .cons ⟨hv, hdistinct.1⟩ (ih hrest hdistinct.2)

theorem legible_of_toMembers? {room : Nat} {ms : List Member} {kept out : List (String × Json)}
    (h : toMembers? room kept ms = some out) :
    ∀ m ∈ ms, (∃ key, m.1 = some key) ∧ ∃ v, m.2.toJson? room = some v := by
  induction ms generalizing kept with
  | nil => exact fun _ hm => absurd hm List.not_mem_nil
  | cons m rest ih =>
    obtain ⟨key, v, hkey, hv, hrest⟩ := toMembers?_cons h
    intro m' hm'
    obtain rfl | hm' := List.mem_cons.1 hm'
    · exact ⟨⟨key, hkey⟩, v, hv⟩
    · exact ih hrest m' hm'

theorem find?_of_toMembers? {room : Nat} {ms : List Member} {kept out : List (String × Json)}
    (h : toMembers? room kept ms = some out) (hnodup : (ms.map (·.1)).Nodup) (key : String) :
    Entries.find? key out =
      match Entries.find? (some key) ms with
      | some d => d.toJson? room
      | none => Entries.find? key kept := by
  induction ms generalizing kept with
  | nil => rw [Option.some.inj h]; rfl
  | cons m rest ih =>
    obtain ⟨name, d⟩ := m
    obtain ⟨name, v, rfl, hv, hrest⟩ := toMembers?_cons h
    obtain ⟨hnew, hnodup⟩ := List.nodup_cons.1 hnodup
    rw [ih hrest hnodup, Entries.find?_put, Entries.find?_cons]
    by_cases hkey : name = key
    · -- The other members have other names.
      subst hkey
      simp only [Entries.find?_absent hnew, if_true, hv]
    · simp only [Option.some.injEq, hkey, if_false]

theorem membersStand {room : Nat} {ms : List Member} {kept : List (String × Json)}
    (h : toMembers? room [] ms = some kept) (hnodup : (ms.map (·.1)).Nodup) (hdistinct : DistinctMembers ms) :
    MembersStand room ms kept where
  named := ⟨fun m hm => (legible_of_toMembers? h m hm).1, hnodup⟩
  ascending := ascending_toMembers? h Entries.ascending_nil
  found key := by
    rw [find?_of_toMembers? h hnodup key]
    cases hfind : Entries.find? (some key) ms with
    | none => exact .inl ⟨rfl, rfl⟩
    | some d =>
      have hmem := (Entries.find?_eq_some_iff_mem hnodup).1 hfind
      obtain ⟨-, v, hv⟩ := legible_of_toMembers? h _ hmem
      exact .inr ⟨d, v, rfl, hv, hv, distinctMembers_iff.1 hdistinct _ hmem⟩

theorem Stands.view {room : Nat} {d : Draft} {v : Json} (h : Stands room d v) : View room d v := by
  obtain ⟨hvalue, hdistinct⟩ := h
  cases d with
  | null => exact Option.some.inj hvalue ▸ .null
  | bool b => exact Option.some.inj hvalue ▸ .bool b
  | number n =>
    obtain ⟨n, rfl, rfl⟩ := Option.map_eq_some_iff.1 hvalue
    exact .number n
  | text s =>
    obtain ⟨s, rfl, rfl⟩ := Option.map_eq_some_iff.1 hvalue
    exact .text s
  | list items =>
    cases room with
    | zero => cases hvalue
    | succ below =>
      obtain ⟨vs, hvs, rfl⟩ := Option.map_eq_some_iff.1 hvalue
      exact .list rfl (forall₂_of_toItems? hvs hdistinct)
  | object members =>
    cases room with
    | zero => cases hvalue
    | succ below =>
      obtain ⟨kept, hkept, rfl⟩ := Option.map_eq_some_iff.1 hvalue
      exact .object rfl (membersStand hkept hdistinct.1 hdistinct.2)
  | cut => cases hvalue

/-! ### The order of members -/

mutual

/-- The same draft, but for the order of the members in its objects. -/
inductive Reordered : Draft → Draft → Prop
  | refl (d : Draft) : Reordered d d
  | list {items items' : List Draft} : ReorderedItems items items' → Reordered (.list items) (.list items')
  | object {ms ms' : List Member} : ReorderedMembers ms ms' → Reordered (.object ms) (.object ms')

inductive ReorderedItems : List Draft → List Draft → Prop
  | nil : ReorderedItems [] []
  | cons {d d' : Draft} {rest rest' : List Draft} : Reordered d d' → ReorderedItems rest rest' →
    ReorderedItems (d :: rest) (d' :: rest')

inductive ReorderedMembers : List Member → List Member → Prop
  | nil : ReorderedMembers [] []
  | cons {name : Option String} {d d' : Draft} {rest rest' : List Member} : Reordered d d' →
    ReorderedMembers rest rest' → ReorderedMembers ((name, d) :: rest) ((name, d') :: rest')
  | swap {m m' : Member} {rest : List Member} : ReorderedMembers (m :: m' :: rest) (m' :: m :: rest)
  | trans {ms ms' ms'' : List Member} : ReorderedMembers ms ms' → ReorderedMembers ms' ms'' →
    ReorderedMembers ms ms''

end

theorem ReorderedMembers.perm : {ms ms' : List Member} → ReorderedMembers ms ms' →
    (ms.map (·.1)).Perm (ms'.map (·.1))
  | _, _, .nil => .nil
  | _, _, .cons _ hrest => hrest.perm.cons _
  | _, _, .swap => .swap ..
  | _, _, .trans h h' => h.perm.trans h'.perm

mutual

/-- However its members are ordered, a draft stands for the same value. -/
theorem Reordered.stands : {d d' : Draft} → Reordered d d' → {room : Nat} → {v : Json} → Stands room d v →
    Stands room d' v
  | _, _, .refl _, _, _, h => h
  | _, _, .list hitems, room, _, ⟨hvalue, hdistinct⟩ => by
    cases room with
    | zero => cases hvalue
    | succ room =>
      obtain ⟨vs, hvs, rfl⟩ := Option.map_eq_some_iff.1 hvalue
      obtain ⟨hvs', hdistinct'⟩ := hitems.stands hvs hdistinct
      exact ⟨congrArg (Option.map Json.list) hvs', hdistinct'⟩
  | _, _, .object hmembers, room, _, ⟨hvalue, hnodup, hdistinct⟩ => by
    cases room with
    | zero => cases hvalue
    | succ room =>
      obtain ⟨kept, hkept, rfl⟩ := Option.map_eq_some_iff.1 hvalue
      obtain ⟨hkept', hdistinct'⟩ := hmembers.stands hkept Entries.ascending_nil hnodup hdistinct
      exact ⟨congrArg (Option.map Json.object) hkept', hmembers.perm.nodup_iff.1 hnodup, hdistinct'⟩

theorem ReorderedItems.stands : {items items' : List Draft} → ReorderedItems items items' → {room : Nat} →
    {vs : List Json} → toItems? room items = some vs → DistinctItems items →
    toItems? room items' = some vs ∧ DistinctItems items'
  | _, _, .nil, _, _, h, hdistinct => ⟨h, hdistinct⟩
  | _, _, .cons hitem hrest, room, _, h, hdistinct => by
    obtain ⟨v, vs, rfl, hv, hvs⟩ := toItems?_cons h
    have hitem' := hitem.stands ⟨hv, hdistinct.1⟩
    obtain ⟨hvs', hdistinct'⟩ := hrest.stands hvs hdistinct.2
    refine ⟨?_, hitem'.distinct, hdistinct'⟩
    rw [toItems?, hitem'.value, hvs']
    rfl

theorem ReorderedMembers.stands : {ms ms' : List Member} → ReorderedMembers ms ms' → {room : Nat} →
    {kept out : List (String × Json)} → toMembers? room kept ms = some out → Entries.Ascending kept →
    (ms.map (·.1)).Nodup → DistinctMembers ms → toMembers? room kept ms' = some out ∧ DistinctMembers ms'
  | _, _, .nil, _, _, _, h, _, _, hdistinct => ⟨h, hdistinct⟩
  | _, _, .cons hvalue hrest, room, kept, _, h, hkept, hnodup, hdistinct => by
    obtain ⟨key, v, rfl, hv, h⟩ := toMembers?_cons h
    have hvalue' := hvalue.stands ⟨hv, hdistinct.1⟩
    obtain ⟨hrest', hdistinct'⟩ :=
      hrest.stands h (Entries.ascending_put _ _ hkept) (List.nodup_cons.1 hnodup).2 hdistinct.2
    refine ⟨?_, hvalue'.distinct, hdistinct'⟩
    rw [toMembers?, hvalue'.value]
    exact hrest'
  | _, _, @ReorderedMembers.swap m m' _, room, kept, _, h, hkept, hnodup, hdistinct => by
    obtain ⟨name, d⟩ := m
    obtain ⟨name', d'⟩ := m'
    obtain ⟨key, v, rfl, hv, h⟩ := toMembers?_cons h
    obtain ⟨key', v', rfl, hv', h⟩ := toMembers?_cons h
    have hne : key ≠ key' := fun he => (List.nodup_cons.1 hnodup).1 (he ▸ List.mem_cons_self ..)
    refine ⟨?_, hdistinct.2.1, hdistinct.1, hdistinct.2.2⟩
    rw [toMembers?, hv']
    simp only [toMembers?, hv]
    rw [Entries.put_comm hkept hne]
    exact h
  | _, _, .trans h h', _, _, _, hvalue, hkept, hnodup, hdistinct => by
    obtain ⟨hvalue', hdistinct'⟩ := h.stands hvalue hkept hnodup hdistinct
    exact h'.stands hvalue' hkept (h.perm.nodup_iff.1 hnodup) hdistinct'

end

end Draft

end CartLedger.Json
