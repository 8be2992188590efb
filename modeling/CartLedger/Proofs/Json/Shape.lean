import CartLedger.Proofs.Json.Standing

/-! What decoders see of a value.

A decoder passes over the members that it does not know. A `Shape` says which it knows,
where and how deep, and `Shape.known` is what is left of a value without the others, in an
order of its own. A decoder `Reads` a shape if of any draft that stands for a value it makes
just what it makes of what is known of the value: then neither the layout of the draft nor the
order of its members nor anything unknown in it matters. A record reads the shape of its
members if each field reads that of its own (`reads_recordWith`, `reads_objectOnly`). -/
namespace CartLedger.Json

/-- What is known of a value, and where the rest is passed over. -/
inductive Shape where
  /-- Everything matters. -/
  | whole
  /-- A record with members of these names, or a list of their values. -/
  | record (names : List String) (inside : String → Shape)
  /-- A tagged choice, whose name tells the shape of its data. -/
  | choice (inside : String → Shape)

namespace Shape

/-- A record in whose members everything matters. -/
def flat (names : List String) : Shape := .record names fun _ => .whole

/-- The name that a choice has in a value. -/
def nameOf? (members : List (String × Json)) : Option String :=
  (Entries.find? "type" members).bind fun t => Decoder.tagName? (Draft.ofJson t)

/-- A value without the members that are not known. -/
def known : Shape → Json → Json
  | .record names inside, .object members =>
    .object ((members.filter fun m => m.1 ∈ names).map fun m => (m.1, (inside m.1).known m.2))
  | .record names inside, .list items =>
    .list (List.zipWith (fun name v => (inside name).known v) names items ++ items.drop names.length)
  | .choice inside, .object members =>
    .object (((Entries.find? "type" members).map fun t => ("type", t)).toList ++
      ((Entries.find? "data" members).map fun d => ("data",
        match nameOf? members with
        | some name => (inside name).known d
        | none => d)).toList)
  | .choice inside, .list (.text name :: data :: rest) => .list (.text name :: (inside name).known data :: rest)
  | _, v => v

end Shape

namespace Decoder
open Draft (Stands Member Named)

/-- What the decoder makes of a draft that stands for a value is what it makes of what the shape
keeps of the value. -/
structure Reads (room : Nat) (shape : Shape) (D : Decoder α) : Prop where
  same : ∀ {d : Draft} {v : Json}, Stands room d v →
    (D d).toOption = (D (Draft.ofJson (shape.known v))).toOption

/-! ### Results -/

theorem toOption_eq_some {x : Except ε α} {a : α} : x.toOption = some a ↔ x = .ok a := by
  cases x <;> simp [Except.toOption]

theorem toOption_bind (x : Except ε α) (f : α → Except ε β) :
    (x >>= f).toOption = x.toOption.bind fun a => (f a).toOption := by
  cases x <;> rfl

theorem toOption_map (x : Except ε α) (f : α → β) : (x.map f).toOption = x.toOption.map f := by
  cases x <;> rfl

theorem toOption_congr {x y : Except ε α} (h : ∀ a, x = .ok a ↔ y = .ok a) : x.toOption = y.toOption :=
  Option.ext fun a => by rw [toOption_eq_some, toOption_eq_some, h]

/-! ### Simple values -/

section
variable {room : Nat} {shape : Shape} {D : Decoder α}

theorem Reads.ok_iff (h : Reads room shape D) {d : Draft} {v : Json} (hstands : Stands room d v) {a : α} :
    D d = .ok a ↔ D (Draft.ofJson (shape.known v)) = .ok a := by
  rw [← toOption_eq_some, ← toOption_eq_some, h.same hstands]

theorem Reads.map (h : Reads room shape D) (f : α → β) : Reads room shape fun d => (D d).map f := by
  refine ⟨fun hstands => ?_⟩
  rw [toOption_map, toOption_map, h.same hstands]

theorem Reads.bind (h : Reads room shape D) (f : α → Except Fault β) : Reads room shape fun d => D d >>= f := by
  refine ⟨fun hstands => ?_⟩
  rw [toOption_bind, toOption_bind, h.same hstands]

theorem reads_text : Reads room .whole text := by
  refine ⟨fun hstands => ?_⟩
  cases hstands.view <;> rfl

theorem reads_flag : Reads room .whole flag := by
  refine ⟨fun hstands => ?_⟩
  cases hstands.view <;> rfl

theorem reads_integer (low high : Int) : Reads room .whole (integer low high) := by
  refine ⟨fun hstands => ?_⟩
  cases hstands.view <;> rfl

theorem reads_natural : Reads room .whole natural := (reads_integer ..).map _

theorem reads_word32 : Reads room .whole word32 := (reads_integer ..).map _

theorem reads_signed32 : Reads room .whole signed32 := (reads_integer ..).map _

theorem reads_value : Reads room .whole (value room) := by
  refine ⟨fun {d v} hstands => ?_⟩
  show (value room d).toOption = (value room (Draft.ofJson v)).toOption
  rw [value, value, hstands.value, hstands.settled.value]

theorem reads_option (h : Reads room .whole D) : Reads room .whole (option D) := by
  refine ⟨fun hstands => ?_⟩
  have hsome := (h.map some).same hstands
  cases hstands.view with
  | null => rfl
  | _ => exact hsome

theorem reads_items (h : Reads room .whole D) {ds : List Draft} {vs : List Json}
    (hstand : List.Forall₂ (Stands room) ds vs) :
    (items D ds).toOption = (items D (Draft.ofItems vs)).toOption := by
  induction hstand with
  | nil => rfl
  | cons hfirst _ ih =>
    rw [Draft.ofItems, items, items, toOption_bind, toOption_bind, h.same hfirst]
    refine congrArg _ (funext fun a => ?_)
    rw [toOption_bind, toOption_bind, ih]

theorem reads_list (h : Reads room .whole D) : Reads (room + 1) .whole (list D) := by
  refine ⟨fun hstands => ?_⟩
  cases hstands.view with
  | list hroom hitems =>
    obtain rfl := Nat.succ.inj hroom
    exact reads_items h hitems
  | _ => rfl

end

/-! ### Members -/

/-- Neither is there, or both are, and the one stands for a value of which the other is what is known. -/
def Corresponds (room : Nat) (shape : Shape) (a a' : Option Draft) : Prop :=
  a = none ∧ a' = none ∨ ∃ d v, a = some d ∧ a' = some (Draft.ofJson (shape.known v)) ∧ Stands room d v

/-- Members that are read as others are: by their names they hold what is known of the values. -/
structure MembersRead (room : Nat) (names : List String) (inside : String → Shape) (ms ms' : List Member) : Prop where
  named : Named ms
  named' : Named ms'
  found : ∀ name ∈ names, Corresponds room (inside name) (find? name ms) (find? name ms')

theorem find?_cons (name key : String) (d : Draft) (rest : List Member) :
    find? name ((some key, d) :: rest) = if key = name then some d else find? name rest := by
  have hcons : find? name ((some key, d) :: rest) = if some key = some name then some d else find? name rest :=
    Entries.find?_cons ..
  rw [hcons]
  exact if_congr Option.some_inj rfl rfl

theorem find?_ofMembers (name : String) (members : List (String × Json)) :
    find? name (Draft.ofMembers members) = (Entries.find? name members).map Draft.ofJson := by
  induction members with
  | nil => rfl
  | cons m rest ih =>
    rw [Draft.ofMembers, find?_cons, Entries.find?_cons, ih, apply_ite (Option.map Draft.ofJson)]
    rfl

namespace MembersRead
variable {room : Nat} {names : List String} {inside : String → Shape}

theorem of_object {ms : List Member} {kept : List (String × Json)} (h : Draft.MembersStand room ms kept) :
    MembersRead room names inside ms (Draft.ofMembers
      ((kept.filter fun m => m.1 ∈ names).map fun m => (m.1, (inside m.1).known m.2))) where
  named := h.named
  named' := Draft.named_ofMembers ((h.ascending.filter _).map _ fun _ _ hlt => hlt)
  found name hname := by
    have hkept : Entries.find? name (kept.filter fun m => m.1 ∈ names) = Entries.find? name kept := by
      have := Entries.find?_filter (fun k => decide (k ∈ names)) name kept
      rwa [if_pos (decide_eq_true hname)] at this
    rw [find?_ofMembers, Entries.find?_map (fun n => (inside n).known), hkept]
    obtain ⟨hnone, hnone'⟩ | ⟨d, v, hfind, hfind', hstands⟩ := h.found name
    · exact .inl ⟨hnone, by rw [hnone']; rfl⟩
    · exact .inr ⟨d, v, hfind, by rw [hfind']; rfl, hstands⟩

theorem found_zip {ds : List Draft} {vs : List Json} (h : List.Forall₂ (Stands room) ds vs)
    (hlength : ds.length ≤ names.length) (name : String) :
    Corresponds room (inside name) (find? name ((names.map some).zip ds))
      (find? name ((names.map some).zip (Draft.ofItems (List.zipWith (fun n => (inside n).known) names vs)))) := by
  induction h generalizing names with
  | nil =>
    rw [List.zipWith_nil_right, Draft.ofItems, List.zip_nil_right]
    exact .inl ⟨rfl, rfl⟩
  | @cons d v ds vs hfirst _ ih =>
    cases names with
    | nil => exact absurd hlength (Nat.not_succ_le_zero _)
    | cons n names =>
      rw [List.zipWith_cons_cons, Draft.ofItems, List.map_cons, List.zip_cons_cons, List.zip_cons_cons,
        find?_cons, find?_cons]
      by_cases hname : n = name
      · subst hname
        rw [if_pos rfl, if_pos rfl]
        exact .inr ⟨d, v, rfl, rfl, hfirst⟩
      · rw [if_neg hname, if_neg hname]
        exact ih (Nat.le_of_succ_le_succ hlength)

theorem named_zip (hnames : names.Nodup) (ds : List Draft) : Named ((names.map some).zip ds) := by
  constructor
  · intro m hm
    obtain ⟨name, -, hname⟩ := List.mem_map.1 (List.of_mem_zip hm).1
    exact ⟨name, hname.symm⟩
  · have hdistinct : (names.map some).Nodup :=
      List.Pairwise.map some (fun _ _ hne he => hne (Option.some.inj he)) hnames
    rw [List.zip_eq_zip_take_min, List.map_fst_zip (by simp)]
    exact hdistinct.sublist (List.take_sublist ..)

theorem of_list {ds : List Draft} {vs : List Json} (h : List.Forall₂ (Stands room) ds vs)
    (hnames : names.Nodup) (hlength : ds.length ≤ names.length) :
    MembersRead room names inside ((names.map some).zip ds)
      ((names.map some).zip (Draft.ofItems (List.zipWith (fun n => (inside n).known) names vs))) where
  named := named_zip hnames _
  named' := named_zip hnames _
  found name _ := found_zip h hlength name

end MembersRead

/-- Every field reads the shape of its member. -/
def FieldsRead (room : Nat) (inside : String → Shape) : List Field → Prop
  | [] => True
  | f :: rest => Reads room (inside f.name) f.check ∧ FieldsRead room inside rest

theorem reads_field {room : Nat} {shape : Shape} {name : String} {D : Decoder α} (h : Reads room shape D) :
    Reads room shape (field name D).check := h.map _

theorem FieldsRead.find? {room : Nat} {inside : String → Shape} {fields : List Field}
    (h : FieldsRead room inside fields) {name : String} {f : Field}
    (hfind : fields.find? (fun f => f.name = name) = some f) : Reads room (inside name) f.check := by
  induction fields with
  | nil => cases hfind
  | cons g rest ih =>
    rw [List.find?_cons] at hfind
    split at hfind
    · next hname =>
      obtain rfl := Option.some.inj hfind
      exact of_decide_eq_true hname ▸ h.1
    · exact ih h.2 hfind

/-- Something that is built alike of members that are read alike. -/
def Builds (room : Nat) (names : List String) (inside : String → Shape)
    (build : List Member → Except Fault α) : Prop :=
  ∀ ms ms' : List Member, MembersRead room names inside ms ms' → (build ms).toOption = (build ms').toOption

section
variable {room : Nat} {names : List String} {inside : String → Shape}

theorem builds_pure (a : α) : Builds room names inside fun _ => pure a := fun _ _ _ => rfl

theorem builds_required {name : String} {D : Decoder α} {k : α → List Member → Except Fault β}
    (hname : name ∈ names) (h : Reads room (inside name) D) (hk : ∀ a, Builds room names inside (k a)) :
    Builds room names inside fun ms => required name D ms >>= fun a => k a ms := by
  intro ms ms' hms
  have hrequired : (required name D ms).toOption = (required name D ms').toOption := by
    rw [required, required]
    obtain ⟨hnone, hnone'⟩ | ⟨d, v, hfind, hfind', hstands⟩ := hms.found name hname
    · rw [hnone, hnone']
    · rw [hfind, hfind']
      exact h.same hstands
  rw [toOption_bind, toOption_bind, hrequired]
  exact congrArg _ (funext fun a => hk a ms ms' hms)

theorem builds_optional {name : String} {D : Decoder α} {k : Option α → List Member → Except Fault β}
    (hname : name ∈ names) (h : Reads room (inside name) (option D)) (hk : ∀ a, Builds room names inside (k a)) :
    Builds room names inside fun ms => optional name D ms >>= fun a => k a ms := by
  intro ms ms' hms
  have hoptional : (optional name D ms).toOption = (optional name D ms').toOption := by
    rw [optional, optional]
    obtain ⟨hnone, hnone'⟩ | ⟨d, v, hfind, hfind', hstands⟩ := hms.found name hname
    · rw [hnone, hnone']
    · rw [hfind, hfind']
      exact h.same hstands
  rw [toOption_bind, toOption_bind, hoptional]
  exact congrArg _ (funext fun a => hk a ms ms' hms)

end

/-! ### Records -/

/-- Members of different names pass just if each field is content with its own. -/
theorem checkMembers_iff {fields : List Field} {ms : List Member} (hnamed : Named ms) :
    checkMembers fields [] ms = .ok () ↔ ∀ name f, fields.find? (fun f => f.name = name) = some f →
      ∀ d, find? name ms = some d → f.check d = .ok () := by
  constructor
  · intro hcheck name f hfield d hfind
    have hmem : (some name, d) ∈ ms := (Entries.find?_eq_some_iff_mem hnamed.distinct).1 hfind
    obtain ⟨key, hkey, hfit⟩ := allFit_iff.1 (allFit_of_checkMembers hcheck) _ hmem
    obtain rfl : name = key := Option.some.inj hkey
    exact hfit f hfield
  · intro hfound
    refine checkMembers_ok hnamed.distinct (allFit_iff.2 fun m hm => ?_)
    obtain ⟨name, d⟩ := m
    obtain ⟨key, rfl⟩ : ∃ key, name = some key := hnamed.legible _ hm
    exact ⟨key, rfl, fun f hf => hfound key f hf d ((Entries.find?_eq_some_iff_mem hnamed.distinct).2 hm)⟩

theorem mem_names {fields : List Field} {name : String} {f : Field}
    (h : fields.find? (fun f => f.name = name) = some f) : name ∈ fields.map (·.name) := by
  have hname := List.find?_some h
  exact List.mem_map.2 ⟨f, List.mem_of_find?_eq_some h, of_decide_eq_true hname⟩

section
variable {room spare : Nat} {names : List String} {inside : String → Shape} {fields : List Field}
  {build : List Member → Except Fault α} {ms ms' : List Member} {ds : List Draft}

theorem MembersRead.checked (h : MembersRead room names inside ms ms') (hnames : fields.map (·.name) = names)
    (hfields : FieldsRead room inside fields) :
    (checkMembers fields [] ms).toOption = (checkMembers fields [] ms').toOption := by
  subst hnames
  refine toOption_congr fun _ => ?_
  rw [checkMembers_iff h.named, checkMembers_iff h.named']
  refine forall_congr' fun name => forall_congr' fun f => forall_congr' fun hfield => ?_
  obtain ⟨hnone, hnone'⟩ | ⟨d, v, hd, hd', hstands⟩ := h.found name (mem_names hfield)
  · rw [hnone, hnone']
  · rw [hd, hd']
    simp only [Option.some.injEq, forall_eq']
    exact (hfields.find? hfield).ok_iff hstands

/-- Checked and built, the members come to the same. -/
theorem MembersRead.built (h : MembersRead room names inside ms ms') (hnames : fields.map (·.name) = names)
    (hfields : FieldsRead room inside fields) (hbuild : Builds room names inside build) :
    (checkMembers fields [] ms >>= fun _ => build ms).toOption =
      (checkMembers fields [] ms' >>= fun _ => build ms').toOption := by
  rw [toOption_bind, toOption_bind, h.checked hnames hfields]
  exact congrArg _ (funext fun _ => hbuild ms ms' h)

theorem reads_objectOnly (hnames : fields.map (·.name) = names) (hfields : FieldsRead room inside fields)
    (hbuild : Builds room names inside build) :
    Reads (room + 1) (.record names inside) (objectOnly fields build) := by
  refine ⟨fun hstands => ?_⟩
  cases hstands.view with
  | object hroom hmembers =>
    obtain rfl := Nat.succ.inj hroom
    exact (MembersRead.of_object hmembers).built hnames hfields hbuild
  | _ => rfl

/-- A list of as many values as a record may have. -/
abbrev FitsIn (spare : Nat) (names : List String) (ds : List Draft) : Prop :=
  names.length ≤ ds.length + spare ∧ ds.length ≤ names.length

theorem recordWith_list (hnames : fields.map (·.name) = names) (h : FitsIn spare names ds) :
    recordWith spare fields build (.list ds) =
      (checkMembers fields [] ((names.map some).zip ds) >>= fun _ => build ((names.map some).zip ds)) := by
  subst hnames
  rw [recordWith, members, ok_bind, if_pos h, List.append_nil]

theorem recordWith_list_none (hnames : fields.map (·.name) = names) (h : ¬ FitsIn spare names ds) :
    (recordWith spare fields build (.list ds)).toOption = none := by
  subst hnames
  cases hrecord : recordWith spare fields build (.list ds) with
  | error e => rfl
  | ok a =>
    obtain ⟨ms, hms, hcheck, -⟩ := recordWith_inv hrecord
    obtain rfl := Except.ok.inj hms
    rw [if_neg h] at hcheck
    obtain ⟨key, hkey, -⟩ := allFit_iff.1 (allFit_of_checkMembers hcheck) Draft.lost (by simp)
    cases hkey

theorem length_ofItems (vs : List Json) : (Draft.ofItems vs).length = vs.length := by
  induction vs with
  | nil => rfl
  | cons v vs ih => rw [Draft.ofItems, List.length_cons, List.length_cons, ih]

theorem reads_recordWith (hnames : fields.map (·.name) = names) (hdistinct : names.Nodup)
    (hfields : FieldsRead room inside fields) (hbuild : Builds room names inside build) :
    Reads (room + 1) (.record names inside) (recordWith spare fields build) := by
  refine ⟨fun hstands => ?_⟩
  cases hstands.view with
  | object hroom hmembers =>
    obtain rfl := Nat.succ.inj hroom
    exact (MembersRead.of_object hmembers).built hnames hfields hbuild
  | @list _ ds vs hroom hitems =>
    obtain rfl := Nat.succ.inj hroom
    rw [Shape.known, Draft.ofJson]
    -- Values past the last member are kept, so that there are still too many.
    have hlength : (Draft.ofItems (List.zipWith (fun n => (inside n).known) names vs ++
        vs.drop names.length)).length = ds.length := by
      rw [length_ofItems, List.length_append, List.length_zipWith, List.length_drop, hitems.length_eq]
      omega
    by_cases hfits : FitsIn spare names ds
    · have hdrop : vs.drop names.length = [] := List.drop_eq_nil_of_le (hitems.length_eq ▸ hfits.2)
      rw [recordWith_list hnames hfits, recordWith_list hnames (by rwa [FitsIn, hlength]), hdrop, List.append_nil]
      exact (MembersRead.of_list hitems hdistinct hfits.2).built hnames hfields hbuild
    · rw [recordWith_list_none hnames hfits, recordWith_list_none hnames (by rwa [FitsIn, hlength])]
  | _ => rfl

end

end Decoder

end CartLedger.Json
