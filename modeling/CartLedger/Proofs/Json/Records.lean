import CartLedger.Json.Decoder

/-! Decoding records and tagged choices member by member.

A record is decoded in two goes over its members: each known one is checked where it
stands, and then looked up by its name. `checkMembers_ok` and `required_eq` say what the
two need, one member at a time, so that a decoder is followed by naming what each member
decodes to. -/
namespace CartLedger.Json.Decoder

theorem ok_bind (a : α) (f : α → Except ε β) : (Except.ok a >>= f) = f a := rfl

theorem pure_ok (a : α) : (pure a : Except ε α) = .ok a := rfl

theorem bind_inv {x : Except ε α} {f : α → Except ε β} {b : β} (h : (x >>= f) = .ok b) :
    ∃ a, x = .ok a ∧ f a = .ok b := by
  cases x with
  | error e => cases h
  | ok a => exact ⟨a, rfl, h⟩

theorem bind_error_inv {x : Except ε α} {f : α → Except ε β} {e : ε} (h : (x >>= f) = .error e) :
    x = .error e ∨ ∃ a, x = .ok a ∧ f a = .error e := by
  cases x with
  | error e' => exact .inl (Except.error.inj h ▸ rfl)
  | ok a => exact .inr ⟨a, rfl, h⟩

/-! ### Records -/

/-- A member that is unknown, or that is what its field asks for. -/
def Fits (fields : List Field) (m : Draft.Member) : Prop :=
  ∃ key, m.1 = some key ∧
    ∀ f, fields.find? (fun f => f.name = key) = some f → f.check m.2 = .ok ()

theorem fits_field {fields : List Field} {key : String} {d : Decoder α} {v : Draft} {a : α}
    (hfind : fields.find? (fun f => f.name = key) = some (field key d)) (h : d v = .ok a) :
    Fits fields (some key, v) := by
  refine ⟨key, rfl, fun f hf => ?_⟩
  obtain rfl := Option.some.inj (hfind.symm.trans hf)
  show (d v).map (fun _ => ()) = .ok ()
  rw [h]
  rfl

theorem fits_unknown {fields : List Field} {key : String} {v : Draft}
    (hfind : fields.find? (fun f => f.name = key) = none) : Fits fields (some key, v) :=
  ⟨key, rfl, fun _ hf => absurd (hfind.symm.trans hf) (by simp)⟩

/-- Every member fits. -/
def AllFit (fields : List Field) : List Draft.Member → Prop
  | [] => True
  | m :: rest => Fits fields m ∧ AllFit fields rest

theorem checkMembers_seen {fields : List Field} {ms : List Draft.Member} {seen : List String}
    (hnodup : (ms.map (·.1)).Nodup) (hseen : ∀ key ∈ seen, some key ∉ ms.map (·.1))
    (h : AllFit fields ms) : checkMembers fields seen ms = .ok () := by
  induction ms generalizing seen with
  | nil => rfl
  | cons m rest ih =>
    obtain ⟨name, v⟩ := m
    obtain ⟨⟨key, hkey, hfit⟩, hrest⟩ := h
    obtain rfl : name = some key := hkey
    rw [List.map_cons, List.nodup_cons] at hnodup
    have hnew : key ∉ seen := fun hk => hseen key hk (List.mem_cons_self ..)
    have hlater : ∀ k ∈ seen, some k ∉ rest.map (·.1) :=
      fun k hk hm => hseen k hk (List.mem_cons_of_mem _ hm)
    rw [checkMembers]
    cases hfind : fields.find? (fun f => f.name = key) with
    | none => exact ih hnodup.2 hlater hrest
    | some f =>
      simp only [if_neg hnew, hfit f hfind]
      refine ih hnodup.2 (fun k hk => ?_) hrest
      rcases List.mem_cons.1 hk with rfl | hk
      · exact hnodup.1
      · exact hlater k hk

/-- Members of different names pass if each one does. -/
theorem checkMembers_ok {fields : List Field} {ms : List Draft.Member}
    (hnodup : (ms.map (·.1)).Nodup) (h : AllFit fields ms) :
    checkMembers fields [] ms = .ok () :=
  checkMembers_seen hnodup (fun _ hk => absurd hk List.not_mem_nil) h

theorem required_eq {name : String} {d : Decoder α} {ms : List Draft.Member} {v : Draft} {a : α}
    (hfind : find? name ms = some v) (h : d v = .ok a) : required name d ms = .ok a := by
  rw [required, hfind]
  exact h

theorem optional_eq {name : String} {d : Decoder α} {ms : List Draft.Member} {v : Draft}
    {a : Option α} (hfind : find? name ms = some v) (h : option d v = .ok a) :
    optional name d ms = .ok a := by
  rw [optional, hfind]
  exact h

theorem optional_missing {name : String} {d : Decoder α} {ms : List Draft.Member}
    (hfind : find? name ms = none) : optional name d ms = .ok none := by
  rw [optional, hfind]

theorem objectOnly_ok {fields : List Field} {build : List Draft.Member → Except Fault α}
    {d : Draft} {ms : List Draft.Member} (hd : d = .object ms)
    (h : checkMembers fields [] ms = .ok ()) : objectOnly fields build d = build ms := by
  rw [hd, objectOnly, h, ok_bind]

theorem recordWith_ok {spare : Nat} {fields : List Field}
    {build : List Draft.Member → Except Fault α} {d : Draft} {ms : List Draft.Member}
    (hd : d = .object ms) (h : checkMembers fields [] ms = .ok ()) :
    recordWith spare fields build d = build ms := by
  rw [hd, recordWith, members, ok_bind, h, ok_bind]

theorem record_ok {fields : List Field} {build : List Draft.Member → Except Fault α}
    {d : Draft} {ms : List Draft.Member} (hd : d = .object ms)
    (h : checkMembers fields [] ms = .ok ()) : record fields build d = build ms :=
  recordWith_ok hd h

/-! ### Records that were decoded -/

theorem recordWith_inv {spare : Nat} {fields : List Field}
    {build : List Draft.Member → Except Fault α} {d : Draft} {a : α}
    (h : recordWith spare fields build d = .ok a) :
    ∃ ms, members (fields.map (·.name)) spare d = .ok ms ∧ checkMembers fields [] ms = .ok () ∧
      build ms = .ok a := by
  obtain ⟨ms, hms, h⟩ := bind_inv h
  obtain ⟨_, hcheck, h⟩ := bind_inv h
  exact ⟨ms, hms, hcheck, h⟩

theorem allFit_iff {fields : List Field} {ms : List Draft.Member} :
    AllFit fields ms ↔ ∀ m ∈ ms, Fits fields m := by
  induction ms with
  | nil => simp [AllFit]
  | cons m rest ih => simp [AllFit, ih]

/-- Members that pass have names, and are what is asked for. -/
theorem allFit_of_checkMembers {fields : List Field} {ms : List Draft.Member} {seen : List String}
    (h : checkMembers fields seen ms = .ok ()) : AllFit fields ms := by
  induction ms generalizing seen with
  | nil => trivial
  | cons m rest ih =>
    obtain ⟨_ | key, v⟩ := m
    · cases h
    · rw [checkMembers] at h
      split at h
      · next hfind => exact ⟨fits_unknown hfind, ih h⟩
      · next f hfind =>
        split at h
        · cases h
        · split at h
          · cases h
          · next hcheck =>
            refine ⟨⟨key, rfl, fun f' hf' => ?_⟩, ih h⟩
            obtain rfl := Option.some.inj (hfind.symm.trans hf')
            exact hcheck

/-- A list that is a record has a value for each member. -/
theorem length_of_record {fields : List Field} {build : List Draft.Member → Except Fault α}
    {ds : List Draft} {a : α} (h : record fields build (.list ds) = .ok a) :
    ds.length = fields.length := by
  obtain ⟨ms, hms, hcheck, -⟩ := recordWith_inv h
  obtain rfl := Except.ok.inj hms
  rw [List.length_map] at hcheck
  by_cases hfits : fields.length ≤ ds.length + 0 ∧ ds.length ≤ fields.length
  · omega
  · rw [if_neg hfits] at hcheck
    obtain ⟨key, hkey, -⟩ := allFit_iff.1 (allFit_of_checkMembers hcheck) Draft.lost (by simp)
    cases hkey

/-- What is built of members that are looked up by their names. -/
def ByName (build : List Draft.Member → Except Fault α) : Prop :=
  ∀ ms ms', (∀ name, find? name ms = find? name ms') → build ms = build ms'

/-- **The order of members does not matter** to a record that they are in, if no two have one name. -/
theorem recordWith_perm {spare : Nat} {fields : List Field} {build : List Draft.Member → Except Fault α}
    (hbuild : ByName build) {ms ms' : List Draft.Member} (hperm : ms.Perm ms')
    (hdistinct : (ms.map (·.1)).Nodup) {a : α} (h : recordWith spare fields build (.object ms) = .ok a) :
    recordWith spare fields build (.object ms') = .ok a := by
  obtain ⟨_, hms, hcheck, hbuilt⟩ := recordWith_inv h
  obtain rfl := Except.ok.inj hms
  have hdistinct' : (ms'.map (·.1)).Nodup := (hperm.map _).nodup_iff.1 hdistinct
  have hfind : ∀ name, find? name ms' = find? name ms := fun name => Option.ext fun v => by
    have hmem := Entries.find?_eq_some_iff_mem hdistinct (k := some name) (v := v)
    have hmem' := Entries.find?_eq_some_iff_mem hdistinct' (k := some name) (v := v)
    exact hmem'.trans (hperm.mem_iff.symm.trans hmem.symm)
  have hfit : AllFit fields ms' := allFit_iff.2 fun m hm =>
    allFit_iff.1 (allFit_of_checkMembers hcheck) m (hperm.mem_iff.2 hm)
  rw [recordWith_ok rfl (checkMembers_ok hdistinct' hfit), hbuild ms' ms hfind, hbuilt]

theorem root_of_decode {doc : Document} {d : Decoder α} {a : α} (h : doc.decode d = .ok a) :
    d doc.root = .ok a := by
  rw [Document.decode] at h
  split at h
  · cases h
  · next b hb =>
    split at h
    · exact Except.ok.inj h ▸ hb
    · cases h

/-! ### Simple values -/

theorem natural_eq {n : Nat} (h : n < UInt64.size) :
    natural (.number (some (.integer n))) = .ok n := by
  have hn : (n : Int) < UInt64.size := Int.ofNat_lt.2 h
  rw [natural, integer, if_pos ⟨Int.natCast_nonneg n, hn⟩]
  rfl

theorem word32_eq (n : UInt32) : word32 (.number (some (.integer n.toNat))) = .ok n := by
  have hn : (n.toNat : Int) < UInt32.size := Int.ofNat_lt.2 n.toNat_lt
  rw [word32, integer, if_pos ⟨Int.natCast_nonneg _, hn⟩]
  show Except.ok (UInt32.ofNat (n.toNat : Int).toNat) = _
  rw [Int.toNat_natCast, UInt32.ofNat_toNat]

theorem signed32_eq (n : Int32) : signed32 (.number (some (.integer n.toInt))) = .ok n := by
  rw [signed32, integer, if_pos ⟨n.le_toInt, n.toInt_lt⟩]
  exact congrArg Except.ok (Int32.ofInt_toInt n)

/-- What is decoded as a natural number has 64 bits. -/
theorem lt_of_natural {d : Draft} {n : Nat} (h : natural d = .ok n) : n < UInt64.size := by
  rw [natural] at h
  cases hinteger : integer 0 UInt64.size d with
  | error e => rw [hinteger] at h; cases h
  | ok i =>
    rw [hinteger] at h
    obtain rfl := Except.ok.inj h
    unfold integer at hinteger
    split at hinteger
    · split at hinteger
      · next hbounds =>
        obtain rfl := Except.ok.inj hinteger
        omega
      · cases hinteger
    · cases hinteger

theorem items_map {d : Decoder α} {f : α → Draft} (h : ∀ a, d (f a) = .ok a) (as : List α) :
    items d (as.map f) = .ok as := by
  induction as with
  | nil => rfl
  | cons a as ih => rw [List.map_cons, items, h, ok_bind, ih]; rfl

/-! ### Tagged choices -/

theorem tagged_bare {variants : List (Variant α)} {name : String} {w : Variant α} {a : α}
    (hfind : variants.find? (fun w => some w.name = some name) = some w) (h : w.bare = .ok a) :
    tagged variants (.object [(some "type", .text (some name))]) = .ok a := by
  show (do
    let w ← variant? variants (some name)
    w.bare) = _
  rw [variant?, hfind]
  exact h

/-- A choice of that name understands the data, and makes `a` of them. -/
def Understands (d : Decoder α) (name : String) (data : Draft) (a : α) : Prop :=
  ∃ variants w, d = tagged variants ∧
    variants.find? (fun w => some w.name = some name) = some w ∧ w.body data = .ok a

section
variable {d : Decoder α} {name : String} {data : Draft} {a : α}

theorem Understands.typeFirst (h : Understands d name data a) :
    d (.object [(some "type", .text (some name)), (some "data", data)]) = .ok a := by
  obtain ⟨variants, w, rfl, hfind, hbody⟩ := h
  show (do
    let w ← variant? variants (some name)
    let a ← w.body data
    closing ([] : List (Role × Draft)) a) = _
  rw [variant?, hfind]
  show (do
    let a ← w.body data
    closing ([] : List (Role × Draft)) a) = _
  rw [hbody]
  rfl

/-- Data that come first are read in full, and then like any other. -/
theorem Understands.dataFirst (h : Understands d name data a) {j : Json}
    (hvalue : data.toJson? (Draft.depthLimit - 1) = some j) :
    d (.object [(some "data", data), (some "type", .text (some name))]) = .ok a := by
  have hlater := h.typeFirst
  obtain ⟨variants, w, rfl, -, -⟩ := h
  show (do
    let _ ← value (Draft.depthLimit - 1) data
    let w ← variant? variants (some name)
    let a ← w.body data
    closing ([] : List (Role × Draft)) a) = _
  rw [value, hvalue]
  exact hlater

end

end CartLedger.Json.Decoder
