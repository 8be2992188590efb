import CartLedger.OrderedMap.Lemmas
import CartLedger.Proofs.Json.Printing
import CartLedger.Proofs.Json.Records

/-! Encodings of values, and what decoding makes of them.

A value is passed on as a value in canonical form or as a text, and the other way round
anything may come in. What can be hoped for of an encoding is that nothing is lost, however
it is passed on (`RoundTrips`). It takes no more than that a value is decoded from its two
listings, since its texts are understood as it is written (`roundTrips_of`). Reading data in
full before they are understood loses nothing either, unless they nest too deep
(`Draft.toJson?_ofJson`). -/
namespace CartLedger.Json
open Text

/-! ### Depth -/

mutual

/-- How deep lists and objects nest in a value. -/
def depth : Json → Nat
  | .list items => depthItems items + 1
  | .object members => depthMembers members + 1
  | .null => 0
  | .bool _ => 0
  | .number _ => 0
  | .text _ => 0

def depthItems : List Json → Nat
  | [] => 0
  | item :: rest => max (depth item) (depthItems rest)

def depthMembers : List (String × Json) → Nat
  | [] => 0
  | (_, value) :: rest => max (depth value) (depthMembers rest)

end

mutual

/-- A value is read in full as its canonical form, where there is room for it. -/
theorem Draft.toJson?_ofJson : (v : Json) → {room : Nat} → v.depth ≤ room →
    toJson? room (ofJson v) = some v.canonical
  | .null, _, _ => rfl
  | .bool _, _, _ => rfl
  | .number _, _, _ => rfl
  | .text _, _, _ => rfl
  | .list items, room + 1, h => by
    rw [ofJson, toJson?, toItems?_ofItems items (Nat.le_of_succ_le_succ h)]
    rfl
  | .object members, room + 1, h => by
    rw [ofJson, toJson?, toMembers?_ofMembers members [] (Nat.le_of_succ_le_succ h)]
    rfl

theorem Draft.toItems?_ofItems : (items : List Json) → {room : Nat} → depthItems items ≤ room →
    toItems? room (ofItems items) = some (canonicalItems items)
  | [], _, _ => rfl
  | item :: rest, room, h => by
    obtain ⟨hitem, hrest⟩ := Nat.max_le.1 h
    rw [ofItems, toItems?, toJson?_ofJson item hitem, toItems?_ofItems rest hrest]
    rfl

theorem Draft.toMembers?_ofMembers : (members : List (String × Json)) → (kept : List (String × Json)) →
    {room : Nat} → depthMembers members ≤ room →
    toMembers? room kept (ofMembers members) = some (canonicalMembers kept members)
  | [], _, _, _ => rfl
  | (key, value) :: rest, kept, room, h => by
    obtain ⟨hvalue, hrest⟩ := Nat.max_le.1 h
    rw [ofMembers, toMembers?, toJson?_ofJson value hvalue]
    exact toMembers?_ofMembers rest _ hrest

end

theorem depthMembers_put (key : String) (v : Json) (kept : List (String × Json)) :
    depthMembers (Entries.put key v kept) ≤ max v.depth (depthMembers kept) := by
  induction kept with
  | nil => exact Nat.le_refl _
  | cons m rest ih =>
    simp only [Entries.put]
    split
    · exact Nat.le_refl _
    · split
      · simp only [depthMembers]
        omega
      · simp only [depthMembers]
        omega

mutual

theorem depth_canonical_le : (v : Json) → v.canonical.depth ≤ v.depth
  | .null => Nat.le_refl _
  | .bool _ => Nat.le_refl _
  | .number _ => Nat.le_refl _
  | .text _ => Nat.le_refl _
  | .list items => Nat.succ_le_succ (depthItems_canonical_le items)
  | .object members => by
    have h := depthMembers_canonical_le members []
    rw [depthMembers, Nat.zero_max] at h
    exact Nat.succ_le_succ h

theorem depthItems_canonical_le : (items : List Json) → depthItems (canonicalItems items) ≤ depthItems items
  | [] => Nat.le_refl _
  | item :: rest => by
    have hitem := depth_canonical_le item
    have hrest := depthItems_canonical_le rest
    rw [canonicalItems, depthItems, depthItems]
    omega

theorem depthMembers_canonical_le : (members : List (String × Json)) → (kept : List (String × Json)) →
    depthMembers (canonicalMembers kept members) ≤ max (depthMembers kept) (depthMembers members)
  | [], _ => Nat.le_max_left ..
  | (key, value) :: rest, kept => by
    have hvalue := depth_canonical_le value
    have hput := depthMembers_put key value.canonical kept
    have hrest := depthMembers_canonical_le rest (Entries.put key value.canonical kept)
    rw [canonicalMembers, depthMembers]
    omega

end

/-! ### Members in the order of their names -/

theorem ofMembers_eq_map (members : List (String × Json)) :
    Draft.ofMembers members = members.map fun m => (some m.1, Draft.ofJson m.2) := by
  induction members with
  | nil => rfl
  | cons m rest ih => rw [Draft.ofMembers, ih]; rfl

theorem ascending_canonicalMembers {kept : List (String × Json)} (h : Entries.Ascending kept)
    (members : List (String × Json)) : Entries.Ascending (canonicalMembers kept members) := by
  induction members generalizing kept with
  | nil => exact h
  | cons m rest ih => exact ih (Entries.ascending_put _ _ h)

/-- The members of a value in canonical form are in the order of their names. -/
theorem ascending_of_canonical {members : List (String × Json)} (h : (object members).canonical = object members) :
    Entries.Ascending members :=
  Json.object.inj h ▸ ascending_canonicalMembers Entries.ascending_nil members

/-- With different names, no member is lost on the way to canonical form. -/
theorem perm_canonicalMembers {members kept : List (String × Json)}
    (h : (kept.map (·.1) ++ members.map (·.1)).Nodup) :
    (canonicalMembers kept members).Perm (kept ++ members.map fun m => (m.1, m.2.canonical)) := by
  induction members generalizing kept with
  | nil => exact .of_eq (List.append_nil kept).symm
  | cons m rest ih =>
    have hmiddle : (kept.map (·.1) ++ m.1 :: rest.map (·.1)).Perm (m.1 :: kept.map (·.1) ++ rest.map (·.1)) :=
      List.perm_middle
    have hdistinct := hmiddle.nodup_iff.1 h
    have hnew : m.1 ∉ kept.map (·.1) := fun hm =>
      (List.nodup_cons.1 hdistinct).1 (List.mem_append_left _ hm)
    have hput := Entries.perm_put (v := m.2.canonical) hnew
    rw [canonicalMembers]
    refine (ih ?_).trans ((hput.append_right _).trans List.perm_middle.symm)
    exact ((hput.map _).append_right _).nodup_iff.2 hdistinct

/-- A record is decoded from a value in canonical form as it is from its members as they are listed. -/
theorem decode_record_canonical {α : Type} {spare : Nat} {fields : List Decoder.Field}
    {build : List Draft.Member → Except Fault α} (hbuild : Decoder.ByName build) {members : List (String × Json)}
    (hdistinct : (members.map (·.1)).Nodup) {a : α}
    (h : Json.decode (Decoder.recordWith spare fields build)
      (.object (members.map fun m => (m.1, m.2.canonical))) = .ok a) :
    Json.decode (Decoder.recordWith spare fields build) (Json.object members).canonical = .ok a := by
  have hlisted : (canonicalMembers [] members).Perm (members.map fun m => (m.1, m.2.canonical)) :=
    perm_canonicalMembers hdistinct
  have hperm := hlisted.map fun m => (some m.1, Draft.ofJson m.2)
  have hnames : (Draft.ofMembers (members.map fun m => (m.1, m.2.canonical))).map (·.1) =
      (members.map (·.1)).map some := by
    rw [ofMembers_eq_map, List.map_map, List.map_map, List.map_map]
    rfl
  refine Decoder.recordWith_perm hbuild ?_ ?_ h
  · rw [ofMembers_eq_map, ofMembers_eq_map]
    exact hperm.symm
  · rw [hnames]
    exact List.Pairwise.map some (fun _ _ hne he => hne (Option.some.inj he)) hdistinct

/-! ### Encodings -/

/-- What is decoded. -/
inductive Input where
  | value (v : Json)
  | text (bytes : List UInt8)

def Input.decode (d : Decoder α) : Input → Except Fault α
  | .value v => Json.decode d v
  | .text bytes => (Document.ofBytes bytes).decode d

/-- The ways in which a value is encoded. -/
inductive Form where
  | value
  | compact
  | pretty
  deriving DecidableEq

def Form.encode (v : Json) : Form → Input
  | .value => .value v.canonical
  | .compact => .text (Utf8.encode v.compact)
  | .pretty => .text (Utf8.encode v.pretty)

/-- Whatever is encoded is decoded again as what it was. -/
structure RoundTrips {α : Type} (toJson : α → Json) (d : Decoder α) (Allowed : α → Prop) : Prop where
  survives : ∀ a, Allowed a → ∀ form : Form, (form.encode (toJson a)).decode d = .ok a
  /-- What anything is decoded to is decoded again from its own encodings. -/
  settled : ∀ (input : Input) (a : α), input.decode d = .ok a →
    ∀ form : Form, (form.encode (toJson a)).decode d = .ok a

section
variable {α : Type} {toJson : α → Json} {d : Decoder α} {Allowed : α → Prop}

theorem root_of_input {input : Input} {a : α} (h : input.decode d = .ok a) : ∃ v, d v = .ok a := by
  cases input with
  | value v => exact ⟨_, h⟩
  | text bytes => exact ⟨_, Decoder.root_of_decode h⟩

theorem roundTrips_of (whole : ∀ a, Allowed a → Whole (toJson a))
    (plain : ∀ a, Allowed a → Json.decode d (toJson a) = .ok a)
    (canonical : ∀ a, Allowed a → Json.decode d (toJson a).canonical = .ok a)
    (allowed : ∀ {v a}, d v = .ok a → Allowed a) : RoundTrips toJson d Allowed := by
  have survives : ∀ a, Allowed a → ∀ form : Form, (form.encode (toJson a)).decode d = .ok a := by
    intro a ha form
    cases form with
    | value => exact canonical a ha
    | compact =>
      rw [Form.encode, Input.decode, Document.ofBytes_compact, Document.decode_whole d (whole a ha), plain a ha]
    | pretty =>
      rw [Form.encode, Input.decode, Document.ofBytes_pretty, Document.decode_whole d (whole a ha), plain a ha]
  refine ⟨survives, fun input a hinput => survives a ?_⟩
  obtain ⟨v, hv⟩ := root_of_input hinput
  exact allowed hv

end

end CartLedger.Json
