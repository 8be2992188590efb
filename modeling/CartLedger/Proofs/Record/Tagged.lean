import CartLedger.Proofs.Json.Canonical
import CartLedger.Proofs.Time.Timestamp
import CartLedger.Record.Codec

/-! What a record keeps of the value that it is made of.

A record has places for the type of a value and for its data, and data that are `null` count
as none. So the value is put together again from just these members (`taggedJson_ofTagged`).
Nobody looks whether there are others, though only what is tagged can be recorded: a value
with further members is not refused, and these are gone (`recorded_unless_dropped`,
`further_members_dropped`). -/
namespace CartLedger.Record

/-- The members that a record has a place for: a type, and data that are not `null`. -/
def keeps (m : String × Json) : Bool := m.1 = "type" || (m.1 = "data" && !m.2.isNull)

/-- How a value fares that is to be recorded. -/
structure Recording (e : Entry) (v : Json) : Prop where
  noObject : ofTagged e v = .error .noObject ↔ ∀ members, v ≠ .object members
  untagged : ofTagged e v = .error .untagged ↔
    (∃ members, v = .object members) ∧ ∀ name, v.member? "type" ≠ some (.text name)
  /-- With a text for its type it is recorded, and what the record keeps of it is all of it just
  if the record has a place for each of its members. -/
  recorded : ∀ {members name}, v = .object members → v.member? "type" = some (.text name) →
    ∃ r, ofTagged e v = .ok r ∧ r.taggedJson = .object (members.filter keeps) ∧
      (r.taggedJson = v ↔ ∀ m ∈ members, keeps m = true)

/-- The data of a recorded value; `null` where it has none. -/
def dataOf (members : List (String × Json)) : Json := (Entries.find? "data" members).getD .null

theorem ofTagged_object (e : Entry) {members : List (String × Json)} {name : String}
    (htype : Entries.find? "type" members = some (.text name)) :
    ofTagged e (.object members) = .ok (e.record name (dataOf members)) := by
  rw [ofTagged, Json.member?, htype]
  rfl

theorem mem_kept {members : List (String × Json)} {name : String} (hascending : Entries.Ascending members)
    (htype : Entries.find? "type" members = some (.text name)) {k : String} {v : Json} :
    (k, v) ∈ members.filter keeps ↔
      k = "type" ∧ v = .text name ∨ k = "data" ∧ v = dataOf members ∧ v.isNull = false := by
  have hkeeps : keeps (k, v) = true ↔ k = "type" ∨ k = "data" ∧ v.isNull = false := by simp [keeps]
  rw [List.mem_filter, ← Entries.find?_eq_some_iff hascending, hkeeps]
  constructor
  · rintro ⟨hfind, rfl | ⟨rfl, hnull⟩⟩
    · exact .inl ⟨rfl, Option.some.inj (hfind.symm.trans htype)⟩
    · exact .inr ⟨rfl, by rw [dataOf, hfind, Option.getD_some], hnull⟩
  · rintro (⟨rfl, rfl⟩ | ⟨rfl, hv, hnull⟩)
    · exact ⟨htype, .inl rfl⟩
    · refine ⟨?_, .inr ⟨rfl, hnull⟩⟩
      cases hfind : Entries.find? "data" members with
      | none =>
        rw [dataOf, hfind] at hv
        rw [hv] at hnull
        cases hnull
      | some data => rw [hv, dataOf, hfind, Option.getD_some]

theorem taggedJson_record (e : Entry) (name : String) (data : Json) :
    (e.record name data).taggedJson =
      if data.isNull then .object [("type", .text name)] else .object [("data", data), ("type", .text name)] := rfl

/-- What is put together again from a record are the members that it has a place for. -/
theorem taggedJson_ofTagged (e : Entry) {members : List (String × Json)} {name : String}
    (hascending : Entries.Ascending members) (htype : Entries.find? "type" members = some (.text name)) :
    (e.record name (dataOf members)).taggedJson = .object (members.filter keeps) := by
  have hkept : Entries.Ascending (members.filter keeps) := hascending.filter _
  rw [taggedJson_record]
  split
  · next hnull =>
    refine congrArg Json.object (Entries.ext_find? (List.pairwise_singleton _ _) hkept fun k => Option.ext fun v => ?_)
    rw [Entries.find?_eq_some_iff (List.pairwise_singleton _ _), Entries.find?_eq_some_iff hkept,
      mem_kept hascending htype, List.mem_singleton, Prod.mk.injEq]
    refine (or_iff_left ?_).symm
    rintro ⟨-, rfl, hnotnull⟩
    exact Bool.noConfusion (hnull.symm.trans hnotnull)
  · next hnull =>
    have hpair : Entries.Ascending [("data", dataOf members), ("type", Json.text name)] :=
      List.pairwise_pair.2 (show "data" < "type" by decide)
    refine congrArg Json.object (Entries.ext_find? hpair hkept fun k => Option.ext fun v => ?_)
    rw [Entries.find?_eq_some_iff hpair, Entries.find?_eq_some_iff hkept, mem_kept hascending htype,
      List.mem_cons, List.mem_singleton, Prod.mk.injEq, Prod.mk.injEq, or_comm]
    refine or_congr Iff.rfl (and_congr_right fun _ => ⟨?_, And.left⟩)
    rintro rfl
    exact ⟨rfl, Bool.not_eq_true _ ▸ hnull⟩

/-- **A value is recorded as a whole unless it has members that a record has no place for**; those
are dropped. -/
theorem recorded_unless_dropped (e : Entry) {v : Json} (hv : v.canonical = v) : Recording e v where
  noObject := by
    cases v with
    | object members =>
      refine iff_of_false (fun h => ?_) (fun h => h members rfl)
      rw [ofTagged] at h
      split at h <;> cases h
    | _ => exact iff_of_true rfl fun members h => nomatch h
  untagged := by
    cases v with
    | object members =>
      rw [ofTagged]
      split
      · next name hname => exact iff_of_false (fun h => nomatch h) fun h => h.2 name hname
      · next hname => exact iff_of_true rfl ⟨⟨members, rfl⟩, hname⟩
    | _ => exact iff_of_false (fun h => nomatch h) fun h => nomatch h.1.choose_spec
  recorded := by
    rintro members name rfl htype
    refine ⟨_, ofTagged_object e htype, ?_⟩
    rw [taggedJson_ofTagged e (Json.ascending_of_canonical hv) htype]
    exact ⟨rfl, by rw [Json.object.injEq, List.filter_eq_self]⟩

/-- Data that are neither an object nor `null`. -/
theorem plain_data_recorded :
    let e : Entry := ⟨.generated 0, .ofCart "a", 1, .empty, .anonymous, .epoch⟩
    let v : Json := .object [("data", .list [.natural 1]), ("type", .text "Counted")]
    v.canonical = v ∧ Recording e v := by
  intro e v
  have hv : v.canonical = v := by rfl
  exact ⟨hv, recorded_unless_dropped e hv⟩

/-- The value is refused, or given back as it was. -/
def Safe (e : Entry) (v : Json) : Prop :=
  (∃ why, ofTagged e v = .error why) ∨ ∃ r, ofTagged e v = .ok r ∧ r.taggedJson = v

/-- Not every value is safe: a further member is dropped, and so are data that are `null`. -/
theorem further_members_dropped :
    let e : Entry := ⟨.generated 0, .ofCart "a", 1, .empty, .anonymous, .epoch⟩
    let noted : Json := .object [("data", .natural 1), ("note", .natural 2), ("type", .text "Counted")]
    let empty : Json := .object [("data", .null), ("type", .text "Counted")]
    (noted.canonical = noted ∧ ¬ Safe e noted) ∧ empty.canonical = empty ∧ ¬ Safe e empty := by
  intro e noted empty
  have hdropped : ∀ {members kept : List (String × Json)} {r : Record}, ofTagged e (.object members) = .ok r →
      r.taggedJson = .object kept → kept.length ≠ members.length → ¬ Safe e (.object members) := by
    rintro members kept r hrecord hkept hlength (⟨why, hrefused⟩ | ⟨r', hrecord', hback⟩)
    · cases hrefused.symm.trans hrecord
    · obtain rfl := Except.ok.inj (hrecord.symm.trans hrecord')
      exact hlength (congrArg List.length (Json.object.inj (hkept.symm.trans hback)))
  exact ⟨⟨rfl, hdropped rfl rfl (by decide)⟩, rfl, hdropped rfl rfl (by decide)⟩

end CartLedger.Record
