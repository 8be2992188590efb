import CartLedger.Proofs.Cart.Codec
import CartLedger.Proofs.Record.EventId

/-! Records are decoded as what they were written from.

A record is `Storable` when its number fits 64 bits and its payload is kept by the text:
whole numbers, keys in order, not too deep. Records of cart events are (`storable_ofEvent`).
A storable record is decoded from its line (`decode_toJson`); its number is decoded from it
whatever else is there (`decode_position`). -/
namespace CartLedger.Record
open CartLedger.Json (Draft Decoder)
open CartLedger.Json.Decoder

structure Storable (r : Record) : Prop where
  sequenceNr_lt : r.sequenceNr < UInt64.size
  whole : Json.Whole r.payload
  kept : (Draft.ofJson r.payload).toJson? (Draft.depthLimit - 1) = some r.payload

theorem storable_ofEvent {entry : Entry} (h : entry.sequenceNr < UInt64.size) (e : Cart.Event) :
    Storable (ofEvent entry e) :=
  ⟨h, Cart.whole_data e, Cart.toJson?_data e (by decide)⟩

/-! ### Parts -/

theorem eventId_toString (e : EventId) : EventId.decoder (.text (some e.toString)) = .ok e := by
  rw [EventId.decoder, Cart.text_eq, ok_bind]
  simp only [EventId.ofString?_toString]

theorem decode_streamId (id : StreamId) : Json.decode StreamId.decoder id.toJson = .ok id := by
  have htype := Cart.text_eq id.entityType
  have hid := Cart.text_eq id.entityId
  refine (record_ok (by rfl) ?_).trans ?_
  · exact checkMembers_ok (by simp [Draft.ofMembers]) ⟨fits_field rfl htype, fits_field rfl hid,
      trivial⟩
  · rw [required_eq rfl htype, ok_bind, required_eq rfl hid, ok_bind, pure_ok]

/-- A text that is left out when there is none. -/
theorem optional_text {name : String} {s : Option String} {ms : List Draft.Member}
    (hfind : find? name ms = s.map fun t => .text (some t)) :
    optional name Decoder.text ms = .ok s := by
  cases s with
  | none => exact optional_missing hfind
  | some t => exact optional_eq hfind rfl

theorem decode_metadata (m : Metadata) : Json.decode Metadata.decoder m.toJson = .ok m := by
  obtain ⟨entityType, entityId, actor, correlationId⟩ := m
  have htype := Cart.text_eq entityType
  have hid := Cart.text_eq entityId
  have hoption : ∀ s, Decoder.option Decoder.text (.text (some s)) = .ok (some s) := fun _ => rfl
  refine (recordWith_ok (by rfl) ?_).trans ?_
  · cases actor with
    | none =>
      cases correlationId with
      | none =>
        exact checkMembers_ok (by simp [presentText, Draft.ofMembers])
          ⟨fits_field rfl htype, fits_field rfl hid, trivial⟩
      | some c =>
        exact checkMembers_ok (by simp [presentText, Draft.ofMembers])
          ⟨fits_field rfl htype, fits_field rfl hid, fits_field rfl (hoption c), trivial⟩
    | some a =>
      cases correlationId with
      | none =>
        exact checkMembers_ok (by simp [presentText, Draft.ofMembers])
          ⟨fits_field rfl htype, fits_field rfl hid, fits_field rfl (hoption a), trivial⟩
      | some c =>
        exact checkMembers_ok (by simp [presentText, Draft.ofMembers])
          ⟨fits_field rfl htype, fits_field rfl hid, fits_field rfl (hoption a),
            fits_field rfl (hoption c), trivial⟩
  · have hactor : optional "actor" Decoder.text (Draft.ofMembers
        ([("aggregate_type", .text entityType), ("entity_id", .text entityId)] ++
          presentText "actor" actor ++ presentText "correlation_id" correlationId)) = .ok actor := by
      apply optional_text
      cases actor <;> cases correlationId <;> rfl
    have hcorrelation : optional "correlation_id" Decoder.text (Draft.ofMembers
        ([("aggregate_type", .text entityType), ("entity_id", .text entityId)] ++
          presentText "actor" actor ++ presentText "correlation_id" correlationId)) =
            .ok correlationId := by
      apply optional_text
      cases actor <;> cases correlationId <;> rfl
    rw [required_eq rfl htype, ok_bind, required_eq rfl hid, ok_bind, hactor, ok_bind, hcorrelation,
      ok_bind, pure_ok]

theorem tagSet_toList (tags : OrderedSet String) :
    tagSet (Draft.ofJson (.list (OrderedSet.toList tags |>.map .text))) = .ok tags := by
  have hitems : ∀ ts : List String, Draft.ofItems (ts.map .text) = ts.map fun t => .text (some t) := by
    intro ts
    induction ts with
    | nil => rfl
    | cons t ts ih => rw [List.map_cons, Draft.ofItems, ih]; rfl
  show (Decoder.list Decoder.text (.list (Draft.ofItems (tags.toList.map .text)))).map _ = _
  rw [hitems, Decoder.list, items_map Cart.text_eq]
  exact congrArg Except.ok (OrderedSet.ofList_toList tags)

/-! ### Records -/

theorem payloadValue_kept {r : Record} (h : Storable r) :
    payloadValue (Draft.ofJson r.payload) = .ok r.payload := by
  rw [payloadValue, value, h.kept]

theorem decode_toJson {r : Record} (h : Storable r) : Json.decode decoder r.toJson = .ok r := by
  have hevent := eventId_toString r.eventId
  have hstream := decode_streamId r.stream
  have hnumber := natural_eq h.sequenceNr_lt
  have htype := Cart.text_eq r.eventType
  have hpayload := payloadValue_kept h
  have htags := tagSet_toList r.tags
  have hmetadata := decode_metadata r.metadata
  have htime := Cart.timestamp_toString r.recordedAt
  refine (record_ok (by rfl) ?_).trans ?_
  · exact checkMembers_ok (by simp [Draft.ofMembers]) ⟨fits_field rfl hevent, fits_field rfl hstream,
      fits_field rfl hnumber, fits_field rfl htype, fits_field rfl hpayload, fits_field rfl htags,
      fits_field rfl hmetadata, fits_field rfl htime, trivial⟩
  · rw [required_eq rfl hevent, ok_bind, required_eq rfl hstream, ok_bind, required_eq rfl hnumber,
      ok_bind, required_eq rfl htype, ok_bind, required_eq rfl hpayload, ok_bind,
      required_eq rfl htags, ok_bind, required_eq rfl hmetadata, ok_bind, required_eq rfl htime,
      ok_bind, pure_ok]

/-- Whoever is after the number only passes the rest over, whatever it is. -/
theorem decode_position {r : Record} (h : r.sequenceNr < UInt64.size) :
    position (Draft.printed r.toJson) = .ok r.sequenceNr := by
  have hnumber : Decoder.natural (Draft.printed (.natural r.sequenceNr)) = .ok r.sequenceNr := by
    rw [Draft.printed_whole (Json.whole_natural h)]
    exact natural_eq h
  refine (record_ok (by rfl) ?_).trans ?_
  · exact checkMembers_ok (by simp [Draft.printedMembers]) ⟨fits_unknown rfl, fits_unknown rfl,
      fits_field rfl hnumber, fits_unknown rfl, fits_unknown rfl, fits_unknown rfl, fits_unknown rfl,
      fits_unknown rfl, trivial⟩
  · exact required_eq rfl hnumber

theorem whole_metadata (m : Metadata) : Json.Whole m.toJson := by
  obtain ⟨_, _, actor, correlationId⟩ := m
  cases actor <;> cases correlationId <;> exact Json.wholeMembers_iff.2 (by simp [presentText, Json.Whole])

theorem whole_toJson {r : Record} (h : Storable r) : Json.Whole r.toJson := by
  have htags : Json.Whole (.list (OrderedSet.toList r.tags |>.map .text)) := by
    refine Json.wholeItems_iff.2 fun item hitem => ?_
    obtain ⟨t, -, rfl⟩ := List.mem_map.1 hitem
    trivial
  exact ⟨trivial, ⟨trivial, trivial, trivial⟩, Json.whole_natural h.sequenceNr_lt, trivial, h.whole,
    htags, whole_metadata r.metadata, trivial, trivial⟩

end CartLedger.Record
