import CartLedger.Cart.Codec
import CartLedger.Record.Basic

/-! Records as JSON, and the events in them.

`ofTagged` makes a record of anything that is written as a tagged choice, and
`taggedJson` is how the record's type and payload are put together again. Cart events
are written that way, so `ofEvent` needs no such care. -/
namespace CartLedger
open CartLedger.Json (Decoder Fault)
open CartLedger.Json.Decoder (field required optional record recordWith)
open CartLedger.Time (Timestamp)

/-! ### Parts -/

def optionalText : Option String → Json
  | none => .null
  | some s => .text s

/-- A member that is left out when there is nothing to say. -/
def presentText (name : String) : Option String → List (String × Json)
  | none => []
  | some s => [(name, .text s)]

def Context.toJson (c : Context) : Json :=
  .object [("actor", optionalText c.actor), ("correlation_id", optionalText c.correlationId)]

def Context.decoder : Decoder Context :=
  record [field "actor" (Decoder.option Decoder.text),
    field "correlation_id" (Decoder.option Decoder.text)] fun ms => do
    let actor ← optional "actor" Decoder.text ms
    let correlationId ← optional "correlation_id" Decoder.text ms
    return ⟨actor, correlationId⟩

def StreamId.toJson (s : StreamId) : Json :=
  .object [("entity_type", .text s.entityType), ("entity_id", .text s.entityId)]

def StreamId.decoder : Decoder StreamId :=
  record [field "entity_type" Decoder.text, field "entity_id" Decoder.text] fun ms => do
    let entityType ← required "entity_type" Decoder.text ms
    let entityId ← required "entity_id" Decoder.text ms
    return ⟨entityType, entityId⟩

namespace Record

def Metadata.toJson (m : Metadata) : Json :=
  .object ([("aggregate_type", .text m.entityType), ("entity_id", .text m.entityId)] ++
    presentText "actor" m.actor ++ presentText "correlation_id" m.correlationId)

def Metadata.decoder : Decoder Metadata :=
  recordWith 2 [field "aggregate_type" Decoder.text, field "entity_id" Decoder.text,
    field "actor" (Decoder.option Decoder.text),
    field "correlation_id" (Decoder.option Decoder.text)] fun ms => do
    let entityType ← required "aggregate_type" Decoder.text ms
    let entityId ← required "entity_id" Decoder.text ms
    let actor ← optional "actor" Decoder.text ms
    let correlationId ← optional "correlation_id" Decoder.text ms
    return ⟨entityType, entityId, actor, correlationId⟩

def EventId.decoder : Decoder EventId := fun d => do
  let s ← Decoder.text d
  match EventId.ofString? s with
  | some e => .ok e
  | none => .error .malformed

def tagSet : Decoder (OrderedSet String) := fun d => (Decoder.list Decoder.text d).map OrderedSet.ofList

/-! ### Records -/

/-- The record with its id written as `id`. -/
def toJsonWith (id : String) (r : Record) : Json :=
  .object [("event_id", .text id), ("persistence_id", r.stream.toJson),
    ("sequence_nr", .natural r.sequenceNr), ("event_type", .text r.eventType),
    ("payload", r.payload), ("tags", .list (OrderedSet.toList r.tags |>.map .text)),
    ("metadata", r.metadata.toJson), ("recorded_at", Cart.timestampJson r.recordedAt)]

def toJson (r : Record) : Json := r.toJsonWith r.eventId.toString

/-- A payload lies one level below its record. As for data in front of a tag
(`Json.Decoder.tagged`), the limit is that of a reader of texts, and is held against a record
that was never a text as well: its payload may not nest more than 126 deep either. -/
def payloadValue : Decoder Json := Decoder.value (Json.Draft.depthLimit - 1)

def decoder : Decoder Record :=
  record [field "event_id" EventId.decoder, field "persistence_id" StreamId.decoder,
    field "sequence_nr" Decoder.natural, field "event_type" Decoder.text,
    field "payload" payloadValue, field "tags" tagSet, field "metadata" Metadata.decoder,
    field "recorded_at" Cart.timestamp] fun ms => do
    let id ← required "event_id" EventId.decoder ms
    let stream ← required "persistence_id" StreamId.decoder ms
    let sequenceNr ← required "sequence_nr" Decoder.natural ms
    let eventType ← required "event_type" Decoder.text ms
    let payload ← required "payload" payloadValue ms
    let tags ← required "tags" tagSet ms
    let metadata ← required "metadata" Metadata.decoder ms
    let recordedAt ← required "recorded_at" Cart.timestamp ms
    return ⟨id, stream, sequenceNr, eventType, payload, tags, metadata, recordedAt⟩

/-- The number of a record, whatever else it holds. -/
def position : Decoder Nat :=
  record [field "sequence_nr" Decoder.natural] (required "sequence_nr" Decoder.natural)

/-! ### Events in records -/

/-- Why something cannot be recorded. -/
inductive Unrecordable where
  | noObject
  | untagged
  deriving DecidableEq, Repr

def Unrecordable.message : Unrecordable → String
  | .noObject => "domain event must serialize to a JSON object"
  | .untagged => "domain event must be adjacently tagged with a string 'type'"

/-- Where, when and on whose behalf something is recorded. -/
structure Entry where
  id : EventId
  stream : StreamId
  sequenceNr : Nat
  tags : OrderedSet String
  context : Context
  time : Timestamp

def Entry.record (e : Entry) (eventType : String) (payload : Json) : Record where
  eventId := e.id
  stream := e.stream
  sequenceNr := e.sequenceNr
  eventType := eventType
  payload := payload
  tags := e.tags
  metadata := ⟨e.stream.entityType, e.stream.entityId, e.context.actor, e.context.correlationId⟩
  recordedAt := e.time

/-- Records a value with a text member `type`; its member `data` becomes the payload. -/
def ofTagged (e : Entry) (event : Json) : Except Unrecordable Record :=
  match event with
  | .object _ =>
    match event.member? "type" with
    | some (.text eventType) => .ok (e.record eventType ((event.member? "data").getD .null))
    | _ => .error .untagged
  | _ => .error .noObject

def ofEvent (e : Entry) (event : Cart.Event) : Record := e.record event.typeName (.object event.data)

theorem ofTagged_toJson (e : Entry) (event : Cart.Event) :
    ofTagged e event.toJson = .ok (ofEvent e event) := rfl

/-- The recorded value, put together again. -/
def taggedJson (r : Record) : Json :=
  if r.payload.isNull then .object [("type", .text r.eventType)]
  else .object [("data", r.payload), ("type", .text r.eventType)]

/-- The cart event in a record, if there is one. -/
def event? (r : Record) : Option Cart.Event := (Json.decode Cart.Event.decoder r.taggedJson).toOption

end Record

end CartLedger
