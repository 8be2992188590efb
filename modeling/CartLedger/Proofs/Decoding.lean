import CartLedger.Proofs.Cart.Reading
import CartLedger.Record.Codec
import CartLedger.Snapshot.Basic

/-! Texts and values are decoded alike.

A text is decoded as it is met, its members in the order in which they stand there; a value has
been read in full before, and shows its members in the order of their names. Where a text stands
for a value and says nothing twice, the two come to the same (`decoding_agrees`): whatever is
decoded reads a shape, and so depends on no more of the text than what the shape knows of the
value. -/
namespace CartLedger
open CartLedger.Json (Draft Document Decoder Input Shape)
open CartLedger.Json.Decoder

/-! ### Contexts, metadata and records -/

section
variable {room : Nat}

theorem reads_optionalText : Reads room .whole (Decoder.option Decoder.text) := reads_option reads_text

def Context.shape : Shape := .flat ["actor", "correlation_id"]

theorem Context.reads_decoder : Reads (room + 1) shape decoder :=
  reads_recordWith (by rfl) (by decide) ⟨reads_field reads_optionalText, reads_field reads_optionalText, trivial⟩
    (builds_optional (by decide) reads_optionalText fun _ => builds_optional (by decide) reads_optionalText fun _ =>
      builds_pure _)

def StreamId.shape : Shape := .flat ["entity_type", "entity_id"]

theorem StreamId.reads_decoder : Reads (room + 1) shape decoder :=
  reads_recordWith (by rfl) (by decide) ⟨reads_field reads_text, reads_field reads_text, trivial⟩
    (builds_required (by decide) reads_text fun _ => builds_required (by decide) reads_text fun _ => builds_pure _)

namespace Record

def Metadata.shape : Shape := .flat ["aggregate_type", "entity_id", "actor", "correlation_id"]

theorem Metadata.reads_decoder : Reads (room + 1) shape decoder :=
  reads_recordWith (by rfl) (by decide)
    ⟨reads_field reads_text, reads_field reads_text, reads_field reads_optionalText,
      reads_field reads_optionalText, trivial⟩
    (builds_required (by decide) reads_text fun _ => builds_required (by decide) reads_text fun _ =>
      builds_optional (by decide) reads_optionalText fun _ => builds_optional (by decide) reads_optionalText fun _ =>
        builds_pure _)

theorem EventId.reads_decoder : Reads room .whole decoder := reads_text.bind _

theorem reads_tagSet : Reads (room + 1) .whole tagSet := (reads_list reads_text).map _

def shape : Shape := .record ["event_id", "persistence_id", "sequence_nr", "event_type", "payload", "tags",
    "metadata", "recorded_at"] fun
  | "persistence_id" => StreamId.shape
  | "metadata" => Metadata.shape
  | _ => .whole

theorem reads_decoder : Reads Draft.depthLimit shape decoder :=
  reads_recordWith (by rfl) (by decide)
    ⟨reads_field EventId.reads_decoder, reads_field StreamId.reads_decoder, reads_field reads_natural,
      reads_field reads_text, reads_field reads_value, reads_field reads_tagSet, reads_field Metadata.reads_decoder,
      reads_field Cart.reads_timestamp, trivial⟩
    (builds_required (by decide) EventId.reads_decoder fun _ =>
      builds_required (by decide) StreamId.reads_decoder fun _ =>
      builds_required (by decide) reads_natural fun _ => builds_required (by decide) reads_text fun _ =>
      builds_required (by decide) reads_value fun _ => builds_required (by decide) reads_tagSet fun _ =>
      builds_required (by decide) Metadata.reads_decoder fun _ =>
      builds_required (by decide) Cart.reads_timestamp fun _ => builds_pure _)

end Record

/-! ### Snapshots -/

namespace Snapshot

def shape (state : Shape) : Shape := .record ["state", "sequence_nr"] fun
  | "state" => state
  | _ => .whole

theorem reads_decoder {state : Shape} {D : Decoder α} (h : Reads room state D) :
    Reads (room + 1) (shape state) (decoder D) :=
  reads_recordWith (by rfl) (by decide) ⟨reads_field h, reads_field reads_natural, trivial⟩
    (builds_required (by decide) h fun _ => builds_required (by decide) reads_natural fun _ => builds_pure _)

end Snapshot

end

/-! ### Texts and values -/

/-- A text that is read as the value, in no object of which two members have one name. -/
structure Parses (bytes : List UInt8) (v : Json) : Prop where
  value : (Document.ofBytes bytes).toJson? = some v
  distinct : (Document.ofBytes bytes).root.Distinct

/-- Of a text and of the value that it stands for the same is decoded. -/
structure DecodesAlike (shape : Shape) (D : Decoder α) : Prop where
  agrees : ∀ {bytes : List UInt8} {v : Json}, Parses bytes v →
    ∀ a, (Input.text bytes).decode D = .ok a ↔ (Input.value v).decode D = .ok a
  /-- Members that the shape does not know are of no account. -/
  unknown : ∀ {bytes : List UInt8} {v : Json}, Parses bytes v →
    ∀ a, (Input.text bytes).decode D = .ok a ↔ (Input.value (shape.known v)).decode D = .ok a
  /-- In whatever order the members of its objects come, the text is decoded as the same. -/
  reordered : ∀ {bytes bytes' : List UInt8} {v : Json}, Parses bytes v →
    Draft.Reordered (Document.ofBytes bytes).root (Document.ofBytes bytes').root →
    (Document.ofBytes bytes').complete →
    ∀ a, (Input.text bytes').decode D = .ok a ↔ (Input.text bytes).decode D = .ok a

theorem Parses.complete {bytes : List UInt8} {v : Json} (h : Parses bytes v) : (Document.ofBytes bytes).complete := by
  have hvalue := h.value
  rw [Document.toJson?] at hvalue
  split at hvalue
  · assumption
  · cases hvalue

theorem Parses.stands {bytes : List UInt8} {v : Json} (h : Parses bytes v) :
    Draft.Stands Draft.depthLimit (Document.ofBytes bytes).root v := by
  refine ⟨?_, h.distinct⟩
  have hvalue := h.value
  rwa [Document.toJson?, if_pos h.complete] at hvalue

theorem decode_complete {bytes : List UInt8} (h : (Document.ofBytes bytes).complete) {D : Decoder α} {a : α} :
    (Input.text bytes).decode D = .ok a ↔ D (Document.ofBytes bytes).root = .ok a := by
  rw [Input.decode, Document.decode]
  cases D (Document.ofBytes bytes).root with
  | error e => exact Iff.rfl
  | ok b =>
    show (if (Document.ofBytes bytes).complete then Except.ok b else _) = _ ↔ _
    rw [if_pos h]

theorem decodesAlike {shape : Shape} {D : Decoder α} (h : Reads Draft.depthLimit shape D) : DecodesAlike shape D where
  agrees hparses _ := (decode_complete hparses.complete).trans
    ((h.ok_iff hparses.stands).trans (h.ok_iff hparses.stands.settled).symm)
  unknown hparses _ := (decode_complete hparses.complete).trans (h.ok_iff hparses.stands)
  reordered hparses hreordered hcomplete _ := (decode_complete hcomplete).trans
    ((h.ok_iff (hreordered.stands hparses.stands)).trans
      ((h.ok_iff hparses.stands).symm.trans (decode_complete hparses.complete).symm))

/-- In particular what is printed of a value parses, in whatever order the members are listed. -/
theorem parses_compact {v : Json} (hwhole : Json.Whole v) (hdistinct : (Draft.ofJson v).Distinct)
    (hdepth : v.depth ≤ Draft.depthLimit) : Parses (Text.Utf8.encode v.compact) v.canonical := by
  have hdocument := Document.ofBytes_compact v
  rw [Draft.printed_whole hwhole] at hdocument
  constructor
  · rw [hdocument]
    exact Draft.toJson?_ofJson v hdepth
  · rw [hdocument]
    exact hdistinct

/-- All that is said to carts, by them and about them, and all that is kept of them. -/
structure DecodingAgrees : Prop where
  command : DecodesAlike Cart.Command.shape Cart.Command.decoder
  event : DecodesAlike Cart.Event.shape Cart.Event.decoder
  reply : DecodesAlike Cart.Reply.shape Cart.Reply.decoder
  summary : DecodesAlike Cart.Summary.shape Cart.Summary.decoder
  cart : DecodesAlike Cart.shape Cart.decoder
  context : DecodesAlike Context.shape Context.decoder
  metadata : DecodesAlike Record.Metadata.shape Record.Metadata.decoder
  record : DecodesAlike Record.shape Record.decoder
  snapshot : DecodesAlike (Snapshot.shape Cart.shape) (Snapshot.decoder Cart.decoder)

/-- **Texts and values are decoded alike**, whatever the order of their members, and whatever else
is in them. -/
theorem decoding_agrees : DecodingAgrees where
  command := decodesAlike Cart.Command.reads_decoder
  event := decodesAlike Cart.Event.reads_decoder
  reply := decodesAlike Cart.Reply.reads_decoder
  summary := decodesAlike Cart.Summary.reads_decoder
  cart := decodesAlike Cart.reads_decoder
  context := decodesAlike Context.reads_decoder
  metadata := decodesAlike Record.Metadata.reads_decoder
  record := decodesAlike Record.reads_decoder
  snapshot := decodesAlike (Snapshot.reads_decoder Cart.reads_decoder)

/-- A removal, its data in front of its name, with members that nobody knows. -/
def talkativeRemoval : Json := .object [("seen", .bool true),
  ("data", .object [("note", .list []), ("item_id", .text "pen")]), ("type", .text "RemoveItem")]

theorem talkative_removal_decoded :
    Parses (Text.Utf8.encode talkativeRemoval.compact) talkativeRemoval.canonical ∧
      (Input.text (Text.Utf8.encode talkativeRemoval.compact)).decode Cart.Command.decoder =
        .ok (.removeItem ⟨"pen", by decide⟩) := by
  have hparses : Parses (Text.Utf8.encode talkativeRemoval.compact) talkativeRemoval.canonical :=
    parses_compact (by simp [talkativeRemoval, Json.Whole, Json.WholeMembers, Json.WholeItems])
      (by simp [talkativeRemoval, Draft.ofJson, Draft.ofMembers, Draft.ofItems, Draft.Distinct, Draft.DistinctMembers,
        Draft.DistinctItems])
      (by decide)
  exact ⟨hparses, (decoding_agrees.command.unknown hparses _).2 rfl⟩

end CartLedger
