import CartLedger.Proofs.Journal.StreamFile
import CartLedger.Proofs.Time.Instant

/-! What a journal's text keeps of a recorded event.

An event is recorded as JSON, the record is written on a line of its own, and the line is
read by two readers: one that wants the whole record, and one that wants no more than its
number and passes over the rest. Nothing of an event or of its record is lost on the way,
and no text in either breaks the line (`record_survives`).

The times in an event and its record are those that have a text of their own. Of an instant
without one, in a second that is not the last of its minute and goes on, the line keeps no
more than the text does, and that is another instant (`late_second_moves`). -/
namespace CartLedger.Journal.Durable
open CartLedger.Json (Document)
open CartLedger.Record (Entry)
open CartLedger.Text.Lines (newline)
open CartLedger.Time (Date Instant Timestamp)

/-- The event is recorded as `r`, which a journal writes as `bytes` and a newline, and what is
read of these bytes is what was written. -/
structure Survives (entry : Entry) (event : Cart.Event) (r : Record) (bytes : List UInt8) : Prop where
  encoded : Record.ofTagged entry event.toJson = .ok r
  /-- Besides its event, a record holds what it was recorded with. -/
  carries : r = entry.record r.eventType r.payload
  event : r.event? = some event
  line : lineOf r = bytes ++ [newline]
  unbroken : newline ∉ bytes
  record : (Document.ofBytes bytes).decode Record.decoder = .ok r
  position : (Document.ofBytes bytes).decode Record.position = .ok r.sequenceNr

theorem survives_ofEvent (entry : Entry) (event : Cart.Event) (hfits : entry.sequenceNr < UInt64.size) :
    Survives entry event (.ofEvent entry event) (text (.ofEvent entry event)) :=
  have hstorable := Record.storable_ofEvent hfits event
  { encoded := Record.ofTagged_toJson entry event
    carries := rfl
    event := Cart.event?_ofEvent entry event
    line := lineOf_text _
    unbroken := (plain_text _).2
    record := decode_text hstorable
    position := position_text hstorable.sequenceNr_lt }

/-- **Records survive the journal's text.** Every event can be recorded, under every number of
64 bits and at every time that has a text of its own, and both readers of its record's line
read what was written. -/
theorem record_survives (entry : Entry) (event : Cart.Event) (hfits : entry.sequenceNr < UInt64.size) :
    ∃ r bytes, Survives entry event r bytes :=
  ⟨.ofEvent entry event, text (.ofEvent entry event), survives_ofEvent entry event hfits⟩

/-- The last number there is, texts with newlines and quotes, a second too many and a year
before the first. -/
theorem awkward_record_survives :
    let date : Date := ⟨-262143, 2, 28, by decide⟩
    let time : Timestamp := ⟨date, 23, 59, 60, 123456789, by decide⟩
    let entry : Entry :=
      ⟨.generated 7, ⟨"a\nb", "\"\\\u0000𝄞"⟩, 18446744073709551615, .ofList ["b", "\n", "a"], ⟨none, some "\r\n"⟩, time⟩
    ∃ r bytes, Survives entry (.itemAdded "cart\n1" ⟨"\u2028", by decide⟩ 4294967295 time) r bytes := by
  intro date time entry
  exact record_survives entry _ (by decide)

/-- A checkout in a second that goes on, recorded within it. Both readers read what was
written, and that is the second after, in the record as in the event. -/
theorem late_second_moves :
    let entry (i : Instant) : Entry :=
      ⟨.generated 0, .ofCart "cart-1", 1, .ofList [], .anonymous, i.written⟩
    Instant.lateSecond ≠ Instant.nextSecond ∧
      ∃ r bytes, Survives (entry .lateSecond) (.checkedOut "cart-1" Instant.lateSecond.written) r bytes ∧
        r.recordedAt.instant = .nextSecond ∧
        ∃ t, r.event? = some (.checkedOut "cart-1" t) ∧ t.instant = .nextSecond := by
  intro entry
  have hsurvives := survives_ofEvent (entry .lateSecond)
    (.checkedOut "cart-1" Instant.lateSecond.written) (by decide)
  refine ⟨by decide, _, _, hsurvives, ?_, _, hsurvives.event, Instant.instant_lateSecond⟩
  exact Instant.instant_lateSecond

end CartLedger.Journal.Durable
