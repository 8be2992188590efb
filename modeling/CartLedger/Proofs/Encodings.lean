import CartLedger.Proofs.Cart.Messages
import CartLedger.Proofs.Record.Codec
import CartLedger.Proofs.Snapshot.Codec
import CartLedger.Proofs.Time.Instant

/-! Everything that is passed on survives.

Whatever is said to a cart, by it or about it, and a cart itself with its snapshots, can be
written as a value, in one line or over many, and is read as what it was
(`encodings_round_trip`). So whatever comes in and is understood means the same once it has
been passed on.

The times that are passed on are those that have a text of their own. An instant without one,
in a second that is not the last of its minute and goes on, is passed on as the one whose text
it has (`late_checkout_moves`). -/
namespace CartLedger
open CartLedger.Json (Draft Decoder RoundTrips roundTrips_of)
open CartLedger.Json.Decoder
open CartLedger.Time (Instant Timestamp)

/-! ### Carts -/

theorem Cart.roundTrips : RoundTrips Cart.toJson Cart.decoder fun _ => True :=
  roundTrips_of (fun c _ => Cart.whole_toJson c) (fun c _ => Cart.decode_toJson c)
    (fun c _ => Cart.decode_canonical c) fun _ => trivial

/-! ### Contexts -/

namespace Context

theorem option_text (s : Option String) :
    Decoder.option Decoder.text (Draft.ofJson (optionalText s)) = .ok s := by
  cases s <;> rfl

theorem decode_toJson (c : Context) : Json.decode Context.decoder c.toJson = .ok c := by
  have hactor := option_text c.actor
  have hcorrelation := option_text c.correlationId
  refine (record_ok (by rfl) ?_).trans ?_
  · exact checkMembers_ok (by simp [Draft.ofMembers]) ⟨fits_field rfl hactor, fits_field rfl hcorrelation, trivial⟩
  · rw [optional_eq rfl hactor, ok_bind, optional_eq rfl hcorrelation, ok_bind, pure_ok]

theorem canonical_toJson (c : Context) : c.toJson.canonical = c.toJson := by
  obtain ⟨actor, correlationId⟩ := c
  cases actor <;> cases correlationId <;> rfl

theorem whole_toJson (c : Context) : Json.Whole c.toJson := by
  obtain ⟨actor, correlationId⟩ := c
  cases actor <;> cases correlationId <;> exact ⟨trivial, trivial, trivial⟩

theorem roundTrips : RoundTrips Context.toJson Context.decoder fun _ => True :=
  roundTrips_of (fun c _ => whole_toJson c) (fun c _ => decode_toJson c)
    (fun c _ => c.canonical_toJson.symm ▸ decode_toJson c) fun _ => trivial

end Context

/-! ### Metadata -/

namespace Record.Metadata

theorem decode_canonical (m : Metadata) : Json.decode Metadata.decoder m.toJson.canonical = .ok m := by
  obtain ⟨entityType, entityId, actor, correlationId⟩ := m
  have hbuild : ByName fun ms => do
      let entityType ← required "aggregate_type" Decoder.text ms
      let entityId ← required "entity_id" Decoder.text ms
      let actor ← Decoder.optional "actor" Decoder.text ms
      let correlationId ← Decoder.optional "correlation_id" Decoder.text ms
      return (⟨entityType, entityId, actor, correlationId⟩ : Metadata) :=
    fun _ _ h => by simp only [required, Decoder.optional, h]
  have hlisted := decode_metadata ⟨entityType, entityId, actor, correlationId⟩
  cases actor <;> cases correlationId <;>
    exact Json.decode_record_canonical hbuild (by simp [presentText]) hlisted

theorem roundTrips : RoundTrips Metadata.toJson Metadata.decoder fun _ => True :=
  roundTrips_of (fun m _ => whole_metadata m) (fun m _ => decode_metadata m) (fun m _ => decode_canonical m)
    fun _ => trivial

end Record.Metadata

/-! ### Snapshots -/

namespace Snapshot

/-- A snapshot of a cart as it is written. -/
def cartJson (s : Snapshot Cart) : Json := (ofCart s.state s.sequenceNr).toJson

theorem lt_of_decode {v : Draft} {s : Snapshot Cart} (h : Snapshot.decoder Cart.decoder v = .ok s) :
    s.sequenceNr < UInt64.size := by
  obtain ⟨ms, -, -, hbuild⟩ := recordWith_inv h
  obtain ⟨state, -, hbuild⟩ := bind_inv hbuild
  obtain ⟨n, hn, hbuild⟩ := bind_inv hbuild
  obtain rfl := Except.ok.inj hbuild
  unfold required at hn
  split at hn
  · exact lt_of_natural hn
  · cases hn

theorem decode_canonical (c : Cart) {n : Nat} (h : n < UInt64.size) :
    Json.decode (Snapshot.decoder Cart.decoder) (ofCart c n).toJson.canonical = .ok ⟨c, n⟩ := by
  have hstate : Cart.decoder (Draft.ofJson c.toJson.canonical) = .ok c := Cart.decode_canonical c
  have hnumber := natural_eq h
  refine Json.decode_record_canonical (fun _ _ h => by simp only [required, h]) (by simp) ?_
  refine (record_ok (by rfl) ?_).trans ?_
  · exact checkMembers_ok (by simp [Draft.ofMembers]) ⟨fits_field rfl hstate, fits_field rfl hnumber, trivial⟩
  · rw [required_eq rfl hstate, ok_bind, required_eq rfl hnumber, ok_bind, pure_ok]

theorem roundTrips :
    RoundTrips cartJson (Snapshot.decoder Cart.decoder) fun s => s.sequenceNr < UInt64.size :=
  roundTrips_of (fun s h => whole_toJson s.state h) (fun s h => decode_toJson s.state h)
    (fun s h => decode_canonical s.state h) lt_of_decode

end Snapshot

/-! ### All of them -/

/-- Everything that is said to carts, by them and about them, and what is kept of them. -/
structure EncodingsRoundTrip : Prop where
  command : RoundTrips Cart.Command.toJson Cart.Command.decoder fun _ => True
  event : RoundTrips Cart.Event.toJson Cart.Event.decoder fun _ => True
  reply : RoundTrips Cart.Reply.toJson Cart.Reply.decoder fun _ => True
  summary : RoundTrips Cart.Summary.toJson Cart.Summary.decoder fun _ => True
  cart : RoundTrips Cart.toJson Cart.decoder fun _ => True
  context : RoundTrips Context.toJson Context.decoder fun _ => True
  metadata : RoundTrips Record.Metadata.toJson Record.Metadata.decoder fun _ => True
  /-- A snapshot's number has 64 bits. -/
  snapshot : RoundTrips Snapshot.cartJson (Snapshot.decoder Cart.decoder) fun s => s.sequenceNr < UInt64.size

/-- **Encodings lose nothing.** As a value, in one line or over many, everything whose times
have a text of their own is decoded as what it was; so whatever is decoded from anything is the
same when it is written and decoded again. -/
theorem encodings_round_trip : EncodingsRoundTrip where
  command := Cart.Command.roundTrips
  event := Cart.Event.roundTrips
  reply := Cart.Reply.roundTrips
  summary := Cart.Summary.roundTrips
  cart := Cart.roundTrips
  context := Context.roundTrips
  metadata := Record.Metadata.roundTrips
  snapshot := Snapshot.roundTrips

/-- A cart that is checked out in a second that goes on is written as if that had been in the
second after, and is read so. -/
theorem late_checkout_moves :
    let cart (i : Instant) : Cart := ⟨.empty, some i.written⟩
    Instant.lateSecond ≠ Instant.nextSecond ∧
      (cart .lateSecond).toJson = (cart .nextSecond).toJson ∧
      ∃ c, Json.decode Cart.decoder (cart .lateSecond).toJson = .ok c ∧
        c.checkoutDate.map Timestamp.instant = some .nextSecond := by
  intro cart
  have halike : cart .lateSecond = cart .nextSecond :=
    congrArg (fun t => (⟨.empty, some t⟩ : Cart)) Instant.written_lateSecond
  refine ⟨by decide, congrArg Cart.toJson halike, cart .lateSecond, Cart.decode_toJson _, ?_⟩
  exact congrArg some Instant.instant_lateSecond

end CartLedger
