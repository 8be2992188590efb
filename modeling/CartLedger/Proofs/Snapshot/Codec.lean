import CartLedger.Proofs.Cart.Codec
import CartLedger.Snapshot.Basic

/-! Snapshots of carts are decoded as what they were written from. -/
namespace CartLedger.Snapshot
open CartLedger.Json (Document Draft)
open CartLedger.Json.Decoder

/-- A snapshot as it is written, its state being a cart. -/
def ofCart (c : Cart) (sequenceNr : Nat) : Snapshot Json := ⟨c.toJson, sequenceNr⟩

theorem whole_toJson (c : Cart) {n : Nat} (h : n < UInt64.size) : Json.Whole (ofCart c n).toJson :=
  ⟨Cart.whole_toJson c, Json.whole_natural h, trivial⟩

theorem decode_toJson (c : Cart) {n : Nat} (h : n < UInt64.size) :
    Json.decode (Snapshot.decoder Cart.decoder) (ofCart c n).toJson = .ok ⟨c, n⟩ := by
  have hstate : Cart.decoder (Draft.ofJson c.toJson) = .ok c := Cart.decode_toJson c
  have hnumber := natural_eq h
  refine (record_ok (by rfl) ?_).trans ?_
  · exact checkMembers_ok (by simp [ofCart, Draft.ofMembers]) ⟨fits_field rfl hstate, fits_field rfl hnumber,
      trivial⟩
  · rw [required_eq rfl hstate, ok_bind, required_eq rfl hnumber, ok_bind, pure_ok]

/-- The text of a snapshot's file. -/
theorem decode_pretty (c : Cart) {n : Nat} (h : n < UInt64.size) :
    (Document.ofBytes (Text.Utf8.encode (ofCart c n).toJson.pretty)).decode (Snapshot.decoder Cart.decoder) =
      .ok ⟨c, n⟩ := by
  rw [Document.ofBytes_pretty, Document.decode_whole _ (whole_toJson c h), decode_toJson c h]

end CartLedger.Snapshot
