import CartLedger.Cart.Codec
import CartLedger.Retention

/-! Snapshots: a state, and how many events of its stream are in it. -/
namespace CartLedger
open CartLedger.Json (Decoder)
open CartLedger.Json.Decoder (field required record)

structure Snapshot (α : Type) where
  state : α
  sequenceNr : Nat
  deriving DecidableEq

namespace Snapshot

def toJson (s : Snapshot Json) : Json :=
  .object [("state", s.state), ("sequence_nr", .natural s.sequenceNr)]

def map (f : α → β) (s : Snapshot α) : Snapshot β := ⟨f s.state, s.sequenceNr⟩

def decoder (state : Decoder α) : Decoder (Snapshot α) :=
  record [field "state" state, field "sequence_nr" Decoder.natural] fun ms => do
    let s ← required "state" state ms
    let sequenceNr ← required "sequence_nr" Decoder.natural ms
    return ⟨s, sequenceNr⟩

end Snapshot

end CartLedger
