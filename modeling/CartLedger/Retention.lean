/-! When a cart is saved, and which of its snapshots are kept. -/
namespace CartLedger

/-- A snapshot after every `every` events, never if that is zero, keeping the last
`keep` of them. -/
structure Retention where
  every : Nat
  keep : Nat
  deriving DecidableEq, Repr

namespace Retention

def standard : Retention := ⟨100, 2⟩

def shouldSnapshot (r : Retention) (sequenceNr : Nat) : Bool :=
  r.every ≠ 0 ∧ sequenceNr ≠ 0 ∧ sequenceNr % r.every = 0

/-- How many events the snapshots that are kept reach back, as far as 64 bits can tell. The
last snapshot counts as kept even if none should be. -/
def window (r : Retention) : Nat := min (r.every * max r.keep 1) (UInt64.size - 1)

/-- Once a snapshot is saved at `sequenceNr`, snapshots up to here are discarded. -/
def deleteUpto (r : Retention) (sequenceNr : Nat) : Nat := sequenceNr - r.window

end Retention

end CartLedger
