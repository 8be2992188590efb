import CartLedger.OrderedMap

/-! Shards of an event stream.

Readers of all carts' events share the work by tag: each cart belongs to one of a fixed
number of shards, told by a hash of its id, and its events carry the label of that
shard. The hash is the polynomial in 31 over the UTF-16 code units of the id, in signed
32-bit arithmetic. -/
namespace CartLedger

/-- The UTF-16 code units of a character. -/
def utf16Units (c : Char) : List Nat :=
  let n := c.toNat
  if n < 0x10000 then [n]
  else [0xD800 + (n - 0x10000) / 0x400, 0xDC00 + (n - 0x10000) % 0x400]

def stringHash (s : String) : Int32 :=
  (s.toList.flatMap utf16Units).foldl (fun h u => h * 31 + Int32.ofNat u) 0

/-- Labels are a stem with the number of the shard. -/
structure Shards where
  stem : String
  count : Nat
  count_pos : 0 < count
  deriving DecidableEq

namespace Shards

/-- No shard at all counts as one. -/
def of (stem : String) (count : Nat) : Shards :=
  if h : 0 < count then ⟨stem, count, h⟩ else ⟨stem, 1, Nat.one_pos⟩

/-- The size of the hash's remainder, which its sign does not matter for. -/
def shardFor (s : Shards) (id : String) : Nat := ((stringHash id).toInt.tmod s.count).natAbs

def label (s : Shards) (shard : Nat) : String := s.stem ++ toString shard

def tagsFor (s : Shards) (id : String) : OrderedSet String := .singleton (s.label (s.shardFor id))

def allTags (s : Shards) : List String := (List.range s.count).map s.label

end Shards

end CartLedger
