import CartLedger.Record.Basic
import CartLedger.Retention
import CartLedger.Shards
import CartLedger.Text.Quoted

/-! How instances of carts are run. -/
namespace CartLedger.Entity

structure Settings where
  /-- Milliseconds without a message after which an instance stops. -/
  idle : Nat
  retention : Retention
  shards : Shards
  /-- How many messages may wait at an instance; more of them wait for a slot outside. -/
  mailbox : Nat
  deriving DecidableEq

namespace Settings

def tagStem : String := "ShoppingCartEvent"

def cartShards (count : Nat) : Shards := .of tagStem count

def standard : Settings := ⟨300000, .standard, cartShards 10, 32⟩

/-- The slots of a mailbox. It has one at least. -/
def slots (s : Settings) : Nat := max s.mailbox 1

/-- How often the mailbox is filled when so many messages come at once. -/
def fillings (s : Settings) (messages : Nat) : Nat := (messages + s.slots - 1) / s.slots

/-! ### Shown to somebody who debugs -/

/-- A fraction of a second without trailing zeros. -/
def thousandths (n : Nat) : String :=
  let ds := (Text.Decimal.padded 3 n).reverse.dropWhile (· = '0')
  if ds.isEmpty then "" else String.ofList ('.' :: ds.reverse)

def durationShown (ms : Nat) : String :=
  if ms = 0 then "0ns"
  else if ms < 1000 then toString ms ++ "ms"
  else toString (ms / 1000) ++ thousandths (ms % 1000) ++ "s"

def retentionShown (r : Retention) : String :=
  "RetentionCriteria \x7b snapshot_every: " ++ toString r.every ++ ", keep_snapshots: " ++
    toString r.keep ++ " \x7d"

def shardsShown (s : Shards) : String :=
  "ShardTagger \x7b prefix: " ++ Text.Quoted.quote s.stem ++ ", shards: " ++ toString s.count ++ " \x7d"

def shown (s : Settings) : String :=
  "EntityConfig \x7b idle_timeout: " ++ durationShown s.idle ++ ", retention: " ++
    retentionShown s.retention ++ ", tagger: " ++ shardsShown s.shards ++
    ", mailbox_capacity: " ++ toString s.mailbox ++ ", .. \x7d"

def storeShown (s : Settings) : String :=
  "EntityStore \x7b aggregate_type: " ++ Text.Quoted.quote StreamId.cartType ++ ", config: " ++
    s.shown ++ ", .. \x7d"

end Settings

end CartLedger.Entity
