import CartLedger.Json.Value
import CartLedger.Record.EventId
import CartLedger.Time.Timestamp

/-! Recorded events.

A record is an event as a journal keeps it: its type and its data as plain JSON, the
stream it belongs to and its number there, and who asked for it when. The journal never
looks into the data. -/
namespace CartLedger
open CartLedger.Time (Timestamp)

/-- Which stream: the type of an entity, and its id among those of its type. -/
structure StreamId where
  entityType : String
  entityId : String
  deriving DecidableEq, Repr

namespace StreamId

def cartType : String := "ShoppingCart"

def ofCart (id : String) : StreamId := ⟨cartType, id⟩

def shown (s : StreamId) : String := s.entityType ++ "|" ++ s.entityId

end StreamId

/-- Who asks, as far as known. -/
structure Context where
  actor : Option String
  correlationId : Option String
  deriving DecidableEq, Repr

def Context.anonymous : Context := ⟨none, none⟩

structure Record.Metadata where
  entityType : String
  entityId : String
  actor : Option String
  correlationId : Option String
  deriving DecidableEq, Repr

structure Record where
  eventId : Record.EventId
  stream : StreamId
  sequenceNr : Nat
  eventType : String
  payload : Json
  tags : OrderedSet String
  metadata : Record.Metadata
  recordedAt : Timestamp

end CartLedger
