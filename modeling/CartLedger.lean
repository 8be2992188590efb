import CartLedger.Cart.Basic
import CartLedger.Cart.Basket
import CartLedger.Cart.Codec
import CartLedger.Cart.Decision
import CartLedger.Cart.Display
import CartLedger.Entity.Instance
import CartLedger.Entity.Settings
import CartLedger.Entity.Step
import CartLedger.Entity.World
import CartLedger.Entries
import CartLedger.Journal.Durable
import CartLedger.Journal.Numbering
import CartLedger.Journal.Volatile
import CartLedger.Json.Binary64
import CartLedger.Json.Decoder
import CartLedger.Json.Draft
import CartLedger.Json.Printer
import CartLedger.Json.Reader
import CartLedger.Json.Value
import CartLedger.OrderedMap
import CartLedger.OrderedMap.Lemmas
import CartLedger.Record.Basic
import CartLedger.Record.Codec
import CartLedger.Record.EventId
import CartLedger.Retention
import CartLedger.Shards
import CartLedger.Snapshot.Basic
import CartLedger.Snapshot.Durable
import CartLedger.Snapshot.Volatile
import CartLedger.Storage.Backend
import CartLedger.Storage.Disk
import CartLedger.Storage.Error
import CartLedger.Storage.Layout
import CartLedger.Storage.Registry
import CartLedger.Text.Decimal
import CartLedger.Text.Lines
import CartLedger.Text.Quoted
import CartLedger.Text.Unprintable
import CartLedger.Text.Utf8
import CartLedger.Time.Date
import CartLedger.Time.Timestamp
import CartLedger.Proofs.Json.Strings
import CartLedger.Proofs.Text.Lines
import CartLedger.Proofs.Text.Utf8
import CartLedger.Proofs.Json.Rendering
import CartLedger.Proofs.Json.Printing
import CartLedger.Proofs.Record.EventId
import CartLedger.Proofs.Time.Timestamp
import CartLedger.Proofs.Time.Instant
import CartLedger.Proofs.Cart.Codec
import CartLedger.Proofs.Record.Codec
import CartLedger.Proofs.Storage.Disk
import CartLedger.Proofs.Storage.Layout
import CartLedger.Proofs.Storage.Registry
import CartLedger.Proofs.Journal.Numbering
import CartLedger.Proofs.Journal.StreamFile
import CartLedger.Proofs.Journal.Volatile
import CartLedger.Proofs.Journal.Durable
import CartLedger.Proofs.Journal.Listing
import CartLedger.Proofs.Journal.Refinement
import CartLedger.Proofs.Snapshot.Codec
import CartLedger.Proofs.Snapshot.Volatile
import CartLedger.Proofs.Snapshot.Durable
import CartLedger.Proofs.Storage.Backend
import CartLedger.Proofs.Entity.Recovery
import CartLedger.Proofs.Entity.Instance
import CartLedger.Proofs.Entity.World
import CartLedger.Proofs.Entity.SplitBrain
import CartLedger.Proofs.Entity.Transparency
import CartLedger.Proofs.Snapshot.Damage
import CartLedger.Proofs.Entity.LostSnapshots
import CartLedger.Proofs.Cart.Histories
import CartLedger.Proofs.Retention
import CartLedger.Proofs.Snapshot.Names
import CartLedger.Proofs.Snapshot.Shelf
import CartLedger.Proofs.Storage.Shelving
import CartLedger.Proofs.Entity.Retained
import CartLedger.Proofs.Journal.Holding
import CartLedger.Proofs.Journal.Alike
import CartLedger.Proofs.Journal.Queries
import CartLedger.Proofs.Journal.TornWrites
import CartLedger.Proofs.Journal.RoundTrip
import CartLedger.Proofs.Entity.Moves
import CartLedger.Proofs.Shards
import CartLedger.Proofs.Storage.Searching
import CartLedger.Proofs.Entity.TagStreams
import CartLedger.Proofs.Snapshot.Agreement
import CartLedger.Proofs.Entity.ClosedStreams
import CartLedger.Proofs.Entity.Checkout
import CartLedger.Proofs.Journal.Bookkeeping
import CartLedger.Proofs.Entity.Origins
import CartLedger.Proofs.Entity.Lifetimes
import CartLedger.Proofs.Entity.Batches
import CartLedger.Proofs.Entity.LiveSet
import CartLedger.Proofs.Storage.Confinement
import CartLedger.Proofs.Journal.TailReads
import CartLedger.Proofs.Entity.ContiguousTails
import CartLedger.Proofs.Json.Canonical
import CartLedger.Proofs.Cart.Messages
import CartLedger.Proofs.Encodings
import CartLedger.Proofs.Snapshot.Saving
import CartLedger.Proofs.Entity.Confinement
import CartLedger.Proofs.Cart.Reachable
import CartLedger.Proofs.Storage.Entering
import CartLedger.Proofs.Journal.Registration
import CartLedger.Proofs.Snapshot.Spellings
import CartLedger.Proofs.Json.Glued
import CartLedger.Proofs.Storage.TornRegistry
import CartLedger.Proofs.Cart.LastWriter
import CartLedger.Proofs.Cart.Interleaving
import CartLedger.Proofs.Record.Tagged
import CartLedger.Proofs.Json.Standing
import CartLedger.Proofs.Json.Shape
import CartLedger.Proofs.Json.Choice
import CartLedger.Proofs.Cart.Reading
import CartLedger.Proofs.Decoding
import CartLedger.Proofs.Shards.Hash
import CartLedger.Proofs.Snapshot.Listing
