import CartLedger.Cart.Decision
import CartLedger.Entity.Settings
import CartLedger.Storage.Backend

/-! Running instances of a cart.

An instance holds a cart's state and how many events are in it. It recovers both from
the latest snapshot and the events after it, and from then on answers one message at a
time. An event is recorded before it counts: when the journal refuses it, the instance
does not know how the stream goes on, so it stops without a word. -/
namespace CartLedger.Entity
open CartLedger.Cart (Command Reply Event)
open CartLedger.Storage (Backend)
open CartLedger.Time (Timestamp)

/-- Why a command is not answered. -/
inductive AskError where
  | entityGone
  /-- The instance stopped in front of the command, or over it. -/
  | noReply
  | invalidEntityId
  deriving DecidableEq, Repr

def AskError.message : AskError → String
  | .entityGone => "entity is no longer running"
  | .noReply => "entity stopped before replying"
  | .invalidEntityId => "entity id must not be empty"

/-- Why a state cannot be read. -/
inductive StateError where
  | entityGone
  deriving DecidableEq, Repr

def StateError.message : StateError → String
  | .entityGone => "entity is no longer running"

structure Instance where
  id : String
  /-- The number of the journal it writes to. -/
  journal : Nat
  settings : Settings
  cart : Cart
  sequenceNr : Nat
  running : Bool
  /-- When it was started or last heard of, in milliseconds. -/
  lastHeard : Nat

namespace Instance

def stream (i : Instance) : StreamId := .ofCart i.id

/-! ### Recovery -/

/-- Applies records that follow `sequenceNr` one by one; a record without a cart event
counts and changes nothing. -/
def catchUp (cart : Cart) (sequenceNr : Nat) : List Record → Option (Cart × Nat)
  | [] => some (cart, sequenceNr)
  | r :: rest =>
    if r.sequenceNr = sequenceNr + 1 then
      catchUp (match r.event? with | some e => cart.apply e | none => cart) (sequenceNr + 1) rest
    else none

/-- Where recovery starts: at the latest snapshot, or at the beginning if there is none to
be had. -/
def startingPoint (B : Backend σ) (id : StreamId) (s : σ) : Cart × Nat :=
  match B.loadSnapshot Cart.decoder id s with
  | .ok (some snapshot) => (snapshot.state, snapshot.sequenceNr)
  | _ => (Cart.empty, 0)

/-- The state of a cart as its stream has it; nothing if the stream cannot be read or has
a gap. -/
def recover (B : Backend σ) (id : StreamId) (s : σ) : Option (Cart × Nat) :=
  let (cart, sequenceNr) := startingPoint B id s
  match B.readFrom id (sequenceNr + 1) s with
  | .error _ => none
  | .ok records => catchUp cart sequenceNr records

/-- A new instance. One that cannot recover has stopped already. -/
def start (B : Backend σ) (id : String) (journal : Nat) (settings : Settings) (now : Nat) (s : σ) :
    Instance :=
  match recover B (.ofCart id) s with
  | some (cart, sequenceNr) => ⟨id, journal, settings, cart, sequenceNr, true, now⟩
  | none => ⟨id, journal, settings, .empty, 0, false, now⟩

/-! ### Messages -/

inductive Message where
  | ask (command : Command) (context : Context)
  | observe
  | passivate
  deriving DecidableEq

inductive Answer where
  | reply (r : Except AskError Reply)
  | state (s : Except StateError (Cart × Nat))
  /-- To a request to stop. -/
  | done

/-- How a message is answered when the instance fails in front of it. -/
def Message.abandoned : Message → Answer
  | .ask .. => .reply (.error .noReply)
  | .observe => .state (.error .entityGone)
  | .passivate => .done

/-- How a message is answered when there is no instance any more. -/
def Message.refused : Message → Answer
  | .ask .. => .reply (.error .entityGone)
  | .observe => .state (.error .entityGone)
  | .passivate => .done

/-- What an instance finds around it: the clock, and how many ids were given out. -/
structure Surroundings where
  clock : Timestamp
  issued : Nat

def entry (i : Instance) (env : Surroundings) (context : Context) : Record.Entry where
  id := .generated env.issued
  stream := i.stream
  sequenceNr := i.sequenceNr + 1
  tags := i.settings.shards.tagsFor i.id
  context := context
  time := env.clock

/-- The instance after its event was recorded. -/
def advance (i : Instance) (event : Event) : Instance :=
  { i with cart := i.cart.apply event, sequenceNr := i.sequenceNr + 1 }

/-- Saves a snapshot if one is due. That it cannot be saved does no harm. -/
def saveIfDue (B : Backend σ) (i : Instance) (s : σ) : σ :=
  if i.settings.retention.shouldSnapshot i.sequenceNr then
    (B.saveSnapshot i.stream ⟨i.cart.toJson, i.sequenceNr⟩ i.settings.retention s).2
  else s

/-- Decides a command and carries its effect out. Without a reply the instance has
stopped. -/
def ask (B : Backend σ) (env : Surroundings) (i : Instance) (command : Command) (context : Context)
    (s : σ) : Option Reply × Instance × σ :=
  match i.cart.decide i.id env.clock command with
  | .reject why => (some (.rejected why.message), i, s)
  | .reply r => (some r, i, s)
  | .persist event =>
    match B.append i.journal (Record.ofEvent (i.entry env context) event) s with
    | (.error _, s) => (none, { i with running := false }, s)
    | (.ok _, s) =>
      let i := i.advance event
      (some i.cart.acknowledge, i, saveIfDue B i s)

/-- Answers one message. A request to stop is only noted. -/
def answer (B : Backend σ) (env : Surroundings) (i : Instance) (s : σ) :
    Message → Answer × Instance × σ
  | .observe => (.state (.ok (i.cart, i.sequenceNr)), i, s)
  | .passivate => (.done, i, s)
  | .ask command context =>
    match ask B env i command context s with
    | (some r, i, s) => (.reply (.ok r), i, s)
    | (none, i, s) => (.reply (.error .noReply), i, s)

/-- Answers messages in order. After a command that could not be carried out, all that
wait are abandoned. -/
def serve (B : Backend σ) (env : Surroundings) (i : Instance) (s : σ) :
    List Message → List Answer × Instance × σ
  | [] => ([], i, s)
  | message :: rest =>
    if i.running then
      let (a, i, s) := answer B env i s message
      let (as, i, s) := serve B { env with issued := env.issued + 1 } i s rest
      (a :: as, i, s)
    else ((message :: rest).map Message.abandoned, i, s)

def Message.isPassivate : Message → Bool
  | .passivate => true
  | _ => false

/-- Hands over messages that are in the mailbox together. An instance that is asked to stop
answers what is queued behind the request, and then stops. Of no messages it does not hear. -/
def receive (B : Backend σ) (env : Surroundings) (now : Nat) (i : Instance)
    (messages : List Message) (s : σ) : List Answer × Instance × σ :=
  if i.running ∧ messages ≠ [] then
    let (answers, i, s) := serve B env { i with lastHeard := now } s messages
    (answers, { i with running := i.running && !messages.any Message.isPassivate }, s)
  else (messages.map Message.refused, i, s)

/-- An instance that has not been heard of for long enough stops. -/
def expire (now : Nat) (i : Instance) : Instance :=
  if i.lastHeard + i.settings.idle ≤ now then { i with running := false } else i

end Instance

end CartLedger.Entity
