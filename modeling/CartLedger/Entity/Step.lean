import CartLedger.Entity.World

/-! What callers do in a world, one step after another.

A step is a value, so that a history is a list of steps; `World.run` carries one out.
Nothing happens between steps: instances answer what they are sent within the step, and
time passes when it is told to. -/
namespace CartLedger.Entity
open CartLedger.Cart (Command)
open CartLedger.Storage (Backend)
open CartLedger.Time (Timestamp)
open Instance (Message Answer)

inductive Step where
  | setClock (time : Timestamp)
  /-- Asks the instance that a store has for an id. -/
  | ask (store : Nat) (id : String) (command : Command) (context : Context)
  /-- Observes the instance that a store has for an id, and keeps it if there is a name. -/
  | observe (store : Nat) (id : String) (name : Option String)
  /-- Starts, keeps and observes an instance that no store knows of. It writes to a
  journal of its own and is run like the instances of a store. -/
  | spawn (store : Nat) (id : String) (name : String)
  /-- Sends messages to an instance that is kept, all at once. Those that find no slot in its
  mailbox wait for one. -/
  | send (name : String) (messages : List Message)
  | forget (name : String)
  | passivateAll (store : Nat)
  | restart (store : Nat)
  | sleep (ms : Nat)
  /-- The storage stops taking records, or takes them again. -/
  | setFailing (failing : Bool)
  deriving DecidableEq

namespace World
variable {σ : Type} (B : Backend σ)

/-- Sends the first messages to an instance that a store has for an id. No instance has an
empty id. -/
def sendThrough (w : World σ) (s : Nat) (id : String) (name : Option String) (message : Message) :
    List Answer × World σ :=
  match w.stores[s]? with
  | none => ([message.refused], w)
  | some st =>
    if id = "" then ([.reply (.error .invalidEntityId)], w)
    else
      let (i, w) := w.obtain B s st id
      let w := match name with
        | some name => w.keep name i
        | none => w
      w.sendFirst B i [message]

/-- Starts an instance aside from the stores. -/
def spawn (w : World σ) (st : Store) (id : String) (name : String) : List Answer × World σ :=
  let (journal, storage) := B.openJournal w.storage
  let (i, w) := { w with storage := storage }.start B id journal st.settings
  (w.keep name i).sendFirst B i [.observe]

/-- Something that is done to a store and has no answer. -/
def withStore (w : World σ) (s : Nat) (change : Store → World σ) : List Answer × World σ :=
  ([], match w.stores[s]? with
    | some st => change st
    | none => w)

/-- Carries out a step: the answers it gives, and the world afterwards. -/
def act (w : World σ) : Step → List Answer × World σ
  | .setClock time => ([], { w with clock := time })
  | .ask s id command context => w.sendThrough B s id none (.ask command context)
  | .observe s id name => w.sendThrough B s id name .observe
  | .spawn s id name =>
    match w.stores[s]? with
    | some st => w.spawn B st id name
    | none => ([Message.observe.refused], w)
  | .send name messages =>
    match w.named? name with
    | some i => w.sendAll B i messages
    | none => (messages.map Message.refused, w)
  | .forget name => ([], w.forget name)
  | .passivateAll s => w.withStore s (w.passivateAll s)
  | .restart s => w.withStore s (w.restart B s)
  | .sleep ms => ([], w.sleep ms)
  | .setFailing failing => ([], { w with storage := B.setFailing failing w.storage })

/-- Carries out steps in order. -/
def run (w : World σ) : List Step → List (List Answer) × World σ
  | [] => ([], w)
  | step :: rest =>
    let (answers, w) := w.act B step
    let (more, w) := w.run rest
    (answers :: more, w)

theorem run_append (w : World σ) (a b : List Step) :
    w.run B (a ++ b) =
      ((w.run B a).1 ++ ((w.run B a).2.run B b).1, ((w.run B a).2.run B b).2) := by
  induction a generalizing w with
  | nil => rfl
  | cons step rest ih => simp only [List.cons_append, run, ih]

end World

end CartLedger.Entity
