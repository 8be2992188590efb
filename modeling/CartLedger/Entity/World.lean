import CartLedger.Entity.Instance

/-! Stores, instances and journals over one storage.

A world is everything that acts on one storage: journals that were opened on it, stores
that hand out instances by id, the instances themselves, and names under which callers
keep instances.

A store hands out the instance it last started for an id as long as that runs, and
starts another one when it does not. Instances that somebody else started for the same
id are not its concern: what keeps them apart is the numbering of the stream. -/
namespace CartLedger.Entity
open CartLedger.Storage (Backend)
open CartLedger.Time (Timestamp)
open Instance (Message Answer)

/-- A store of carts: how it runs them, where it writes, and which instance it last
started for each id. -/
structure Store where
  settings : Settings
  journal : Nat
  started : List (String × Nat)

namespace Store

def fresh (settings : Settings) (journal : Nat) : Store := ⟨settings, journal, []⟩

def instance? (st : Store) (id : String) : Option Nat :=
  Entries.find? id st.started

def enter (st : Store) (id : String) (i : Nat) : Store :=
  { st with started := Entries.set id i st.started }

end Store

structure World (σ : Type) where
  storage : σ
  clock : Timestamp
  /-- Milliseconds since the beginning. -/
  elapsed : Nat
  /-- How many event ids were given out. -/
  issued : Nat
  /-- Every instance that was ever started; numbers refer to this list. -/
  instances : List Instance
  /-- Journals opened by callers. -/
  journals : List Nat
  stores : List Store
  /-- Instances that callers keep, by name. -/
  kept : List (String × Nat)

namespace World
variable {σ : Type} (B : Backend σ)

/-! ### Beginning -/

def openJournals : Nat → σ → List Nat × σ
  | 0, s => ([], s)
  | n + 1, s =>
    let (journal, s) := B.openJournal s
    let (journals, s) := openJournals n s
    (journal :: journals, s)

/-- A world with so many journals for callers, and so many stores with one each. -/
def begin (storage : σ) (clock : Timestamp) (settings : Settings) (journals stores : Nat) : World σ :=
  let (callers, storage) := openJournals B journals storage
  let (own, storage) := openJournals B stores storage
  { storage := storage
    clock := clock
    elapsed := 0
    issued := 0
    instances := []
    journals := callers
    stores := own.map (Store.fresh settings)
    kept := [] }

/-- Puts a newly opened journal in the place of one of the callers'. -/
def reopen (w : World σ) (j : Nat) : World σ :=
  let (journal, storage) := B.openJournal w.storage
  { w with storage := storage, journals := w.journals.set j journal }

/-! ### Instances -/

def isRunning (w : World σ) (i : Nat) : Bool :=
  match w.instances[i]? with
  | some inst => inst.running
  | none => false

/-- Starts an instance and says its number. -/
def start (w : World σ) (id : String) (journal : Nat) (settings : Settings) : Nat × World σ :=
  let inst := Instance.start B id journal settings w.elapsed w.storage
  (w.instances.length, { w with instances := w.instances ++ [inst] })

/-- Sends messages to an instance, all at once. Every one of them finds a slot in its mailbox. -/
def send (w : World σ) (i : Nat) (messages : List Message) : List Answer × World σ :=
  match w.instances[i]? with
  | none => (messages.map Message.refused, w)
  | some inst =>
    let (answers, inst, storage) :=
      inst.receive B ⟨w.clock, w.issued⟩ w.elapsed messages w.storage
    (answers, { w with
      storage := storage
      issued := w.issued + messages.length
      instances := w.instances.set i inst })

/-- Sends messages to an instance, `slots` of them at a time. The others wait outside until
these have been answered. -/
def sendInTurns (w : World σ) (i slots : Nat) : Nat → List Message → List Answer × World σ
  | 0, _ => ([], w)
  | turns + 1, messages =>
    let (answers, w) := w.send B i (messages.take slots)
    let (more, w) := w.sendInTurns i slots turns (messages.drop slots)
    (answers ++ more, w)

/-- Sends messages to an instance as its mailbox takes them. When the instance stops, what is in
the mailbox is answered or abandoned, and what waits for a slot is refused.

A slot is free again as soon as the message in it is taken, and who waits may get hold of it
before the instance goes on or not, as the scheduler has it. Here the mailbox is filled again
when it is empty: when an instance stops, all who still wait outside are refused. -/
def sendAll (w : World σ) (i : Nat) (messages : List Message) : List Answer × World σ :=
  match w.instances[i]? with
  | none => (messages.map Message.refused, w)
  | some inst =>
    w.sendInTurns B i inst.settings.slots (inst.settings.fillings messages.length) messages

/-- Sends messages to an instance that was handed out just now; every one of them finds a slot
in its mailbox. If the instance could not recover, they had been queued before it knew. -/
def sendFirst (w : World σ) (i : Nat) (messages : List Message) : List Answer × World σ :=
  if w.isRunning i then w.send B i messages else (messages.map Message.abandoned, w)

def stop (w : World σ) (i : Nat) : World σ :=
  match w.instances[i]? with
  | none => w
  | some inst => { w with instances := w.instances.set i { inst with running := false } }

/-! ### Stores -/

/-- Starts an instance for a store, which hands it out from now on. -/
def startFor (w : World σ) (s : Nat) (st : Store) (id : String) : Nat × World σ :=
  let (i, w) := w.start B id st.journal st.settings
  (i, { w with stores := w.stores.set s (st.enter id i) })

/-- The running instance that a store has for an id, started if need be. -/
def obtain (w : World σ) (s : Nat) (st : Store) (id : String) : Nat × World σ :=
  match (st.instance? id).filter w.isRunning with
  | some i => (i, w)
  | none => w.startFor B s st id

/-- The ids for which a store has a running instance, in order. -/
def live (w : World σ) (st : Store) : List String :=
  ((st.started.filter fun e => w.isRunning e.2).map (·.1)).mergeSort (fun a b => a ≤ b)

/-- Stops every instance that a store has. -/
def passivateAll (w : World σ) (s : Nat) (st : Store) : World σ :=
  let w := st.started.foldl (fun w e => w.stop e.2) w
  { w with stores := w.stores.set s (.fresh st.settings st.journal) }

/-- Puts a new store in the place of one. Instances that callers keep run on. -/
def restart (w : World σ) (s : Nat) (st : Store) : World σ :=
  let (journal, storage) := B.openJournal w.storage
  { w with storage := storage, stores := w.stores.set s (.fresh st.settings journal) }

/-- Lets time pass. Instances that are not heard of for too long stop. -/
def sleep (w : World σ) (ms : Nat) : World σ :=
  let now := w.elapsed + ms
  { w with elapsed := now, instances := w.instances.map (Instance.expire now) }

/-! ### Names -/

def named? (w : World σ) (name : String) : Option Nat := Entries.find? name w.kept

def forget (w : World σ) (name : String) : World σ :=
  { w with kept := Entries.erase name w.kept }

def keep (w : World σ) (name : String) (i : Nat) : World σ :=
  { w with kept := Entries.set name i w.kept }

end World

end CartLedger.Entity
