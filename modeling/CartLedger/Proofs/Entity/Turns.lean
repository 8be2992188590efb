import CartLedger.Proofs.Entity.Moves

/-! What can be done around a storage, step by step or otherwise.

Steps are what callers do through stores and handles. They may also have a store hand out an
instance and say nothing to it, and the storage is open to others. A sequence of turns is a
history in which all of that may happen. -/
namespace CartLedger.Entity
open CartLedger.Storage (Backend)
open Instance (Answer)

variable {σ : Type} (B : Backend σ)

namespace World

/-- A store hands out the instance that it has for an id, and it is kept if there is a name. -/
def handOut (w : World σ) (s : Nat) (id : String) (name : Option String) : Option Nat × World σ :=
  match w.stores[s]? with
  | none => (none, w)
  | some st =>
    if id = "" then (none, w)
    else
      let out := w.obtain B s st id
      (some out.1, match name with
        | some name => out.2.keep name out.1
        | none => out.2)

theorem handOut_moves (w : World σ) (s : Nat) (id : String) (name : Option String) :
    Moves B w (w.handOut B s id name).2 := by
  unfold World.handOut
  split
  · exact .refl
  · next st hst =>
    split
    · exact .refl
    · have hobtain : Moves B w (w.obtain B s st id).2 := obtain_moves hst id
      cases name with
      | none => exact hobtain
      | some name => exact hobtain.tail (.setKept _ _)

end World

/-- What is done in a world. -/
inductive Turn (σ : Type) where
  | step (step : Step)
  /-- A store hands out an instance, which is sent nothing. -/
  | obtain (store : Nat) (id : String) (name : Option String)
  /-- Somebody else does something to the storage. -/
  | meddle (change : σ → σ)

namespace Turn

def act (w : World σ) : Turn σ → List Answer × World σ
  | .step taken => w.act B taken
  | .obtain s id name => ([], (w.handOut B s id name).2)
  | .meddle change => ([], { w with storage := change w.storage })

/-- The world after turns, one after another. -/
def after (w : World σ) : List (Turn σ) → World σ
  | [] => w
  | turn :: rest => after (turn.act B w).2 rest

theorem after_concat (w : World σ) (turns : List (Turn σ)) (turn : Turn σ) :
    after B w (turns ++ [turn]) = (turn.act B (after B w turns)).2 := by
  induction turns generalizing w with
  | nil => rfl
  | cons first rest ih => exact ih _

end Turn

end CartLedger.Entity
