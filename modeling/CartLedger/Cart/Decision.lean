import CartLedger.Cart.Basic

/-! How a cart answers commands.

A decision looks at the cart and changes nothing: it refuses, answers, or names the
event that is to happen. `apply` is what an event does to a cart, whether or not a
command could have caused it, and `replay` is a history of events. `act` decides one
command and lets its event happen at once. -/
namespace CartLedger.Cart
open CartLedger.Time (Timestamp)

inductive Effect where
  | reject (why : Rejection)
  | reply (reply : Reply)
  /-- The event is recorded first; the cart that it leaves is then acknowledged. -/
  | persist (event : Event)
  deriving DecidableEq

/-- The reply to a command that was carried out. -/
def acknowledge (c : Cart) : Reply := .accepted c.summary

def positive? (quantity : Int32) : Option UInt32 :=
  if 0 < quantity then some quantity.toUInt32 else none

def decideAdd (c : Cart) (id : String) (now : Timestamp) (item : ItemId) (quantity : Int32) :
    Effect :=
  if c.isCheckedOut then .reject .addToCheckedOut
  else if c.items.contains item then .reject .itemAlreadyAdded
  else
    match positive? quantity with
    | none => .reject .nonPositiveQuantity
    | some n => .persist (.itemAdded id item n now)

/-- Removing an absent item succeeds and leaves no trace. -/
def decideRemove (c : Cart) (id : String) (now : Timestamp) (item : ItemId) : Effect :=
  if c.isCheckedOut then .reject .removeFromCheckedOut
  else if c.items.contains item then .persist (.itemRemoved id item now)
  else .reply c.acknowledge

def decideAdjust (c : Cart) (id : String) (now : Timestamp) (item : ItemId) (quantity : Int32) :
    Effect :=
  if c.isCheckedOut then .reject .adjustCheckedOut
  else
    match positive? quantity with
    | none => .reject .nonPositiveQuantity
    | some n =>
      if c.items.contains item then .persist (.itemQuantityAdjusted id item n now)
      else .reject .itemNotFound

def decideCheckout (c : Cart) (id : String) (now : Timestamp) : Effect :=
  if c.isCheckedOut then .reject .checkoutCheckedOut
  else if c.items.isEmpty then .reject .emptyCart
  else .persist (.checkedOut id now)

/-- The effect of a command on the cart `id` at the time `now`. -/
def decide (c : Cart) (id : String) (now : Timestamp) : Command → Effect
  | .addItem item quantity => c.decideAdd id now item quantity
  | .removeItem item => c.decideRemove id now item
  | .adjustItemQuantity item quantity => c.decideAdjust id now item quantity
  | .get => .reply (.summary c.summary)
  | .checkout => c.decideCheckout id now

def apply (c : Cart) : Event → Cart
  | .itemAdded _ item quantity _ => { c with items := c.items.insert item quantity }
  | .itemQuantityAdjusted _ item quantity _ => { c with items := c.items.insert item quantity }
  | .itemRemoved _ item _ => { c with items := c.items.erase item }
  | .checkedOut _ time => { c with checkoutDate := some time }

def replay (c : Cart) (events : List Event) : Cart := events.foldl apply c

def Effect.event? : Effect → Option Event
  | .persist event => some event
  | _ => none

/-- Decides a command and carries its effect out: the cart afterwards, the event if one
happened, and the reply. -/
def act (c : Cart) (id : String) (now : Timestamp) (command : Command) :
    Cart × Option Event × Reply :=
  match c.decide id now command with
  | .reject why => (c, none, .rejected why.message)
  | .reply reply => (c, none, reply)
  | .persist event => (c.apply event, some event, (c.apply event).acknowledge)

end CartLedger.Cart
