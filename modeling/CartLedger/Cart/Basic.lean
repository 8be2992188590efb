import CartLedger.Cart.Basket
import CartLedger.Time.Timestamp

/-! Carts, what can be asked of them, and what can happen to them. -/
namespace CartLedger
open CartLedger.Time (Timestamp)

/-- A cart is open until it has a checkout date. -/
structure Cart where
  items : Cart.Basket
  checkoutDate : Option Timestamp
  deriving DecidableEq

namespace Cart

def empty : Cart := ⟨.empty, none⟩

def isCheckedOut (c : Cart) : Bool := c.checkoutDate.isSome

def isOpen (c : Cart) : Bool := !c.isCheckedOut

inductive Command where
  | addItem (item : ItemId) (quantity : Int32)
  | removeItem (item : ItemId)
  | adjustItemQuantity (item : ItemId) (quantity : Int32)
  | get
  | checkout
  deriving DecidableEq

inductive Event where
  | itemAdded (cart : String) (item : ItemId) (quantity : UInt32) (time : Timestamp)
  | itemRemoved (cart : String) (item : ItemId) (time : Timestamp)
  | itemQuantityAdjusted (cart : String) (item : ItemId) (quantity : UInt32) (time : Timestamp)
  | checkedOut (cart : String) (time : Timestamp)
  deriving DecidableEq

namespace Event

def cart : Event → String
  | .itemAdded cart .. => cart
  | .itemRemoved cart .. => cart
  | .itemQuantityAdjusted cart .. => cart
  | .checkedOut cart _ => cart

def time : Event → Timestamp
  | .itemAdded _ _ _ time => time
  | .itemRemoved _ _ time => time
  | .itemQuantityAdjusted _ _ _ time => time
  | .checkedOut _ time => time

end Event

structure Summary where
  items : Basket
  checkedOut : Bool
  checkoutDate : Option Timestamp
  deriving DecidableEq

def summary (c : Cart) : Summary := ⟨c.items, c.isCheckedOut, c.checkoutDate⟩

/-- Why a command is refused. -/
inductive Rejection where
  | itemAlreadyAdded
  | nonPositiveQuantity
  | itemNotFound
  | emptyCart
  | addToCheckedOut
  | removeFromCheckedOut
  | adjustCheckedOut
  | checkoutCheckedOut
  deriving DecidableEq, Repr

def Rejection.message : Rejection → String
  | .itemAlreadyAdded => "Item was already added to this shopping cart"
  | .nonPositiveQuantity => "Quantity must be greater than zero"
  | .itemNotFound => "Item not found in shopping cart"
  | .emptyCart => "Cannot checkout empty shopping cart"
  | .addToCheckedOut => "Cannot add an item to a checked-out cart"
  | .removeFromCheckedOut => "Cannot remove an item to a checked-out cart"
  | .adjustCheckedOut => "Cannot adjust item quantity in a checked-out cart"
  | .checkoutCheckedOut => "Cannot checkout a checked-out cart"

inductive Reply where
  | accepted (summary : Summary)
  | rejected (reason : String)
  | summary (summary : Summary)
  deriving DecidableEq

namespace Reply

def rejectionReason? : Reply → Option String
  | .rejected reason => some reason
  | _ => none

def summary? : Reply → Option Summary
  | .accepted s => some s
  | .summary s => some s
  | .rejected _ => none

end Reply

end Cart

end CartLedger
