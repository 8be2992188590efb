import CartLedger.Cart.Decision
import CartLedger.Text.Quoted

/-! How an effect is shown to somebody who debugs: constructor names with their fields. -/
namespace CartLedger.Cart
open CartLedger.Time (Timestamp)
open CartLedger.Text

/-- `Name \x7b field: value, … \x7d`, with two dots for what is left out. -/
def shownFields (name : String) (fields : List (String × String)) (more : Bool) : String :=
  let shown := fields.map fun (field, value) => field ++ ": " ++ value
  name ++ " \x7b " ++ ", ".intercalate (if more then shown ++ [".."] else shown) ++ " \x7d"

def ItemId.shown (i : ItemId) : String := "ItemId(" ++ Quoted.quote i.text ++ ")"

def basketShown (items : Basket) : String :=
  let entries := items.entries.map fun (i, n) => i.shown ++ ": " ++ toString n.toNat
  "\x7b" ++ ", ".intercalate entries ++ "\x7d"

def dateShown : Option Timestamp → String
  | none => "None"
  | some t => "Some(" ++ t.toString ++ ")"

def Summary.shown (s : Summary) : String :=
  shownFields "Summary" [("items", basketShown s.items), ("checked_out", toString s.checkedOut),
    ("checkout_date", dateShown s.checkoutDate)] false

def Event.shown : Event → String
  | .itemAdded cart item quantity time => changed "ItemAdded" cart item quantity time
  | .itemQuantityAdjusted cart item quantity time =>
    changed "ItemQuantityAdjusted" cart item quantity time
  | .itemRemoved cart item time =>
    shownFields "ItemRemoved" [("cart_id", Quoted.quote cart), ("item_id", item.shown),
      ("time", time.toString)] false
  | .checkedOut cart time =>
    shownFields "CheckedOut" [("cart_id", Quoted.quote cart), ("time", time.toString)] false
where
  changed (name cart : String) (item : ItemId) (quantity : UInt32) (time : Timestamp) : String :=
    shownFields name [("cart_id", Quoted.quote cart), ("item_id", item.shown),
      ("quantity", toString quantity.toNat), ("time", time.toString)] false

def Reply.shown : Reply → String
  | .accepted s => "Accepted(" ++ s.shown ++ ")"
  | .rejected reason => shownFields "Rejected" [("reason", Quoted.quote reason)] false
  | .summary s => "Summary(" ++ s.shown ++ ")"

def Rejection.shown : Rejection → String
  | .itemAlreadyAdded => "ItemAlreadyAdded"
  | .nonPositiveQuantity => "NonPositiveQuantity"
  | .itemNotFound => "ItemNotFound"
  | .emptyCart => "EmptyCart"
  | .addToCheckedOut => "AddToCheckedOut"
  | .removeFromCheckedOut => "RemoveFromCheckedOut"
  | .adjustCheckedOut => "AdjustCheckedOut"
  | .checkoutCheckedOut => "CheckoutCheckedOut"

def Effect.shown : Effect → String
  | .reject why => "Reject(" ++ why.shown ++ ")"
  | .reply r => "Reply(" ++ r.shown ++ ")"
  | .persist event => shownFields "PersistThenReply" [("event", event.shown)] true

end CartLedger.Cart
