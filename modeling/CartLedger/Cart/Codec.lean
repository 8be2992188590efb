import CartLedger.Cart.Basic
import CartLedger.Json.Decoder

/-! Carts, commands, events and replies as JSON. -/
namespace CartLedger.Cart
open CartLedger.Json (Decoder Fault)
open CartLedger.Json.Decoder (Variant Field field required optional record objectOnly tagged unit)
open CartLedger.Time (Timestamp)

/-! ### Writing -/

def timestampJson (t : Timestamp) : Json := .text t.toString

def dateJson : Option Timestamp → Json
  | none => .null
  | some t => timestampJson t

def basketJson (items : Basket) : Json :=
  .object (items.entries.map fun (item, quantity) => (item.text, .natural quantity.toNat))

def toJson (c : Cart) : Json :=
  .object [("items", basketJson c.items), ("checkout_date", dateJson c.checkoutDate)]

def taggedJson (name : String) (members : List (String × Json)) : Json :=
  .object [("type", .text name), ("data", .object members)]

def Command.toJson : Command → Json
  | .addItem item quantity =>
    taggedJson "AddItem" [("item_id", .text item.text), ("quantity", .integer quantity.toInt)]
  | .removeItem item => taggedJson "RemoveItem" [("item_id", .text item.text)]
  | .adjustItemQuantity item quantity =>
    taggedJson "AdjustItemQuantity" [("item_id", .text item.text), ("quantity", .integer quantity.toInt)]
  | .get => .object [("type", .text "Get")]
  | .checkout => .object [("type", .text "Checkout")]

def Event.typeName : Event → String
  | .itemAdded .. => "ItemAdded"
  | .itemRemoved .. => "ItemRemoved"
  | .itemQuantityAdjusted .. => "ItemQuantityAdjusted"
  | .checkedOut .. => "CheckedOut"

def Event.data : Event → List (String × Json)
  | .itemAdded cart item quantity time =>
    [("cart_id", .text cart), ("item_id", .text item.text), ("quantity", .natural quantity.toNat),
      ("time", timestampJson time)]
  | .itemRemoved cart item time =>
    [("cart_id", .text cart), ("item_id", .text item.text), ("time", timestampJson time)]
  | .itemQuantityAdjusted cart item quantity time =>
    [("cart_id", .text cart), ("item_id", .text item.text), ("quantity", .natural quantity.toNat),
      ("time", timestampJson time)]
  | .checkedOut cart time => [("cart_id", .text cart), ("time", timestampJson time)]

def Event.toJson (e : Event) : Json := taggedJson e.typeName e.data

def Summary.members (s : Summary) : List (String × Json) :=
  [("items", basketJson s.items), ("checked_out", .bool s.checkedOut),
    ("checkout_date", dateJson s.checkoutDate)]

def Summary.toJson (s : Summary) : Json := .object s.members

def Reply.toJson : Reply → Json
  | .accepted s => taggedJson "Accepted" s.members
  | .rejected reason => taggedJson "Rejected" [("reason", .text reason)]
  | .summary s => taggedJson "Summary" s.members

/-! ### Reading -/

def timestamp : Decoder Timestamp := fun d => do
  let s ← Decoder.text d
  match Timestamp.ofString? s with
  | some t => .ok t
  | none => .error .malformed

def itemOf (s : String) : Except Fault ItemId :=
  match ItemId.of? s with
  | some item => .ok item
  | none => .error .emptyItemId

def item : Decoder ItemId := fun d => do
  let s ← Decoder.text d
  itemOf s

/-- The entries of a basket, one after another; of entries for one item the last counts. -/
def basketEntries (kept : Basket) : List Json.Draft.Member → Except Fault Basket
  | [] => .ok kept
  | (none, _) :: _ => .error .malformed
  | (some key, v) :: rest => do
    let item ← itemOf key
    let quantity ← Decoder.word32 v
    basketEntries (kept.insert item quantity) rest

def basket : Decoder Basket
  | .object members => basketEntries .empty members
  | _ => .error .malformed

def decoder : Decoder Cart :=
  record [field "items" basket, field "checkout_date" (Decoder.option timestamp)] fun ms => do
    let items ← required "items" basket ms
    let date ← optional "checkout_date" timestamp ms
    return ⟨items, date⟩

def quantified (quantity : Decoder α) (build : ItemId → α → β) : Decoder β :=
  objectOnly [field "item_id" item, field "quantity" quantity] fun ms => do
    let i ← required "item_id" item ms
    let n ← required "quantity" quantity ms
    return build i n

def Command.decoder : Decoder Command := tagged [
  { name := "AddItem", body := quantified Decoder.signed32 .addItem },
  { name := "RemoveItem"
    body := objectOnly [field "item_id" item] fun ms => return .removeItem (← required "item_id" item ms) },
  { name := "AdjustItemQuantity", body := quantified Decoder.signed32 .adjustItemQuantity },
  unit "Get" .get,
  unit "Checkout" .checkout]

def changedItem (build : String → ItemId → UInt32 → Timestamp → Event) : Decoder Event :=
  objectOnly
    [field "cart_id" Decoder.text, field "item_id" item, field "quantity" Decoder.word32,
      field "time" timestamp] fun ms => do
    let cart ← required "cart_id" Decoder.text ms
    let i ← required "item_id" item ms
    let n ← required "quantity" Decoder.word32 ms
    let time ← required "time" timestamp ms
    return build cart i n time

def Event.decoder : Decoder Event := tagged [
  { name := "ItemAdded", body := changedItem .itemAdded },
  { name := "ItemRemoved"
    body := objectOnly [field "cart_id" Decoder.text, field "item_id" item, field "time" timestamp]
      fun ms => do
        let cart ← required "cart_id" Decoder.text ms
        let i ← required "item_id" item ms
        let time ← required "time" timestamp ms
        return .itemRemoved cart i time },
  { name := "ItemQuantityAdjusted", body := changedItem .itemQuantityAdjusted },
  { name := "CheckedOut"
    body := objectOnly [field "cart_id" Decoder.text, field "time" timestamp] fun ms => do
      let cart ← required "cart_id" Decoder.text ms
      let time ← required "time" timestamp ms
      return .checkedOut cart time }]

def Summary.decoder : Decoder Summary :=
  record [field "items" basket, field "checked_out" Decoder.flag,
    field "checkout_date" (Decoder.option timestamp)] fun ms => do
    let items ← required "items" basket ms
    let checkedOut ← required "checked_out" Decoder.flag ms
    let date ← optional "checkout_date" timestamp ms
    return ⟨items, checkedOut, date⟩

def Reply.decoder : Decoder Reply := tagged [
  { name := "Accepted", body := fun d => (Summary.decoder d).map .accepted },
  { name := "Rejected"
    body := objectOnly [field "reason" Decoder.text] fun ms =>
      return .rejected (← required "reason" Decoder.text ms) },
  { name := "Summary", body := fun d => (Summary.decoder d).map .summary }]

end CartLedger.Cart
