import CartLedger.OrderedMap

/-! What is in a cart: item ids with their quantities, in the order of the ids. -/
namespace CartLedger.Cart

structure ItemId where
  text : String
  nonempty : text ≠ ""
  deriving DecidableEq

namespace ItemId

def of? (text : String) : Option ItemId :=
  if h : text = "" then none else some ⟨text, h⟩

/-- What is said of a text that names no item. -/
def emptyMessage : String := "itemId must not be empty"

instance : LT ItemId := ⟨fun a b => a.text < b.text⟩

instance (a b : ItemId) : Decidable (a < b) := inferInstanceAs (Decidable (a.text < b.text))

instance : OrderedKey ItemId where
  irrefl a := OrderedKey.irrefl a.text
  trans {a b c} h h' := OrderedKey.trans (a := a.text) (b := b.text) (c := c.text) h h'
  total {a b} h hne :=
    OrderedKey.total (a := a.text) (b := b.text) h (fun e => hne (by cases a; cases b; cases e; rfl))

end ItemId

abbrev Basket : Type := OrderedMap ItemId UInt32

end CartLedger.Cart
