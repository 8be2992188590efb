import CartLedger.Entries

/-! Finite maps kept in ascending key order.

Carts, tag sets and kept snapshots are all shown in key order, so the order is part
of the type: an `OrderedMap` is its list of entries with strictly ascending keys.
Two maps with the same lookups are therefore the same list, and what an operation does
is said through `get?` alone. -/
namespace CartLedger

/-- What a key order owes: no key precedes itself, precedence is transitive, and of
two distinct keys one precedes the other. -/
class OrderedKey (κ : Type) [LT κ] : Prop where
  irrefl : ∀ a : κ, ¬ a < a
  trans : ∀ {a b c : κ}, a < b → b < c → a < c
  total : ∀ {a b : κ}, ¬ a < b → a ≠ b → b < a

instance : OrderedKey Nat where
  irrefl := Nat.lt_irrefl
  trans := Nat.lt_trans
  total h hne := Nat.lt_of_le_of_ne (Nat.le_of_not_lt h) (Ne.symm hne)

instance : OrderedKey String where
  irrefl := String.lt_irrefl
  trans := String.lt_trans
  total h hne := by
    rcases Std.lt_trichotomy (α := String) _ _ with h' | h' | h'
    · exact absurd h' h
    · exact absurd h' hne
    · exact h'

/-! ### Entries -/

namespace Entries
variable {κ ν : Type} [LT κ] [DecidableLT κ] [DecidableEq κ]

/-- Puts an entry in its place, in front of the first later key; an entry of the
same key is replaced. -/
def put (k : κ) (v : ν) : List (κ × ν) → List (κ × ν)
  | [] => [(k, v)]
  | (k', v') :: rest =>
    if k < k' then (k, v) :: (k', v') :: rest
    else if k = k' then (k, v) :: rest
    else (k', v') :: put k v rest

def Ascending (entries : List (κ × ν)) : Prop :=
  entries.Pairwise (fun a b => a.1 < b.1)

omit [DecidableLT κ] [DecidableEq κ] in
theorem ascending_nil : Ascending ([] : List (κ × ν)) := List.Pairwise.nil

theorem mem_put {k : κ} {v : ν} {entries : List (κ × ν)} {e : κ × ν} (h : e ∈ put k v entries) :
    e = (k, v) ∨ e ∈ entries := by
  induction entries with
  | nil => simpa [put] using h
  | cons head rest ih =>
    simp only [put] at h
    split at h
    · simpa using h
    · split at h
      · rcases List.mem_cons.1 h with h | h
        · exact .inl h
        · exact .inr (List.mem_cons_of_mem _ h)
      · rcases List.mem_cons.1 h with h | h
        · exact .inr (h ▸ List.mem_cons_self ..)
        · exact (ih h).imp id (List.mem_cons_of_mem _)

theorem ascending_put [OrderedKey κ] (k : κ) (v : ν) {entries : List (κ × ν)}
    (h : Ascending entries) : Ascending (put k v entries) := by
  induction entries with
  | nil => exact List.pairwise_singleton _ _
  | cons head rest ih =>
    obtain ⟨hhead, hrest⟩ := List.pairwise_cons.1 h
    simp only [put]
    split
    · rename_i hlt
      refine List.pairwise_cons.2 ⟨fun e he => ?_, h⟩
      rcases List.mem_cons.1 he with rfl | he
      · exact hlt
      · exact OrderedKey.trans hlt (hhead e he)
    · rename_i hnlt
      split
      · rename_i heq
        exact List.pairwise_cons.2 ⟨fun e he => heq ▸ hhead e he, hrest⟩
      · rename_i hne
        refine List.pairwise_cons.2 ⟨fun e he => ?_, ih hrest⟩
        rcases mem_put he with rfl | he
        · exact OrderedKey.total hnlt hne
        · exact hhead e he

end Entries

/-! ### Maps -/

structure OrderedMap (κ ν : Type) [LT κ] where
  entries : List (κ × ν)
  ascending : Entries.Ascending entries := by exact List.Pairwise.nil

namespace OrderedMap
variable {κ ν : Type} [LT κ] [DecidableLT κ] [DecidableEq κ]

instance [DecidableEq ν] : DecidableEq (OrderedMap κ ν) := fun a b =>
  if h : a.entries = b.entries then .isTrue (by cases a; cases b; cases h; rfl)
  else .isFalse (fun e => h (e ▸ rfl))

omit [DecidableLT κ] [DecidableEq κ] in
def empty : OrderedMap κ ν := ⟨[], Entries.ascending_nil⟩

omit [DecidableLT κ] in
def get? (m : OrderedMap κ ν) (k : κ) : Option ν := Entries.find? k m.entries

omit [DecidableLT κ] in
def contains (m : OrderedMap κ ν) (k : κ) : Bool :=
  m.entries.any (fun e => e.1 = k)

def isEmpty (m : OrderedMap κ ν) : Bool := m.entries.isEmpty

def keys (m : OrderedMap κ ν) : List κ := m.entries.map (·.1)

def insert [OrderedKey κ] (m : OrderedMap κ ν) (k : κ) (v : ν) : OrderedMap κ ν :=
  ⟨Entries.put k v m.entries, Entries.ascending_put k v m.ascending⟩

/-- The entries that satisfy `p`. -/
def filter (m : OrderedMap κ ν) (p : κ → Bool) : OrderedMap κ ν :=
  ⟨m.entries.filter (fun e => p e.1), List.Pairwise.filter _ m.ascending⟩

def erase (m : OrderedMap κ ν) (k : κ) : OrderedMap κ ν := m.filter (· ≠ k)

/-- The entry with the greatest key. -/
def last? (m : OrderedMap κ ν) : Option (κ × ν) := m.entries.getLast?

/-- The map that inserting the pairs one after another leaves: of equal keys the
last one counts. -/
def ofList [OrderedKey κ] (pairs : List (κ × ν)) : OrderedMap κ ν :=
  pairs.foldl (fun m e => m.insert e.1 e.2) empty

end OrderedMap

/-! ### Sets -/

/-- A set in ascending order. -/
abbrev OrderedSet (κ : Type) [LT κ] : Type := OrderedMap κ Unit

namespace OrderedSet
variable {κ : Type} [LT κ] [DecidableLT κ] [DecidableEq κ] [OrderedKey κ]

def ofList (members : List κ) : OrderedSet κ := OrderedMap.ofList (members.map (·, ()))

def singleton (k : κ) : OrderedSet κ := ofList [k]

def toList (s : OrderedSet κ) : List κ := s.keys

end OrderedSet

end CartLedger
