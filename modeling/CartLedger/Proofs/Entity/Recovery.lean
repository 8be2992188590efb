import CartLedger.Entity.Instance
import CartLedger.Proofs.Storage.Backend

/-! What an instance recovers.

A storage is `Healthy` when every record of every stream holds an event, and every
snapshot that may be loaded is what replaying the first so many events gives. Then it does
not matter which snapshot is loaded, if any: what recovery comes to is the replay of the
whole stream (`recover_eq`). -/
namespace CartLedger.Entity
open CartLedger.Journal (Numbered)
open CartLedger.Storage (Backend View Correct Unchanged)

/-! ### Histories -/

/-- The events that records hold. -/
def history (rs : List Record) : List Cart.Event := rs.filterMap Record.event?

/-- Every record holds an event. -/
def Legible (rs : List Record) : Prop := ∀ r ∈ rs, r.event?.isSome

/-- The cart after the first `k` of the recorded events. -/
def cartAt (rs : List Record) (k : Nat) : Cart := Cart.replay .empty (history (rs.take k))

theorem history_append (rs rs' : List Record) : history (rs ++ rs') = history rs ++ history rs' :=
  List.filterMap_append

theorem history_cons {r : Record} {e : Cart.Event} (h : r.event? = some e) (rest : List Record) :
    history (r :: rest) = e :: history rest := List.filterMap_cons_some h

theorem Legible.map {rs : List Record} (h : Legible rs) : rs.map Record.event? = (history rs).map some := by
  induction rs with
  | nil => rfl
  | cons r rest ih =>
    obtain ⟨e, he⟩ := Option.isSome_iff_exists.1 (h r (List.mem_cons_self ..))
    have hrest := ih fun r' hr' => h r' (List.mem_cons_of_mem _ hr')
    rw [List.map_cons, hrest, history_cons he, he, List.map_cons]

theorem Legible.length_history {rs : List Record} (h : Legible rs) : (history rs).length = rs.length := by
  have hlength := congrArg List.length h.map
  rw [List.length_map, List.length_map] at hlength
  exact hlength.symm

theorem Legible.concat {rs : List Record} (h : Legible rs) (entry : Record.Entry) (event : Cart.Event) :
    Legible (rs ++ [.ofEvent entry event]) := by
  intro r hr
  obtain hr | hr := List.mem_append.1 hr
  · exact h r hr
  · rw [List.mem_singleton.1 hr, Cart.event?_ofEvent]
    rfl

theorem history_concat (rs : List Record) (entry : Record.Entry) (event : Cart.Event) :
    history (rs ++ [.ofEvent entry event]) = history rs ++ [event] := by
  rw [history_append, history_cons (Cart.event?_ofEvent entry event)]
  rfl

theorem cartAt_length (rs : List Record) : cartAt rs rs.length = Cart.replay .empty (history rs) := by
  rw [cartAt, List.take_length]

/-- Later records do not matter. -/
theorem cartAt_append {rs : List Record} {k : Nat} (hk : k ≤ rs.length) (more : List Record) :
    cartAt (rs ++ more) k = cartAt rs k := by
  rw [cartAt, List.take_append_of_le_length hk, cartAt]

theorem cartAt_concat (rs : List Record) (entry : Record.Entry) (event : Cart.Event) :
    cartAt (rs ++ [.ofEvent entry event]) (rs.length + 1) = (cartAt rs rs.length).apply event := by
  have hlength : rs.length + 1 = (rs ++ [Record.ofEvent entry event]).length := by simp
  rw [hlength, cartAt_length, cartAt_length, history_concat, Cart.replay, List.foldl_append]
  rfl

/-- The first `k` events, and what is left of them. -/
theorem replay_drop (rs : List Record) (k : Nat) :
    Cart.replay (cartAt rs k) (history (rs.drop k)) = cartAt rs rs.length := by
  rw [cartAt_length, cartAt, Cart.replay, Cart.replay, ← List.foldl_append, ← history_append,
    List.take_append_drop]
  rfl

/-! ### Catching up -/

theorem catchUp_eq {rest : List Record} {k : Nat}
    (hnumbers : rest.map (·.sequenceNr) = List.range' (k + 1) rest.length) (c : Cart) :
    Instance.catchUp c k rest = some (c.replay (history rest), k + rest.length) := by
  induction rest generalizing c k with
  | nil => rfl
  | cons r rest ih =>
    rw [List.map_cons, List.length_cons, List.range'_succ, List.cons.injEq] at hnumbers
    rw [Instance.catchUp, if_pos hnumbers.1, ih hnumbers.2, List.length_cons, Nat.add_right_comm,
      Nat.add_assoc]
    cases he : r.event? with
    | none => rw [history, history, List.filterMap_cons_none he]
    | some e => rw [history_cons he]; rfl

/-! ### Healthy storages -/

structure Healthy (B : Backend σ) (V : View σ) (s : σ) : Prop where
  inv : V.Inv s
  legible : ∀ id, Legible (B.recorded s id)
  snapshot_le : ∀ {id snapshot}, V.Kept s id snapshot →
    snapshot.sequenceNr ≤ (B.recorded s id).length
  snapshot_eq : ∀ {id snapshot}, V.Kept s id snapshot →
    snapshot.state = cartAt (B.recorded s id) snapshot.sequenceNr

variable {B : Backend σ} {V : View σ} {s : σ}

theorem Healthy.congr {s' : σ} (h : Healthy B V s) (hinv : V.Inv s') (hrecorded : B.recorded s' = B.recorded s)
    (hkept : ∀ {id snapshot}, V.Kept s' id snapshot → V.Kept s id snapshot) : Healthy B V s' where
  inv := hinv
  legible id := by
    rw [hrecorded]
    exact h.legible id
  snapshot_le hk := by
    rw [hrecorded]
    exact h.snapshot_le (hkept hk)
  snapshot_eq hk := by
    rw [hrecorded]
    exact h.snapshot_eq (hkept hk)

theorem Healthy.unchanged {s' : σ} (h : Healthy B V s) (hs : Unchanged B V s s') : Healthy B V s' :=
  h.congr hs.inv hs.recorded hs.kept

/-- Wherever recovery starts is a point of the stream. -/
theorem startingPoint_eq (C : Correct B V) (h : Healthy B V s) (id : StreamId) :
    ∃ k ≤ (B.recorded s id).length,
      Instance.startingPoint B id s = (cartAt (B.recorded s id) k, k) := by
  rw [Instance.startingPoint]
  split
  · next snapshot hload =>
    have hkept := C.loadSnapshot h.inv hload
    exact ⟨snapshot.sequenceNr, h.snapshot_le hkept, by rw [h.snapshot_eq hkept]⟩
  · exact ⟨0, Nat.zero_le _, rfl⟩

/-- **Recovery comes to the replay of the whole stream**, whatever snapshots there are. -/
theorem recover_eq (C : Correct B V) (h : Healthy B V s) {id : StreamId} (hid : V.Takes id) :
    Instance.recover B id s =
      some (cartAt (B.recorded s id) (B.recorded s id).length, (B.recorded s id).length) := by
  obtain ⟨k, hk, hstart⟩ := startingPoint_eq C h id
  have hnumbered : Numbered (B.recorded s id) := (C.tidy h.inv).numbered id
  have hread := C.readFrom h.inv hid (k + 1)
  rw [hnumbered.filter, Nat.add_sub_cancel] at hread
  have hnumbers : ((B.recorded s id).drop k).map (·.sequenceNr) =
      List.range' (k + 1) ((B.recorded s id).drop k).length := by
    rw [List.map_drop, hnumbered, List.drop_range', List.length_drop, Nat.mul_one, Nat.add_comm]
  rw [Instance.recover, hstart]
  dsimp only
  rw [hread]
  dsimp only
  rw [catchUp_eq hnumbers, replay_drop, List.length_drop, Nat.add_sub_cancel' hk]

/-- Of a stream that is not taken nothing is recovered. -/
theorem recover_foreign (C : Correct B V) (h : Healthy B V s) {id : StreamId} (hid : ¬ V.Takes id) :
    Instance.recover B id s = none := by
  obtain ⟨e, he⟩ := C.foreign h.inv hid ((Instance.startingPoint B id s).2 + 1)
  rw [Instance.recover]
  dsimp only
  rw [he]

end CartLedger.Entity
