import CartLedger.OrderedMap.Lemmas
import CartLedger.Proofs.Snapshot.Codec
import CartLedger.Snapshot.Volatile

/-! Snapshots of carts in memory.

What may be loaded for a stream is what is `Kept` for it. A save keeps the snapshot that is
saved and no other that was not kept before. -/
namespace CartLedger.Snapshot.Volatile
variable {s : Volatile} {id : StreamId}

/-- The snapshot is among those of the stream. -/
def Kept (s : Volatile) (id : StreamId) (snapshot : Snapshot Cart) : Prop :=
  ∃ v, (s.of id).get? snapshot.sequenceNr = some v ∧ Json.decode Cart.decoder v = .ok snapshot.state

theorem kept_of_load {snapshot : Snapshot Cart} (h : s.load id Cart.decoder = .ok (some snapshot)) :
    s.Kept id snapshot := by
  rw [load] at h
  cases hlast : (s.of id).last? with
  | none => rw [hlast] at h; cases h
  | some e =>
    obtain ⟨n, v⟩ := e
    rw [hlast] at h
    dsimp only at h
    split at h
    · next c hdecode =>
      obtain rfl := Option.some.inj (Except.ok.inj h)
      exact ⟨v, (OrderedMap.get?_eq_some_iff _ _ _).2 (List.mem_of_getLast? hlast), hdecode⟩
    · cases h

theorem of_save_self (s : Volatile) (id : StreamId) (snapshot : Snapshot Json) (retention : Retention) :
    (s.save id snapshot retention).of id =
      ((s.of id).insert snapshot.sequenceNr snapshot.state.canonical).filter fun n =>
        retention.deleteUpto snapshot.sequenceNr < n := by
  rw [of, save, Entries.find?_set, if_pos rfl]
  rfl

theorem of_save_of_ne {id' : StreamId} (h : id' ≠ id) (snapshot : Snapshot Json) (retention : Retention) :
    (s.save id snapshot retention).of id' = s.of id' := by
  rw [of, save, Entries.find?_set, if_neg (Ne.symm h)]
  rfl

/-- **A save keeps no more than it saves.** -/
theorem kept_save {id' : StreamId} {c : Cart} {n : Nat} {retention : Retention} {snapshot : Snapshot Cart}
    (h : (s.save id (ofCart c n) retention).Kept id' snapshot) :
    s.Kept id' snapshot ∨ (id' = id ∧ snapshot = ⟨c, n⟩) := by
  obtain ⟨v, hfind, hdecode⟩ := h
  by_cases hid : id' = id
  · rw [hid, of_save_self, OrderedMap.get?_filter] at hfind
    split at hfind
    · rw [OrderedMap.get?_insert] at hfind
      split at hfind
      · next hn =>
        obtain rfl := Option.some.inj hfind
        have hstate : Json.decode Cart.decoder c.toJson.canonical = .ok snapshot.state := hdecode
        rw [Cart.decode_canonical] at hstate
        refine .inr ⟨hid, ?_⟩
        cases snapshot
        exact (congr (congrArg Snapshot.mk (Except.ok.inj hstate)) hn).symm
      · exact .inl (hid ▸ ⟨v, hfind, hdecode⟩)
    · cases hfind
  · rw [of_save_of_ne hid] at hfind
    exact .inl ⟨v, hfind, hdecode⟩

end CartLedger.Snapshot.Volatile
