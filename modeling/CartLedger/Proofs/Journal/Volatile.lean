import CartLedger.Journal.Volatile
import CartLedger.Proofs.Journal.Numbering

/-! What a journal in memory takes.

A record in its turn is added to its stream and to the log (`append_next`), any other is
refused with what `checkNext` says (`append_refused`). So the log, stream by stream, is the
streams (`Whole`). -/
namespace CartLedger.Journal.Volatile
variable {j : Volatile} {r : Record}

theorem stream_set (j : Volatile) (r : Record) (log : List Record) (failing : Bool) :
    stream ⟨Entries.set r.stream (j.stream r.stream ++ [r]) j.streams, log, failing⟩ =
      extend j.stream r := by
  funext id
  rw [stream, Entries.find?_set]
  by_cases hid : id = r.stream
  · rw [hid, if_pos rfl, extend_self]
    rfl
  · rw [if_neg (Ne.symm hid), extend_of_ne hid]
    rfl

theorem append_next (h : Tidy j.stream) (htakes : j.failing = false)
    (hr : r.sequenceNr = (j.stream r.stream).length + 1) :
    ∃ j', j.append r = .ok (r.sequenceNr, j') ∧ j'.stream = extend j.stream r ∧ j'.log = j.log ++ [r] ∧
      j'.failing = false := by
  refine ⟨⟨Entries.set r.stream (j.stream r.stream ++ [r]) j.streams, j.log ++ [r], j.failing⟩, ?_,
    stream_set j r _ _, rfl, htakes⟩
  rw [append, htakes, (h.numbered r.stream).highestOf, checkNext_ok hr]
  rfl

theorem append_refused (h : Tidy j.stream) (htakes : j.failing = false) {e : StorageError}
    (hr : checkNext r (j.stream r.stream).length = .error e) : j.append r = .error e := by
  rw [append, htakes, (h.numbered r.stream).highestOf, hr]
  rfl

theorem append_failing (hfails : j.failing = true) (r : Record) : j.append r = .error .unavailable :=
  if_pos hfails

/-- The log holds every stream, in its order. -/
structure Whole (j : Volatile) : Prop where
  tidy : Tidy j.stream
  log : ∀ id, j.log.filter (fun r => r.stream = id) = j.stream id

theorem whole_empty : Whole empty := ⟨tidy_empty, fun _ => rfl⟩

/-- **No record is lost between the log and the streams.** -/
theorem Whole.append {j' : Volatile} (h : Whole j) {n : Nat} (happend : j.append r = .ok (n, j')) : Whole j' := by
  rw [Volatile.append] at happend
  split at happend
  · cases happend
  · cases hnext : checkNext r (highestOf (j.stream r.stream)) with
    | error e => rw [hnext] at happend; cases happend
    | ok _ =>
      have hr : r.sequenceNr = (j.stream r.stream).length + 1 := by
        rw [(h.tidy.numbered r.stream).highestOf] at hnext
        refine Decidable.byContradiction fun hne => ?_
        obtain ⟨e, he⟩ := checkNext_error hne
        rw [he] at hnext
        cases hnext
      rw [hnext] at happend
      obtain ⟨-, rfl⟩ := Prod.mk.inj (Except.ok.inj happend)
      have hstream := stream_set j r (j.log ++ [r]) j.failing
      refine ⟨hstream ▸ h.tidy.extend hr, fun id => ?_⟩
      rw [hstream, List.filter_append, h.log id]
      by_cases hid : id = r.stream
      · rw [hid, extend_self]
        simp
      · rw [extend_of_ne hid]
        simp [Ne.symm hid]

theorem Whole.setFailing (h : Whole j) (failing : Bool) : Whole (j.setFailing failing) := ⟨h.tidy, h.log⟩

end CartLedger.Journal.Volatile
