import CartLedger.Proofs.Storage.Layout
import CartLedger.Storage.Backend

/-! Ids that cannot be used are refused.

Whatever is to be done under such an id, by a journal, the registry or a store of snapshots,
is answered with the name that is at fault, and what is stored stays as it is, in order
or not. -/
namespace CartLedger
open CartLedger.Json (Decoder)
open CartLedger.Storage
open CartLedger.Storage.Layout (Usable refusal)

variable {id : StreamId}

theorem Storage.Registry.ensure_unusable (hid : ¬ Usable id) (seconds : Nat) (d : Disk) :
    Registry.ensure id seconds d = (.error (refusal id), d) := by
  rw [Registry.ensure, Layout.streamDirectory, Layout.entityDirectory_refused hid]

namespace Journal.Durable

/-- A journal that remembers such an id, however that came about, refuses it all the same. -/
theorem append_unusable {r : Record} (hid : ¬ Usable r.stream) (s : Durable) (journal : Nat) :
    s.append journal r = (.error (refusal r.stream), s) := by
  unfold append
  rw [Layout.eventsFile_refused hid]
  by_cases hknown : (s.remembered journal r.stream).isSome
  · simp only [hknown, if_true]
  · simp only [hknown, Registry.ensure_unusable hid]
    rfl

theorem readFrom_unusable (hid : ¬ Usable id) (s : Durable) (start : Nat) :
    s.readFrom id start = .error (refusal id) := by
  rw [readFrom, Layout.eventsFile_refused hid]
  rfl

theorem highest_unusable (hid : ¬ Usable id) (s : Durable) (journal : Nat) :
    s.highest journal id = (.error (refusal id), s) := by
  rw [highest, Layout.eventsFile_refused hid]

end Journal.Durable

namespace Snapshot.Durable

theorem save_unusable (hid : ¬ Usable id) (d : Disk) (snapshot : Snapshot Json) (retention : Retention) :
    save d id snapshot retention = (.error (refusal id), d) := by
  rw [save, Layout.snapshotDirectory, Layout.entityDirectory_refused hid]

theorem load_unusable {α : Type} (hid : ¬ Usable id) (d : Disk) (state : Decoder α) :
    load d id state = .error (refusal id) := by
  rw [load, Layout.snapshotDirectory, Layout.entityDirectory_refused hid]
  rfl

end Snapshot.Durable

end CartLedger
