import CartLedger.Proofs.Journal.Listing
import CartLedger.Proofs.Storage.Backend

/-! What a backend owes those who read by tag.

Queries by tag go over all streams, and each backend has an order of its own for that: the
one in memory that in which records were taken, the one on disk that of the directories.
Both find of each stream the records that have the tag, in the order of the stream, and
nothing besides (`searching_memory`, `searching_files`). -/
namespace CartLedger.Storage
open CartLedger.Journal.Durable (listed ascending_listed mem_listed_of_begun)

/-- A query by tag finds of every stream the records with the tag, in their order. -/
def Searching (B : Backend σ) (V : View σ) : Prop :=
  ∀ {s}, V.Inv s → ∀ tag, ∃ found, B.byTag tag s = .ok found ∧
    ∀ id, found.filter (fun r => r.stream = id) = (B.recorded s id).filter (fun r => r.tags.contains tag)

theorem searching_memory : Searching memory memoryView := by
  intro m h tag
  refine ⟨m.journal.byTag tag, rfl, fun id => ?_⟩
  rw [recorded_memory, ← Journal.Volatile.Whole.log h id, Journal.Volatile.byTag, List.filter_filter,
    List.filter_filter]
  exact List.filter_congr fun r _ => Bool.and_comm _ _

theorem searching_files : Searching files filesView := by
  intro s h tag
  have hkeeps : s.Keeps (files.recorded s) := h
  have hnodup : (listed s.disk).Nodup := (ascending_listed hkeeps.orderly).imp And.right
  refine ⟨_, hkeeps.byTag_eq tag, fun id => ?_⟩
  rw [StableSort.filter_flatMap hnodup fun id r hr => hkeeps.tidy.own id r (List.mem_filter.1 hr).1]
  split
  · rfl
  · next hunlisted =>
    -- A stream without a directory has no records.
    have hnone : files.recorded s id = [] := Decidable.byContradiction fun hne =>
      hunlisted (mem_listed_of_begun (hkeeps.begun hne))
    rw [hnone]
    rfl

end CartLedger.Storage
