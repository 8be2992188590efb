import CartLedger.Proofs.Journal.Listing
import CartLedger.Proofs.Journal.Volatile

/-! Journals on disk are one journal in memory.

Any number of journals over one disk, each with its own memory of where files end, answer
as a single journal in memory does that is asked the same (`Agree.run`). The
relation that holds throughout is `Agree`: the disk keeps the streams that the memory has.
Queries by tag come in another order, stream by stream, which is that of a stable sort. -/
namespace CartLedger.Journal
open CartLedger.Journal.Durable (Keeps listed listedBefore order_listedBefore mem_listed_of_begun
  ascending_listed)
open CartLedger.Storage.Layout (Usable)

/-- What is asked of the journals over one disk. Journals go by numbers: one that was replaced
is not asked again, and the one in its place has a number that was not used before. Reading
needs no memory, so it does not matter who reads. -/
inductive Request where
  | append (journal : Nat) (entry : Record.Entry) (event : Cart.Event)
  | readFrom (id : StreamId) (start : Nat)
  | highest (journal : Nat) (id : StreamId)
  | byTag (tag : String)
  /-- One more journal is opened. -/
  | openNew
  /-- The system's own clock is set. -/
  | setSeconds (seconds : Nat)

inductive Response where
  | taken (answer : Except StorageError Nat)
  | records (answer : Except StorageError (List Record))
  | number (answer : Except StorageError Nat)
  | tagged (answer : Except StorageError (List Record))
  | done

namespace Request

def onDisk (s : Durable) : Request → Response × Durable
  | .append journal entry event =>
    let (answer, s) := s.append journal (Record.ofEvent entry event)
    (.taken answer, s)
  | .readFrom id start => (.records (s.readFrom id start), s)
  | .highest journal id =>
    let (answer, s) := s.highest journal id
    (.number answer, s)
  | .byTag tag => (.tagged (s.byTag tag), s)
  | .openNew => (.done, s.openNew.2)
  | .setSeconds seconds => (.done, { s with seconds := seconds })

def inMemory (j : Volatile) : Request → Response × Volatile
  | .append _ entry event =>
    match j.append (Record.ofEvent entry event) with
    | .ok (n, j) => (.taken (.ok n), j)
    | .error e => (.taken (.error e), j)
  | .readFrom id start => (.records (.ok (j.readFrom id start)), j)
  | .highest _ id => (.number (.ok (j.highest id)), j)
  | .byTag tag => (.tagged (.ok (j.byTag tag)), j)
  | .openNew => (.done, j)
  | .setSeconds _ => (.done, j)

/-- Ids are such as can be used, numbers have 64 bits, and the number of a stream's last
record is asked for only if there is one. -/
def Allowed (j : Volatile) : Request → Prop
  | .append _ entry _ => Usable entry.stream ∧ entry.sequenceNr < UInt64.size
  | .readFrom id _ => Usable id
  | .highest _ id => Usable id ∧ j.stream id ≠ []
  | .byTag _ => True
  | .openNew => True
  | .setSeconds _ => True

/-- The responses to requests, one after another. -/
def run (respond : σ → Request → Response × σ) (s : σ) : List Request → List Response
  | [] => []
  | q :: rest => (respond s q).1 :: run respond (respond s q).2 rest

/-- Every request is allowed when it is made. -/
def AllAllowed (j : Volatile) : List Request → Prop
  | [] => True
  | q :: rest => q.Allowed j ∧ AllAllowed (q.inMemory j).2 rest

end Request

/-- Records sorted by their streams, of one stream in the order in which they come. -/
def byStream (rs : List Record) : List Record := rs.mergeSort (StableSort.byKey listedBefore Record.stream)

/-- The same response, records with a tag sorted by stream. -/
def Response.sorted : Response → Response
  | .tagged answer => .tagged (answer.map byStream)
  | response => response

/-! ### Agreement -/

structure Agree (s : Durable) (j : Volatile) : Prop where
  keeps : s.Keeps j.stream
  whole : j.Whole
  takes : j.failing = false

namespace Agree
variable {s : Durable} {j : Volatile}

theorem empty : Agree (.onDisk .empty) .empty := ⟨Keeps.fresh, Volatile.whole_empty, rfl⟩

theorem append (h : Agree s j) {r : Record} (hid : Usable r.stream) (hr : r.Storable) (journal : Nat) :
    (∃ s' j', s.append journal r = (.ok r.sequenceNr, s') ∧ j.append r = .ok (r.sequenceNr, j') ∧ Agree s' j') ∨
      ∃ s' e, s.append journal r = (.error e, s') ∧ j.append r = .error e ∧ Agree s' j := by
  by_cases hnext : r.sequenceNr = (j.stream r.stream).length + 1
  · obtain ⟨s', hs, hkeeps, -⟩ := h.keeps.append_next hid hr hnext journal
    obtain ⟨j', hj, hstream, -, htakes⟩ := Volatile.append_next h.whole.tidy h.takes hnext
    exact .inl ⟨s', j', hs, hj, hstream ▸ hkeeps, h.whole.append hj, htakes⟩
  · obtain ⟨e, he⟩ := checkNext_error hnext
    obtain ⟨s', hs, hkeeps, -⟩ := h.keeps.append_refused hid he journal
    exact .inr ⟨s', e, hs, Volatile.append_refused h.whole.tidy h.takes he, hkeeps, h.whole, h.takes⟩

/-- Both have the same records with a tag, and the disk has them by stream. -/
theorem byTag (h : Agree s j) (tag : String) : s.byTag tag = .ok (byStream (j.byTag tag)) := by
  have hlisted : ∀ r ∈ j.byTag tag, r.stream ∈ listed s.disk := by
    intro r hr
    have hmem : r ∈ j.stream r.stream := by
      rw [← h.whole.log r.stream]
      exact List.mem_filter.2 ⟨(List.mem_filter.1 hr).1, decide_eq_true rfl⟩
    exact mem_listed_of_begun (h.keeps.begun (List.ne_nil_of_mem hmem))
  rw [h.keeps.byTag_eq, byStream,
    StableSort.mergeSort_eq_flatMap order_listedBefore (ascending_listed h.keeps.orderly) hlisted]
  refine congrArg (fun part => Except.ok ((listed s.disk).flatMap part)) ?_
  funext id
  rw [← h.whole.log id, List.filter_filter, Volatile.byTag, List.filter_filter]
  exact List.filter_congr fun r _ => Bool.and_comm _ _

/-- **One request**: the responses are the same and the agreement goes on. -/
theorem step (h : Agree s j) {q : Request} (hq : q.Allowed j) :
    (q.onDisk s).1 = (q.inMemory j).1.sorted ∧ Agree (q.onDisk s).2 (q.inMemory j).2 := by
  cases q with
  | append journal entry event =>
    have hr : (Record.ofEvent entry event).Storable := Record.storable_ofEvent hq.2 event
    obtain ⟨s', j', hs, hj, hagree⟩ | ⟨s', e, hs, hj, hagree⟩ := h.append hq.1 hr journal
    · simp only [Request.onDisk, Request.inMemory, hs, hj]
      exact ⟨rfl, hagree⟩
    · simp only [Request.onDisk, Request.inMemory, hs, hj]
      exact ⟨rfl, hagree⟩
  | readFrom id start =>
    refine ⟨?_, h⟩
    simp only [Request.onDisk, Request.inMemory, h.keeps.readFrom_eq hq]
    rfl
  | highest journal id =>
    obtain ⟨hanswer, hkeeps⟩ := h.keeps.highest_eq hq.1 (h.keeps.begun hq.2) journal
    refine ⟨?_, hkeeps, h.whole, h.takes⟩
    simp only [Request.onDisk, Request.inMemory, hanswer, Volatile.highest,
      (h.whole.tidy.numbered id).highestOf]
    rfl
  | byTag tag =>
    refine ⟨?_, h⟩
    simp only [Request.onDisk, Request.inMemory, h.byTag tag]
    rfl
  | openNew => exact ⟨rfl, h.keeps.openNew, h.whole, h.takes⟩
  | setSeconds seconds => exact ⟨rfl, h.keeps.congr rfl rfl, h.whole, h.takes⟩

theorem run (h : Agree s j) {qs : List Request} (hqs : Request.AllAllowed j qs) :
    Request.run Request.onDisk s qs = (Request.run Request.inMemory j qs).map Response.sorted := by
  induction qs generalizing s j with
  | nil => rfl
  | cons q rest ih =>
    obtain ⟨hanswer, hagree⟩ := h.step hqs.1
    rw [Request.run, Request.run, List.map_cons, hanswer, ih hagree hqs.2]

end Agree

/-- **Journals on disk refine one in memory.** Over an empty disk, whatever is asked of any of
the journals in whatever order, the responses are those of a journal in memory, with
records by tag sorted by their streams. -/
theorem disk_refines_memory (qs : List Request) (hqs : Request.AllAllowed .empty qs) :
    Request.run Request.onDisk (.onDisk .empty) qs =
      (Request.run Request.inMemory .empty qs).map Response.sorted := Agree.empty.run hqs

/-- Two journals write to one stream: the second is refused a number that the first has taken,
and both know the number of the last record. -/
theorem two_journals_agree :
    let stream : StreamId := .ofCart "a"
    let entry : Record.Entry := ⟨.generated 0, stream, 1, .ofList ["t"], .anonymous, Time.Timestamp.epoch⟩
    let event : Cart.Event := .checkedOut "a" Time.Timestamp.epoch
    let qs := [Request.append 0 entry event, .append 1 entry event, .highest 1 stream, .byTag "t"]
    Request.AllAllowed .empty qs ∧ Request.run Request.onDisk (.onDisk .empty) qs =
      (Request.run Request.inMemory .empty qs).map Response.sorted := by
  intro stream entry event qs
  have hqs : Request.AllAllowed .empty qs :=
    ⟨⟨by decide, by decide⟩, ⟨by decide, by decide⟩, ⟨by decide, List.cons_ne_nil _ _⟩, trivial, trivial⟩
  exact ⟨hqs, disk_refines_memory qs hqs⟩

end CartLedger.Journal
