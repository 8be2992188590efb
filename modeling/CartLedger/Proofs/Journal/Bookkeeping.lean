import CartLedger.Proofs.Storage.Backend
import Mathlib.Algebra.BigOperators.Group.List.Basic
import Mathlib.Algebra.GroupWithZero.Nat

/-! The books of a journal in memory.

A journal in memory writes every record down twice, and a query looks at one of the two:
a stream is read in its own place, tags are searched in the log of all streams. Whatever
records a journal is handed, most of them out of turn perhaps, and whenever it is made to
refuse records for a while, the two places say the same (`Balanced`): a record goes to both
or, when it is refused, to neither (`Discerning`). -/
namespace CartLedger.Journal.Volatile
open CartLedger.Storage (Memory memory)

/-! ### What is done with a journal -/

inductive Call where
  | append (journal : Nat) (r : Record)
  | setFailing (failing : Bool)

namespace Call

def act (m : Memory) : Call → Memory
  | .append journal r => (memory.append journal r m).2
  | .setFailing failing => memory.setFailing failing m

/-- The memory after calls, one after another. -/
def after (m : Memory) (calls : List Call) : Memory := calls.foldl (fun m call => call.act m) m

/-- Whether records are refused after a call, as told by whether they were before. -/
def fails (before : Bool) : Call → Bool
  | .append .. => before
  | .setFailing failing => failing

end Call

/-! ### What is taken -/

/-- A journal takes the record that is next in its stream. Of any other it says why it does
not, and then it has changed nothing. -/
structure Discerning (m : Memory) (journal : Nat) (r : Record) : Prop where
  taken_iff : (memory.append journal r m).1 = .ok r.sequenceNr ↔
    m.journal.failing = false ∧ r.sequenceNr = (m.journal.stream r.stream).length + 1
  /-- What is taken comes to the end of its stream and of the log, and its number is said. -/
  taken : ∀ {n}, (memory.append journal r m).1 = .ok n → n = r.sequenceNr ∧
    ∃ j, (memory.append journal r m).2 = { m with journal := j } ∧
      j.stream = extend m.journal.stream r ∧ j.log = m.journal.log ++ [r] ∧ j.failing = false
  failing : m.journal.failing = true → memory.append journal r m = (.error .unavailable, m)
  again : m.journal.failing = false → r.sequenceNr ≤ (m.journal.stream r.stream).length →
    memory.append journal r m =
      (.error (.numberTaken r.stream ((m.journal.stream r.stream).length + 1) r.sequenceNr), m)
  ahead : m.journal.failing = false → (m.journal.stream r.stream).length + 1 < r.sequenceNr →
    memory.append journal r m =
      (.error (.numberGap r.stream ((m.journal.stream r.stream).length + 1) r.sequenceNr), m)

theorem append_memory_refused {m : Memory} {r : Record} {e : StorageError} (h : m.journal.append r = .error e)
    (journal : Nat) : memory.append journal r m = (.error e, m) := by
  simp only [memory, h]

theorem append_memory_taken {m : Memory} {r : Record} {j : Volatile} {n : Nat} (h : m.journal.append r = .ok (n, j))
    (journal : Nat) : memory.append journal r m = (.ok n, { m with journal := j }) := by
  simp only [memory, h]

theorem Whole.discerning {m : Memory} (h : m.journal.Whole) (journal : Nat) (r : Record) :
    Discerning m journal r := by
  have hrefused : ∀ {e}, m.journal.failing = false → checkNext r (m.journal.stream r.stream).length = .error e →
      memory.append journal r m = (.error e, m) := fun htakes hnext =>
    append_memory_refused (append_refused h.tidy htakes hnext) journal
  have htaken : m.journal.failing = false → r.sequenceNr = (m.journal.stream r.stream).length + 1 →
      ∃ j, memory.append journal r m = (.ok r.sequenceNr, { m with journal := j }) ∧
        j.stream = extend m.journal.stream r ∧ j.log = m.journal.log ++ [r] ∧ j.failing = false := by
    intro htakes hnext
    obtain ⟨j, happend, hj⟩ := append_next h.tidy htakes hnext
    exact ⟨j, append_memory_taken happend journal, hj⟩
  have hfailing : m.journal.failing = true → memory.append journal r m = (.error .unavailable, m) :=
    fun hfails => append_memory_refused (append_failing hfails r) journal
  have hturn : ∀ {n}, (memory.append journal r m).1 = .ok n →
      m.journal.failing = false ∧ r.sequenceNr = (m.journal.stream r.stream).length + 1 := by
    intro n hok
    by_cases hfails : m.journal.failing = true
    · rw [hfailing hfails] at hok
      cases hok
    · have htakes : m.journal.failing = false := by simpa using hfails
      refine ⟨htakes, Decidable.byContradiction fun hne => ?_⟩
      obtain ⟨e, hnext⟩ := checkNext_error hne
      rw [hrefused htakes hnext] at hok
      cases hok
  refine ⟨⟨hturn, fun ⟨htakes, hnext⟩ => ?_⟩, fun hok => ?_, hfailing, fun htakes hle => hrefused htakes ?_,
    fun htakes hgap => hrefused htakes ?_⟩
  · obtain ⟨j, happend, -⟩ := htaken htakes hnext
    rw [happend]
  · obtain ⟨htakes, hnext⟩ := hturn hok
    obtain ⟨j, happend, hj⟩ := htaken htakes hnext
    rw [happend] at hok
    exact ⟨(Except.ok.inj hok).symm, j, by rw [happend], hj⟩
  · rw [checkNext, if_neg (by omega), if_pos hle]
  · rw [checkNext, if_neg (by omega), if_neg (by omega)]

/-! ### How much is in the log -/

/-- What a list of entries adds up to is what is under a key and what is under all others. -/
theorem sum_erase {κ ν : Type} [DecidableEq κ] (f : ν → Nat) (k : κ) {entries : List (κ × ν)}
    (h : (entries.map (·.1)).Nodup) : (entries.map fun e => f e.2).sum =
      ((Entries.find? k entries).map f).getD 0 + ((Entries.erase k entries).map fun e => f e.2).sum := by
  induction entries with
  | nil => rfl
  | cons e rest ih =>
    obtain ⟨hnew, hrest⟩ := List.nodup_cons.1 h
    rw [List.map_cons, List.sum_cons, Entries.find?_cons, Entries.erase]
    by_cases he : e.1 = k
    · -- No other entry has the key.
      have hothers : rest.filter (fun e => decide (e.1 ≠ k)) = rest :=
        List.filter_eq_self.2 fun e' he' => decide_eq_true fun hk =>
          hnew (List.mem_map.2 ⟨e', he', hk.trans he.symm⟩)
      rw [if_pos he, List.filter_cons_of_neg (by simpa using he), hothers]
      rfl
    · rw [if_neg he, List.filter_cons_of_pos (by simpa using he), ih hrest, List.map_cons, List.sum_cons]
      exact Nat.add_left_comm ..

/-- Every stream has one place, and the log as many records as all places together. -/
structure Filed (j : Volatile) : Prop where
  distinct : (j.streams.map (·.1)).Nodup
  length : j.log.length = (j.streams.map fun e => e.2.length).sum

theorem filed_empty : Filed empty := ⟨List.nodup_nil, rfl⟩

theorem eq_of_append {j j' : Volatile} {r : Record} {n : Nat} (h : j.append r = .ok (n, j')) :
    j' = { j with streams := Entries.set r.stream (j.stream r.stream ++ [r]) j.streams, log := j.log ++ [r] } := by
  rw [append] at h
  split at h
  · cases h
  · split at h
    · cases h
    · exact (Prod.mk.inj (Except.ok.inj h)).2.symm

theorem Filed.append {j j' : Volatile} {r : Record} {n : Nat} (h : Filed j) (happend : j.append r = .ok (n, j')) :
    Filed j' := by
  rw [eq_of_append happend]
  refine ⟨Entries.nodup_set h.distinct _ _, ?_⟩
  have hsum := sum_erase List.length r.stream h.distinct
  have hstream : (j.stream r.stream).length = ((Entries.find? r.stream j.streams).map List.length).getD 0 := by
    rw [stream]
    cases Entries.find? r.stream j.streams <;> rfl
  rw [← hstream, ← h.length] at hsum
  simp only [Entries.set, List.map_cons, List.sum_cons, List.length_append, List.length_singleton]
  omega

/-! ### The books -/

/-- Streams and log say the same, and so does every query. -/
structure Balanced (m : Memory) : Prop where
  own : ∀ id, ∀ r ∈ m.journal.stream id, r.stream = id
  numbered : ∀ id, (m.journal.stream id).map (·.sequenceNr) = List.range' 1 (m.journal.stream id).length
  log : ∀ id, m.journal.log.filter (fun r => r.stream = id) = m.journal.stream id
  /-- Every stream is kept in one place, and no record is in the log only. -/
  total : (m.journal.streams.map (·.1)).Nodup ∧
    m.journal.log.length = (m.journal.streams.map fun e => e.2.length).sum
  byTag : ∀ tag, ∃ found, memory.byTag tag m = .ok found ∧
    ∀ id, found.filter (fun r => r.stream = id) = (m.journal.stream id).filter (fun r => r.tags.contains tag)
  highest : ∀ journal id, memory.highest journal id m = (.ok (m.journal.stream id).length, m)
  readFrom : ∀ id start, memory.readFrom id start m = .ok ((m.journal.stream id).drop (max start 1 - 1))

theorem Whole.balanced {m : Memory} (h : m.journal.Whole) (hfiled : m.journal.Filed) : Balanced m where
  own := h.tidy.own
  numbered := h.tidy.numbered
  log := h.log
  total := ⟨hfiled.distinct, hfiled.length⟩
  byTag tag := by
    refine ⟨m.journal.byTag tag, rfl, fun id => ?_⟩
    rw [Volatile.byTag, List.filter_comm, h.log id]
  highest journal id := congrArg (fun n => (Except.ok n, m)) (h.tidy.numbered id).highestOf
  readFrom id start := by
    have hbefore : max start 1 - 1 = start - 1 := by omega
    rw [hbefore]
    exact congrArg Except.ok ((h.tidy.numbered id).filter start)

/-! ### Calls -/

/-- The books are in order, and records are refused or not. -/
structure Kept (snapshots : Snapshot.Volatile) (failing : Bool) (m : Memory) : Prop where
  whole : m.journal.Whole
  filed : m.journal.Filed
  failing : m.journal.failing = failing
  snapshots : m.snapshots = snapshots

/-- **One call** keeps the books in order, whatever becomes of it. -/
theorem Kept.act {snapshots : Snapshot.Volatile} {failing : Bool} {m : Memory} (h : Kept snapshots failing m)
    (call : Call) : Kept snapshots (Call.fails failing call) (call.act m) := by
  cases call with
  | append journal r =>
    show Kept snapshots failing (memory.append journal r m).2
    cases happend : m.journal.append r with
    | error e =>
      rw [append_memory_refused happend journal]
      exact h
    | ok taken =>
      rw [append_memory_taken happend journal]
      refine ⟨h.whole.append happend, h.filed.append happend, ?_, h.snapshots⟩
      rw [eq_of_append happend]
      exact h.failing
  | setFailing failing => exact ⟨h.whole.setFailing failing, ⟨h.filed.distinct, h.filed.length⟩, rfl, h.snapshots⟩

theorem Kept.after {snapshots : Snapshot.Volatile} {failing : Bool} {m : Memory} (h : Kept snapshots failing m)
    (calls : List Call) : Kept snapshots (calls.foldl Call.fails failing) (Call.after m calls) := by
  induction calls generalizing failing m with
  | nil => exact h
  | cons call rest ih => exact ih (h.act call)

/-- **The books of a journal in memory balance.** Whatever records it was handed before, with
whatever ids, numbers and tags, and however often it was made to fail, its streams, its log
and its queries agree, and it takes the next record of each stream and no other. -/
theorem books_balance (snapshots : Snapshot.Volatile) (calls : List Call) :
    let m := Call.after ⟨.empty, snapshots⟩ calls
    Balanced m ∧ m.journal.failing = calls.foldl Call.fails false ∧ m.snapshots = snapshots ∧
      ∀ journal r, Discerning m journal r := by
  intro m
  have hempty : Kept snapshots false ⟨.empty, snapshots⟩ := ⟨whole_empty, filed_empty, rfl, rfl⟩
  have hkept := hempty.after calls
  exact ⟨hkept.whole.balanced hkept.filed, hkept.failing, hkept.snapshots, hkept.whole.discerning⟩

/-- Two streams, records out of turn, and a time of refusal. -/
example :
    let first (id : String) : Record :=
      (⟨.generated 0, .ofCart id, 1, .ofList [], .anonymous, Time.Timestamp.epoch⟩ : Record.Entry).record "begun" .null
    let m := Call.after .empty [.append 0 (first "a"), .append 1 (first "b"), .append 0 (first "a"),
      .setFailing true, .append 0 (first "c")]
    m.journal.log.length = 2 ∧ m.journal.failing = true ∧
      (m.journal.stream (.ofCart "a")).map (·.sequenceNr) = [1] := by
  decide

end CartLedger.Journal.Volatile
