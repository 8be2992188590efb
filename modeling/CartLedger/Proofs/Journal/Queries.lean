import CartLedger.Proofs.Journal.Alike

/-! Which queries go unnoticed.

A query should leave no trace: neither in what journals answer later nor in the files. Reads
and queries by tag change nothing at all. A query for the last number makes its journal
remember where the stream ends, and the journal of a stream it remembers does not begin it.
So the query goes unnoticed unless it comes before the stream has a directory, from a
journal that does not remember the stream (`Premature`): then the first record that this
journal is given is lost (`premature_loses_first`). Every other query is transparent, and
no premature one is (`query_transparent_iff`). -/
namespace CartLedger.Journal
open CartLedger.Storage
open CartLedger.Storage.Layout (Usable)
open CartLedger.Journal.Durable (Alike Holds Housed Placed Remembers holds_after)

/-- A record that begins a stream. -/
def firstRecord (id : StreamId) : Record :=
  (⟨.generated 0, id, 1, .ofList [], .anonymous, Time.Timestamp.epoch⟩ : Record.Entry).record "begun" .null

namespace Operation

/-- Operations that only ask. -/
def IsQuery : Operation → Prop
  | .readFrom .. => True
  | .highest .. => True
  | .byTag _ => True
  | _ => False

/-- A query goes unnoticed: whatever is done afterwards, the responses are those there would
have been without it, and so are the files in the end. -/
def Transparent (s : Durable) (q : Operation) : Prop :=
  ∀ later : List Operation, (∀ op ∈ later, op.Fits) →
    responses (q.act s).2 later = responses s later ∧
      ∀ id, (after (q.act s).2 later).contents id = (after s later).contents id

/-- The last number of a stream is asked for before the stream has a directory, through a
journal that does not remember it. -/
def Premature (s : Durable) : Operation → Prop
  | .highest journal id => Usable id ∧ ¬ Housed s.disk id ∧ s.remembered journal id = none
  | _ => False

variable {s : Durable} {streams : StreamId → List Record} {torn : StreamId → List UInt8}

/-- **A premature query costs a record.** Without it the journal takes the stream's first
record; with it the journal says that a file is missing, and the record is gone. -/
theorem premature_loses_first (h : Holds s streams torn) {journal : Nat} {r : Record} (hr : r.sequenceNr = 1)
    (hpremature : Premature s (.highest journal r.stream)) :
    (s.append journal r).1 = .ok 1 ∧
      (((highest journal r.stream).act s).2.append journal r).1 = .error (.system .missing) := by
  obtain ⟨hid, hhoused, hknown⟩ := hpremature
  have hempty := (h.unwritten hid hhoused).2.2
  have hone : r.sequenceNr = (streams r.stream).length + 1 := by rw [hempty, hr]; rfl
  have hfits : r.sequenceNr < UInt64.size := by rw [hr]; decide
  obtain ⟨t, happend, -, -⟩ := h.append_taken hid hfits (.inr hknown) hone
  have hremembered := h.remember journal hid (Durable.remembers_all (streams r.stream))
  refine ⟨by rw [happend, hr], ?_⟩
  rw [act, h.highest_eq hid]
  dsimp only
  rw [hremembered.append_lost hid (Durable.not_placed_remember hhoused journal _), checkNext_ok hr]

theorem not_transparent_of_premature (h : Holds s streams torn) {q : Operation} (hq : Premature s q) :
    ¬ Transparent s q := by
  intro htransparent
  cases q with
  | highest journal id =>
    have hfits : ∀ op ∈ [append journal (firstRecord id)], op.Fits := by
      rw [List.forall_mem_singleton]
      exact (by decide : 1 < UInt64.size)
    obtain ⟨htaken, hlost⟩ := premature_loses_first (r := firstRecord id) h rfl hq
    have hresponse := (List.cons.inj (htransparent _ hfits).1).1
    have hsame := (hlost.symm.trans (Response.taken.inj hresponse)).trans htaken
    cases hsame
  | append => exact hq
  | readFrom => exact hq
  | byTag => exact hq
  | openNew => exact hq
  | setSeconds => exact hq

theorem alike_of_query (h : Holds s streams torn) {q : Operation} (hquery : q.IsQuery) (hq : ¬ Premature s q) :
    Alike (q.act s).2 s streams torn torn := by
  cases q with
  | readFrom id start => exact h.alike
  | byTag tag => exact h.alike
  | highest journal id =>
    by_cases hid : Usable id
    · rw [act, h.highest_eq hid]
      refine ⟨h.remember journal hid (Durable.remembers_all _), h, fun _ _ => .rfl, fun j i hhoused => ?_⟩
      rw [Durable.remembered_remember]
      split
      · next heq =>
        obtain ⟨rfl, rfl⟩ := Prod.mk.inj heq
        exact ⟨fun hn => (by cases hn), fun hn => absurd ⟨hid, hhoused, hn⟩ hq⟩
      · exact .rfl
    · rw [act, Durable.highest_unusable hid]
      exact h.alike
  | append => exact absurd hquery not_false
  | openNew => exact absurd hquery not_false
  | setSeconds => exact absurd hquery not_false

end Operation

/-- **Which queries are transparent.** Over an empty disk, at whatever point of whatever is
done with any number of journals, a query changes neither a later response nor what the
files hold in the end, unless it is premature; and then it does. -/
theorem query_transparent_iff {ops : List Operation} (hops : ∀ op ∈ ops, op.Fits) {q : Operation}
    (hq : q.IsQuery) :
    q.Transparent (Operation.after (.onDisk .empty) ops) ↔
      ¬ q.Premature (Operation.after (.onDisk .empty) ops) := by
  obtain ⟨streams, h⟩ := holds_after hops
  refine ⟨fun htransparent hpremature => Operation.not_transparent_of_premature h hpremature htransparent,
    fun hpremature later hlater => ?_⟩
  obtain ⟨hresponses, _, torn, torn', halike, hmended, hmended'⟩ :=
    (Operation.alike_of_query h hq hpremature).run hlater
  have htorn : torn' = torn := funext fun id => by
    rw [(hmended id).elim (fun h => h) fun h => h, (hmended' id).elim (fun h => h) fun h => h]
  exact ⟨hresponses, fun id => (htorn ▸ halike).contents_eq id⟩

/-- Once another journal has begun the stream, a query goes unnoticed. -/
theorem query_after_first_record :
    let stream : StreamId := .ofCart "a"
    let ops := [Operation.append 0 (firstRecord stream)]
    let q := Operation.highest 1 stream
    (∀ op ∈ ops, op.Fits) ∧ q.IsQuery ∧ q.Transparent (Operation.after (.onDisk .empty) ops) := by
  intro stream ops q
  have hops : ∀ op ∈ ops, op.Fits := List.forall_mem_singleton.2 (by decide : 1 < UInt64.size)
  have hhoused : Housed (Operation.after (.onDisk .empty) ops).disk stream := by decide +kernel
  have hquery : q.IsQuery := trivial
  exact ⟨hops, hquery, (query_transparent_iff hops hquery).2 fun hpremature => hpremature.2.1 hhoused⟩

/-- A journal is asked for the last number of a stream that nobody has written to. -/
theorem query_before_first_record : ¬ (Operation.highest 0 (.ofCart "a")).Transparent (.onDisk .empty) :=
  Operation.not_transparent_of_premature Holds.fresh ⟨by decide, by decide, rfl⟩

end CartLedger.Journal
