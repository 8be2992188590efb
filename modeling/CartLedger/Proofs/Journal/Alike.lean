import CartLedger.Proofs.Journal.Holding
import CartLedger.Proofs.Journal.Refinement

/-! Disks that journals cannot tell apart.

Two disks are `Alike` when they hold the same streams in the same directories, whatever
lies behind the streams, and when no journal has a stream in mind on one of them only that
has no directory. Whatever is done next gets the same response on both, and leaves them
alike (`Alike.step`); so does whatever is done after that (`Alike.run`). -/
namespace CartLedger.Journal
open CartLedger.Storage
open CartLedger.Storage.Layout (Usable eventsPath entityPath)

/-! ### Operations -/

/-- What can be done with the journals over one disk. Journals go by numbers. -/
inductive Operation where
  | append (journal : Nat) (r : Record)
  | readFrom (id : StreamId) (start : Nat)
  | highest (journal : Nat) (id : StreamId)
  | byTag (tag : String)
  /-- One more journal is opened. -/
  | openNew
  /-- The system's own clock is set. -/
  | setSeconds (seconds : Nat)

namespace Operation

def act (s : Durable) : Operation → Response × Durable
  | .append journal r =>
    let (answer, s) := s.append journal r
    (.taken answer, s)
  | .readFrom id start => (.records (s.readFrom id start), s)
  | .highest journal id =>
    let (answer, s) := s.highest journal id
    (.number answer, s)
  | .byTag tag => (.tagged (s.byTag tag), s)
  | .openNew => (.done, s.openNew.2)
  | .setSeconds seconds => (.done, { s with seconds := seconds })

/-- Numbers of records have 64 bits. -/
def Fits : Operation → Prop
  | .append _ r => r.sequenceNr < UInt64.size
  | _ => True

/-- The responses to operations, one after another. -/
def responses (s : Durable) : List Operation → List Response
  | [] => []
  | op :: rest => (op.act s).1 :: responses (op.act s).2 rest

/-- The disk and the journals after operations. -/
def after (s : Durable) : List Operation → Durable
  | [] => s
  | op :: rest => after (op.act s).2 rest

end Operation

namespace Durable

/-- The bytes in the file of a stream; none if it is missing. -/
def contents (s : Durable) (id : StreamId) : List UInt8 :=
  match s.disk.read (eventsPath id) with
  | .ok bytes => bytes
  | .error _ => []

theorem Holds.contents_eq {s : Durable} {streams : StreamId → List Record} {torn : StreamId → List UInt8}
    (h : Holds s streams torn) {id : StreamId} (hid : Usable id) : s.contents id = content (streams id) ++ torn id := by
  rw [contents]
  obtain hread | ⟨hread, hstream, htorn⟩ := (h.file hid).read
  · rw [hread]
  · rw [hread, hstream, htorn]
    rfl

/-- Under an id that cannot be used is no file. -/
theorem Holds.contents_unusable {s : Durable} {streams : StreamId → List Record} {torn : StreamId → List UInt8}
    (h : Holds s streams torn) {id : StreamId} (hid : ¬ Usable id) : s.contents id = [] := by
  have hleaf := Layout.leaf_eventsPath id
  have hnone : s.disk.find? (eventsPath id) = none := by
    refine Classical.byContradiction fun hne => hid ?_
    have hfolder := (h.orderly.folder (h.housed hne)).2
    exact ⟨hfolder id.entityType (by simp [entityPath]), hfolder id.entityId (by simp [entityPath])⟩
  rw [contents, h.orderly.read_missing hleaf hnone]

/-! ### Likeness -/

/-- What is behind the streams was left as it is, or cut off. -/
def Mended (torn torn' : StreamId → List UInt8) : Prop := ∀ id, torn' id = torn id ∨ torn' id = []

theorem Mended.refl (torn : StreamId → List UInt8) : Mended torn torn := fun _ => .inl rfl

theorem Mended.trans {torn torn' torn'' : StreamId → List UInt8} (h : Mended torn torn')
    (h' : Mended torn' torn'') : Mended torn torn'' := by
  intro id
  obtain h' | h' := h' id
  · rw [h']
    exact h id
  · exact .inr h'

theorem mended_mend (torn : StreamId → List UInt8) (id : StreamId) : Mended torn (mend torn id) := by
  intro id'
  rw [mend]
  split
  · exact .inr rfl
  · exact .inl rfl

/-- The tagged records of a stream are those of a read from the start. -/
theorem taggedIn_eq_map (s : Durable) (tag : String) (id : StreamId) :
    taggedIn s.disk tag id = (s.readFrom id 0).map fun rs => rs.filter fun r => r.tags.contains tag := by
  rw [taggedIn, readFrom]
  cases Layout.eventsFile id with
  | error e => rfl
  | ok file =>
    rw [Json.Decoder.ok_bind, Json.Decoder.ok_bind]
    cases readFile s.disk file 0 <;> rfl

structure Alike (s s' : Durable) (streams : StreamId → List Record) (torn torn' : StreamId → List UInt8) : Prop where
  left : Holds s streams torn
  right : Holds s' streams torn'
  directories : ∀ p, p.head? = some "streams" →
    (s.disk.find? p = some .directory ↔ s'.disk.find? p = some .directory)
  ghosts : ∀ journal {id}, ¬ Housed s.disk id →
    (s.remembered journal id = none ↔ s'.remembered journal id = none)

theorem Holds.alike {s : Durable} {streams : StreamId → List Record} {torn : StreamId → List UInt8}
    (h : Holds s streams torn) : Alike s s streams torn torn := ⟨h, h, fun _ _ => .rfl, fun _ _ _ => .rfl⟩

theorem Moved.housed {s s' : Durable} {id : StreamId} (h : Moved s s' id) : Housed s'.disk id :=
  h.begun _ (List.prefix_refl _)

namespace Alike
variable {s s' : Durable} {streams : StreamId → List Record} {torn torn' : StreamId → List UInt8}

theorem housed_iff (h : Alike s s' streams torn torn') (id : StreamId) :
    Housed s.disk id ↔ Housed s'.disk id := h.directories _ rfl

theorem placed_iff (h : Alike s s' streams torn torn') (journal : Nat) (id : StreamId) :
    Placed s journal id ↔ Placed s' journal id := by
  rw [Placed, Placed, ← h.housed_iff]
  by_cases hhoused : Housed s.disk id
  · exact ⟨fun _ => .inl hhoused, fun _ => .inl hhoused⟩
  · exact or_congr_right (h.ghosts journal hhoused)

/-- Streams with the same behind them have the same files. -/
theorem contents_eq (h : Alike s s' streams torn torn) (id : StreamId) : s.contents id = s'.contents id := by
  by_cases hid : Usable id
  · rw [h.left.contents_eq hid, h.right.contents_eq hid]
  · rw [h.left.contents_unusable hid, h.right.contents_unusable hid]

/-- Opening journals and changing the system's clock are nothing to likeness. -/
theorem congr (h : Alike s s' streams torn torn') {t t' : Durable} (hdisk : t.disk = s.disk)
    (htails : t.tails = s.tails) (hdisk' : t'.disk = s'.disk) (htails' : t'.tails = s'.tails) :
    Alike t t' streams torn torn' where
  left := h.left.congr hdisk htails
  right := h.right.congr hdisk' htails'
  directories := by
    rw [hdisk, hdisk']
    exact h.directories
  ghosts journal {id} hhoused := by
    rw [hdisk] at hhoused
    rw [remembered, remembered, htails, htails']
    exact h.ghosts journal hhoused

/-- After appends to one stream that took the same course. -/
theorem moved (h : Alike s s' streams torn torn') {t t' : Durable} {id : StreamId}
    {streams' : StreamId → List Record} {after after' : StreamId → List UInt8}
    (hleft : Holds t streams' after) (hright : Holds t' streams' after') (hmoved : Moved s t id)
    (hmoved' : Moved s' t' id) : Alike t t' streams' after after' where
  left := hleft
  right := hright
  directories p hp := by rw [hmoved.houses p hp, hmoved'.houses p hp, h.directories p hp]
  ghosts journal {id'} hhoused := by
    have hne : id' ≠ id := fun he => hhoused (he ▸ hmoved.housed)
    have hbefore : ¬ Housed s.disk id' := fun hb => hhoused ((hmoved.houses _ rfl).2 (.inl hb))
    rw [hmoved.aside journal hne, hmoved'.aside journal hne]
    exact h.ghosts journal hbefore

/-- A journal that notes the same end of a stream on both. -/
theorem remember (h : Alike s s' streams torn torn') (journal : Nat) {id : StreamId} {tail : Tail}
    (hid : Usable id) (htail : Remembers (streams id) tail) :
    Alike (s.remember journal id tail) (s'.remember journal id tail) streams torn torn' where
  left := h.left.remember journal hid htail
  right := h.right.remember journal hid htail
  directories := h.directories
  ghosts j {i} hhoused := by
    rw [remembered_remember, remembered_remember]
    split
    · exact .rfl
    · exact h.ghosts j hhoused

theorem forget (h : Alike s s' streams torn torn') (journal : Nat) (id : StreamId) :
    Alike (s.forget journal id) (s'.forget journal id) streams torn torn' where
  left := h.left.forget journal id
  right := h.right.forget journal id
  directories := h.directories
  ghosts j {i} hhoused := by
    rw [remembered_forget, remembered_forget]
    split
    · exact .rfl
    · exact h.ghosts j hhoused

/-! ### The same responses -/

theorem readFrom_eq (h : Alike s s' streams torn torn') (id : StreamId) (start : Nat) :
    s.readFrom id start = s'.readFrom id start := by
  by_cases hid : Usable id
  · rw [h.left.readFrom_eq hid, h.right.readFrom_eq hid]
  · rw [readFrom_unusable hid, readFrom_unusable hid]

theorem byTag_eq (h : Alike s s' streams torn torn') (tag : String) : s.byTag tag = s'.byTag tag := by
  have hlisted : ∀ top : List String, directoriesIn s.disk ("streams" :: top) =
      directoriesIn s'.disk ("streams" :: top) := fun top =>
    directoriesIn_congr h.left.orderly h.right.orderly (h.directories _ rfl) fun _ => h.directories _ rfl
  have htagged : ∀ id, taggedIn s.disk tag id = taggedIn s'.disk tag id := fun id => by
    rw [taggedIn_eq_map, taggedIn_eq_map, h.readFrom_eq]
  rw [byTag_orderly h.left.orderly, byTag_orderly h.right.orderly]
  simp only [Layout.streamsDirectory, List.cons_append, hlisted, htagged]

/-- **An append** gets the same answer on both, and they are alike afterwards. -/
theorem append (h : Alike s s' streams torn torn') {r : Record} (hfits : r.sequenceNr < UInt64.size)
    (journal : Nat) :
    (s.append journal r).1 = (s'.append journal r).1 ∧
      ∃ streams' after after', Alike (s.append journal r).2 (s'.append journal r).2 streams' after after' ∧
        Mended torn after ∧ Mended torn' after' := by
  by_cases hid : Usable r.stream
  case neg =>
    rw [append_unusable hid, append_unusable hid]
    exact ⟨rfl, streams, torn, torn', h, .refl _, .refl _⟩
  by_cases hplaced : Placed s journal r.stream
  · have hplaced' := (h.placed_iff journal r.stream).1 hplaced
    by_cases hnext : r.sequenceNr = (streams r.stream).length + 1
    · obtain ⟨t, happend, hholds, hmoved⟩ := h.left.append_taken hid hfits hplaced hnext
      obtain ⟨t', happend', hholds', hmoved'⟩ := h.right.append_taken hid hfits hplaced' hnext
      rw [happend, happend']
      exact ⟨rfl, _, _, _, h.moved hholds hholds' hmoved hmoved', mended_mend _ _, mended_mend _ _⟩
    · obtain ⟨e, he⟩ := checkNext_error hnext
      obtain ⟨t, happend, hholds, hmoved⟩ := h.left.append_refused hid hplaced he
      obtain ⟨t', happend', hholds', hmoved'⟩ := h.right.append_refused hid hplaced' he
      rw [happend, happend']
      exact ⟨rfl, _, _, _, h.moved hholds hholds' hmoved hmoved', .refl _, .refl _⟩
  · have hplaced' := mt (h.placed_iff journal r.stream).2 hplaced
    have hempty := (h.left.unwritten hid fun hhoused => hplaced (.inl hhoused)).2.2
    have htail : Remembers (streams r.stream) ⟨0, 0⟩ := by
      rw [hempty]
      exact remembers_all []
    rw [h.left.append_lost hid hplaced, h.right.append_lost hid hplaced']
    cases checkNext r 0 with
    | error e => exact ⟨rfl, _, _, _, h.remember journal hid htail, .refl _, .refl _⟩
    | ok _ => exact ⟨rfl, _, _, _, h.forget journal r.stream, .refl _, .refl _⟩

/-- **One operation**: the responses are the same, and likeness goes on. -/
theorem step (h : Alike s s' streams torn torn') {op : Operation} (hop : op.Fits) :
    (op.act s).1 = (op.act s').1 ∧
      ∃ streams' after after', Alike (op.act s).2 (op.act s').2 streams' after after' ∧
        Mended torn after ∧ Mended torn' after' := by
  cases op with
  | append journal r =>
    obtain ⟨hanswer, hafter⟩ := h.append hop journal
    exact ⟨congrArg Response.taken hanswer, hafter⟩
  | readFrom id start =>
    exact ⟨congrArg Response.records (h.readFrom_eq id start), streams, torn, torn', h, .refl _, .refl _⟩
  | highest journal id =>
    by_cases hid : Usable id
    · rw [Operation.act, Operation.act, h.left.highest_eq hid, h.right.highest_eq hid]
      exact ⟨rfl, _, _, _, h.remember journal hid (remembers_all _), .refl _, .refl _⟩
    · rw [Operation.act, Operation.act, highest_unusable hid, highest_unusable hid]
      exact ⟨rfl, _, _, _, h, .refl _, .refl _⟩
  | byTag tag => exact ⟨congrArg Response.tagged (h.byTag_eq tag), streams, torn, torn', h, .refl _, .refl _⟩
  | openNew => exact ⟨rfl, _, _, _, h.congr rfl rfl rfl rfl, .refl _, .refl _⟩
  | setSeconds seconds => exact ⟨rfl, _, _, _, h.congr rfl rfl rfl rfl, .refl _, .refl _⟩

theorem run (h : Alike s s' streams torn torn') {ops : List Operation} (hops : ∀ op ∈ ops, op.Fits) :
    Operation.responses s ops = Operation.responses s' ops ∧
      ∃ streams' after after', Alike (Operation.after s ops) (Operation.after s' ops) streams' after after' ∧
        Mended torn after ∧ Mended torn' after' := by
  induction ops generalizing s s' streams torn torn' with
  | nil => exact ⟨rfl, _, _, _, h, .refl _, .refl _⟩
  | cons op rest ih =>
    obtain ⟨hresponse, _, _, _, hafter, hmended, hmended'⟩ := h.step (hops op (List.mem_cons_self ..))
    obtain ⟨hresponses, _, _, _, hfinal, hmore, hmore'⟩ := ih hafter fun op' hop' => hops op' (List.mem_cons_of_mem _ hop')
    refine ⟨?_, _, _, _, hfinal, hmended.trans hmore, hmended'.trans hmore'⟩
    rw [Operation.responses, Operation.responses, hresponse, hresponses]

end Alike

/-- Over an empty disk nothing is ever left behind a stream. -/
theorem holds_after {ops : List Operation} (hops : ∀ op ∈ ops, op.Fits) :
    ∃ streams, Holds (Operation.after (.onDisk .empty) ops) streams fun _ => [] := by
  obtain ⟨-, streams, torn, _, halike, hmended, -⟩ := Holds.fresh.alike.run hops
  have htorn : torn = fun _ => [] := funext fun id => (hmended id).elim (fun h => h) fun h => h
  exact ⟨streams, htorn ▸ halike.left⟩

end Durable

end CartLedger.Journal
