import CartLedger.Proofs.Json.Canonical
import CartLedger.Proofs.Storage.Registry
import Mathlib.Data.List.Forall2

/-! What the registry says, line by line.

A line enters a stream if it is an object with the stream's type and its id, whatever else it
holds, so it enters no other stream (`Enters.unique`). An entry that is written is such a line,
whatever has to be escaped in it (`enters_lineOf`). To ensure a stream is to look for a line that
enters it and to add one if there is none, and that is all that happens to the registry
(`ensure_inv`). -/
namespace CartLedger.Storage.Registry
open CartLedger.Json (Document)
open CartLedger.Text
open Layout

variable {id id' : StreamId} {line : List UInt8}

/-! ### Lines -/

/-- The line is an object with the stream's type and its id. -/
def Enters (line : List UInt8) (id : StreamId) : Prop :=
  ∃ cs v, Utf8.decode? line = some cs ∧ (Document.ofGlyphs (cs.map some)).toJson? = some v ∧
    v.member? "type" = some (.text id.entityType) ∧ v.member? "id" = some (.text id.entityId)

theorem Enters.unique (h : Enters line id) (h' : Enters line id') : id = id' := by
  obtain ⟨cs, v, hcs, hv, htype, hid⟩ := h
  obtain ⟨cs', v', hcs', hv', htype', hid'⟩ := h'
  obtain rfl := Option.some.inj (hcs.symm.trans hcs')
  obtain rfl := Option.some.inj (hv.symm.trans hv')
  cases id
  cases id'
  congr 1
  · exact Json.text.inj (Option.some.inj (htype.symm.trans htype'))
  · exact Json.text.inj (Option.some.inj (hid.symm.trans hid'))

theorem text?_eq_some {v : Json} {s : String} : Json.text? v = some s ↔ v = .text s := by
  cases v <;> simp [Json.text?]

theorem names_iff {cs : List Char} (h : Utf8.decode? line = some cs) : names id cs ↔ Enters line id := by
  have hmember : ∀ (v : Json) (key s : String), (v.member? key).bind Json.text? = some s ↔
      v.member? key = some (.text s) := fun v key s => by
    rw [Option.bind_eq_some_iff]
    simp only [text?_eq_some, exists_eq_right]
  rw [names]
  cases hv : (Document.ofGlyphs (cs.map some)).toJson? with
  | none =>
    refine iff_of_false Bool.false_ne_true ?_
    rintro ⟨cs', v, hcs, hv', -⟩
    obtain rfl := Option.some.inj (h.symm.trans hcs)
    rw [hv] at hv'
    cases hv'
  | some v =>
    simp only [Bool.and_eq_true, decide_eq_true_eq, hmember]
    constructor
    · exact fun hboth => ⟨cs, v, h, hv, hboth⟩
    · rintro ⟨cs', v', hcs, hv', hboth⟩
      obtain rfl := Option.some.inj (h.symm.trans hcs)
      obtain rfl := Option.some.inj (hv.symm.trans hv')
      exact hboth

/-- A search that comes to an end has found a line if there is one. -/
theorem of_search {b : Bool} {ls : List (List UInt8)} (h : search id ls = .ok b) :
    b = true ↔ ∃ line ∈ ls, Enters line id := by
  induction ls with
  | nil =>
    obtain rfl := Except.ok.inj h
    simp
  | cons l rest ih =>
    rw [search] at h
    split at h
    · cases h
    · next cs hcs =>
      simp only [List.mem_cons, exists_eq_or_imp, ← names_iff hcs]
      split at h
      · next hnames =>
        obtain rfl := Except.ok.inj h
        exact iff_of_true rfl (.inl hnames)
      · next hnames => rw [ih h, or_iff_right hnames]

/-- The value that is written for a stream. -/
def value (id : StreamId) (seconds : Nat) : Json :=
  .object [("id", .text id.entityId), ("ts", .natural seconds), ("type", .text id.entityType)]

/-- The line of an entry. -/
def lineOf (id : StreamId) (seconds : Nat) : List UInt8 := Utf8.encode (value id seconds).compact

theorem entry_eq_lineOf (id : StreamId) (seconds : Nat) : entry id seconds = lineOf id seconds ++ [Lines.newline] :=
  Utf8.encode_append _ _

/-- **What is entered is read back**, whatever has to be escaped in it. -/
theorem enters_lineOf {seconds : Nat} (hseconds : seconds < UInt64.size) (id : StreamId) :
    Enters (lineOf id seconds) id := by
  have hwhole : Json.Whole (value id seconds) := ⟨trivial, Json.whole_natural hseconds, trivial, trivial⟩
  have hdepth : (value id seconds).depth ≤ Json.Draft.depthLimit := by
    show _ ≤ 127
    simp only [value, Json.depth, Json.depthMembers, Json.natural]
    omega
  refine ⟨_, (value id seconds).canonical, Utf8.decode?_encode _, ?_, rfl, rfl⟩
  rw [Document.ofGlyphs_renders (Json.renders_compact _), Json.Draft.printed_whole hwhole]
  exact Json.Draft.toJson?_ofJson _ hdepth

/-! ### The registry as a file -/

/-- What the registry holds; nothing if there is none. -/
def content (d : Disk) : List UInt8 :=
  match d.find? registryFile with
  | some (.file bytes) => bytes
  | _ => []

/-- The lines of the registry. -/
def lines (d : Disk) : List (List UInt8) := Lines.all (content d)

theorem content_congr {d d' : Disk} (h : d'.find? registryFile = d.find? registryFile) : content d' = content d := by
  rw [content, content, h]

theorem content_of_find? {d : Disk} {bytes : List UInt8} (h : d.find? registryFile = some (.file bytes)) :
    content d = bytes := by
  rw [content, h]

theorem content_of_missing {d : Disk} (h : d.read registryFile = .error .missing) : content d = [] := by
  rw [Disk.read, Disk.look] at h
  rw [content]
  cases hfind : d.find? registryFile with
  | none => rfl
  | some e =>
    rw [hfind] at h
    cases e <;> cases h

/-- What is looked for is looked for in the lines. -/
theorem search_of_holds {d : Disk} {b : Bool} (h : holds d id = .ok b) : search id (lines d) = .ok b := by
  rw [holds] at h
  rw [lines]
  split at h
  · next bytes hread => rwa [content_of_find? (Disk.find?_of_read hread)]
  · next hread =>
    rw [content_of_missing hread]
    exact h
  · cases h

theorem content_append {d d' : Disk} {more : List UInt8} (h : d.append registryFile more = .ok d') :
    content d' = content d ++ more := by
  have hfile : ∀ {bytes}, d.write registryFile bytes = .ok d' → content d' = bytes := fun {bytes} hwrite => by
    obtain rfl := Disk.write_ok hwrite
    exact content_of_find? ((Disk.find?_put leaf_registryFile.ne_root _ _).trans (if_pos rfl))
  rw [Disk.append] at h
  split at h
  · next old hread => rw [hfile h, content_of_find? (Disk.find?_of_read hread)]
  · next hread => rw [hfile h, content_of_missing hread, List.nil_append]
  · cases h

theorem content_of_make {d d' : Disk} {p : Path} (h : d.makeDirectories p = .ok d') (hp : ¬ registryFile <+: p) :
    content d' = content d := content_congr (Disk.find?_beside_make h hp)

theorem above_meta {q : Path} (hq : q <+: metaDirectory) : q = [] ∨ q = metaDirectory := by
  have hend : q <+: [] ++ ["meta"] := hq
  obtain hself | habove := List.prefix_concat_iff.1 hend
  · exact .inr hself
  · exact .inl (List.prefix_nil.1 habove)

theorem registryFile_not_above_stream (id : StreamId) : ¬ registryFile <+: entityPath "streams" id := by
  rintro ⟨rest, hrest⟩
  exact absurd (List.cons.inj hrest).1 (by decide)

theorem registryFile_not_above_meta : ¬ registryFile <+: metaDirectory :=
  fun h => absurd h.length_le (by decide)

/-- To ensure a stream is to look for it once there is the registry's directory, and to add an
entry if it is not found. When it fails the registry is as it was. -/
theorem ensure_cases {d d' : Disk} {seconds : Nat} {result : Except StorageError Path}
    (h : ensure id seconds d = (result, d')) :
    (∃ e, result = .error e) ∧ content d' = content d ∨
      ∃ d₁ b, content d₁ = content d ∧ d₁.find? metaDirectory = some .directory ∧ holds d₁ id = .ok b ∧
        if b then d' = d₁ else d₁.append registryFile (entry id seconds) = .ok d' := by
  by_cases hid : Usable id
  · rw [ensure, Layout.streamDirectory, entityDirectory_ok hid] at h
    dsimp only at h
    split at h
    · obtain ⟨rfl, rfl⟩ := Prod.mk.inj h
      exact .inl ⟨⟨_, rfl⟩, rfl⟩
    · next d₁ hmake₁ =>
      have hsame₁ := content_of_make hmake₁ (registryFile_not_above_stream id)
      split at h
      · obtain ⟨rfl, rfl⟩ := Prod.mk.inj h
        exact .inl ⟨⟨_, rfl⟩, hsame₁⟩
      · next d₂ hmake₂ =>
        have hsame := (content_of_make hmake₂ registryFile_not_above_meta).trans hsame₁
        have hmeta := Disk.find?_of_make hmake₂
        split at h
        · obtain ⟨rfl, rfl⟩ := Prod.mk.inj h
          exact .inl ⟨⟨_, rfl⟩, hsame⟩
        · next hholds => exact .inr ⟨d₂, true, hsame, hmeta, hholds, (Prod.mk.inj h).2.symm⟩
        · next hholds =>
          split at h
          · obtain ⟨rfl, rfl⟩ := Prod.mk.inj h
            exact .inl ⟨⟨_, rfl⟩, hsame⟩
          · next d₃ happend =>
            obtain ⟨-, rfl⟩ := Prod.mk.inj h
            exact .inr ⟨d₂, false, hsame, hmeta, hholds, happend⟩
  · rw [ensure, Layout.streamDirectory, entityDirectory_refused hid] at h
    obtain ⟨rfl, rfl⟩ := Prod.mk.inj h
    exact .inl ⟨⟨_, rfl⟩, rfl⟩

/-- What happens to the registry when a stream is ensured. -/
theorem content_of_ensure {d d' : Disk} {seconds : Nat} {result : Except StorageError Path}
    (h : ensure id seconds d = (result, d')) :
    (∃ e, result = .error e) ∧ content d' = content d ∨
      ∃ b, search id (lines d) = .ok b ∧ content d' = if b then content d else content d ++ entry id seconds := by
  refine (ensure_cases h).imp_right ?_
  rintro ⟨d₁, b, hsame, -, hholds, hdone⟩
  have hlines : lines d₁ = lines d := congrArg Lines.all hsame
  refine ⟨b, hlines ▸ search_of_holds hholds, ?_⟩
  cases b with
  | true => exact (congrArg content hdone).trans hsame
  | false => exact (content_append hdone).trans (congrArg (· ++ entry id seconds) hsame)

/-- **A line is added unless one is found**, whatever is in the registry. -/
theorem ensure_inv {d d' : Disk} {seconds : Nat} {p : Path} (h : ensure id seconds d = (.ok p, d')) :
    ∃ b, search id (lines d) = .ok b ∧ content d' = if b then content d else content d ++ entry id seconds := by
  obtain ⟨⟨e, he⟩, -⟩ | hdone := content_of_ensure h
  · cases he
  · exact hdone

/-- Some line of the registry enters the stream. -/
def Entered (d : Disk) (id : StreamId) : Prop := ∃ line ∈ lines d, Enters line id

/-- A stream that is entered is not entered again. -/
theorem content_of_entered {d : Disk} (h : Entered d id) (seconds : Nat) :
    content (ensure id seconds d).2 = content d := by
  obtain ⟨-, hsame⟩ | ⟨b, hsearch, hcontent⟩ := content_of_ensure (Prod.eta (ensure id seconds d)).symm
  · exact hsame
  · rwa [if_pos ((of_search hsearch).2 h)] at hcontent

/-- The registry's directory is made with the stream's. -/
theorem find?_meta_of_ensure {d d' : Disk} {seconds : Nat} {p : Path} (h : ensure id seconds d = (.ok p, d')) :
    d'.find? metaDirectory = some .directory := by
  obtain ⟨⟨e, he⟩, -⟩ | ⟨d₁, b, -, hmeta, -, hdone⟩ := ensure_cases h
  · cases he
  · cases b with
    | true => exact hdone ▸ hmeta
    | false =>
      obtain ⟨bytes, hwrite⟩ := Disk.append_ok hdone
      obtain rfl := Disk.write_ok hwrite
      have hne : registryFile ≠ metaDirectory := by decide
      rw [Disk.find?_put leaf_registryFile.ne_root, if_neg hne, hmeta]

/-! ### Lists of streams -/

/-- The registry has exactly one line for each of the streams, in their order. -/
def Lists (d : Disk) (ids : List StreamId) : Prop :=
  ∃ ls, content d = Lines.joined ls ∧ (∀ line ∈ ls, Lines.Plain line) ∧ List.Forall₂ Enters ls ids

theorem Lists.congr {d d' : Disk} {ids : List StreamId} (h : Lists d ids)
    (hfile : d'.find? registryFile = d.find? registryFile) : Lists d' ids := by
  rw [Lists, content_congr hfile]
  exact h

/-- The list with a stream that is used. -/
def enlist (ids : List StreamId) (id : StreamId) : List StreamId := if id ∈ ids then ids else ids ++ [id]

theorem exists_enters_iff {ls : List (List UInt8)} {ids : List StreamId} (h : List.Forall₂ Enters ls ids) :
    (∃ line ∈ ls, Enters line id) ↔ id ∈ ids := by
  induction h with
  | nil => simp
  | @cons l i ls ids henters _ ih =>
    have hhead : Enters l id ↔ id = i := ⟨fun h => h.unique henters, fun h => h ▸ henters⟩
    simp only [List.mem_cons, exists_eq_or_imp, ih, hhead]

/-- **A stream is listed once**, however often it is ensured. -/
theorem Lists.ensure {d d' : Disk} {ids : List StreamId} (h : Lists d ids) {seconds : Nat}
    (hseconds : seconds < UInt64.size) {p : Path} (hensure : Registry.ensure id seconds d = (.ok p, d')) :
    Lists d' (enlist ids id) := by
  obtain ⟨ls, hcontent, hplain, hlists⟩ := h
  obtain ⟨b, hsearch, hcontent'⟩ := ensure_inv hensure
  rw [lines, hcontent, Lines.all_joined hplain] at hsearch
  have hb := (of_search hsearch).trans (exists_enters_iff hlists)
  rw [hcontent] at hcontent'
  by_cases hmem : id ∈ ids
  · rw [if_pos (hb.2 hmem)] at hcontent'
    rw [enlist, if_pos hmem]
    exact ⟨ls, hcontent', hplain, hlists⟩
  · rw [if_neg (mt hb.1 hmem), entry_eq_lineOf] at hcontent'
    rw [enlist, if_neg hmem]
    refine ⟨ls ++ [lineOf id seconds], ?_, ?_, List.rel_append hlists (.cons (enters_lineOf hseconds id) .nil)⟩
    · rw [hcontent', Lines.joined_append, Lines.joined_cons]
      rfl
    · intro line hline
      obtain hline | hline := List.mem_append.1 hline
      · exact hplain line hline
      · rw [List.mem_singleton.1 hline]
        exact Json.plain_compact _

end CartLedger.Storage.Registry
