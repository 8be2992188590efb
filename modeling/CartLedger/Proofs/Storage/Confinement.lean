import CartLedger.Proofs.Json.Records
import CartLedger.Proofs.Snapshot.Names
import CartLedger.Proofs.Storage.Refusal
import Mathlib.Data.List.Infix

/-! What can be reached on disk under an id.

Ids come from callers, and their parts become names of directories. Under an id whose parts
are not plain names nothing is reached: every operation refuses it before it looks at the
disk (`Access.refused`). Under any other an operation may change the file of the stream, files
among the stream's snapshots and the registry (`Owns`), and make the directories above them
(`Leads`). All else stays as it is, whatever is on the disk to begin with
(`Access.confined`), so what is there of one id does not depend on what is done to another
(`Confined.spares`). -/
namespace CartLedger.Storage
open CartLedger.Json (Decoder)

/-! ### Ids and paths -/

namespace Layout
variable {id other : StreamId}

/-- The files of an id, and the registry, in which all ids are entered. -/
inductive Owns (id : StreamId) : Path → Prop
  | events : Owns id (eventsPath id)
  | snapshot {name} (hname : isUsable name) : Owns id (entityPath "snapshots" id ++ [name])
  | registry : Owns id registryFile

/-- The directories above the files of an id. -/
def Leads (id : StreamId) (p : Path) : Prop :=
  p <+: entityPath "streams" id ∨ p <+: entityPath "snapshots" id ∨ p <+: metaDirectory

theorem Owns.ne_root {p : Path} (h : Owns id p) : p ≠ [] := by
  cases h <;> simp [eventsPath, registryFile]

/-- What leads to files is no file. -/
theorem Owns.not_leads {p : Path} (h : Owns id p) : ¬ Leads id p := by
  cases h <;> simp [Leads, eventsPath, entityPath, registryFile, metaDirectory]

theorem id_eq_of_append {top top' : String} {p q : Path} (h : entityPath top id ++ p = entityPath top' other ++ q) :
    other = id := by
  have hlength : (entityPath top id).length = (entityPath top' other).length := rfl
  have heq := (List.append_inj h hlength).1
  cases id
  cases other
  simp_all [entityPath]

/-- No file of an id is above or among what is in the directory of another. -/
theorem Owns.id_eq {top : String} (htop : top ≠ "meta") {p rest : Path} (h : Owns id p)
    (hp : p <+: entityPath top other ++ rest) : other = id := by
  obtain ⟨more, hmore⟩ := hp
  cases h with
  | events => exact id_eq_of_append ((List.append_assoc ..).symm.trans hmore)
  | snapshot => exact id_eq_of_append ((List.append_assoc ..).symm.trans hmore)
  | registry => exact absurd (List.cons.inj hmore).1.symm htop

theorem Leads.id_eq {top : String} {rest : Path} (h : Leads id (entityPath top other ++ rest)) : other = id := by
  have hentity : ∀ top', entityPath top other ++ rest <+: entityPath top' id → other = id := by
    rintro top' ⟨more, hmore⟩
    rw [List.append_assoc] at hmore
    exact (id_eq_of_append (hmore.trans (List.append_nil _).symm)).symm
  rcases h with h | h | h
  · exact hentity _ h
  · exact hentity _ h
  · have hlength := h.length_le
    simp [entityPath, metaDirectory] at hlength

/-- No character of the text ends a name. -/
def Plain (cs : List Char) : Bool := cs.all fun c => c ≠ '/' ∧ c ≠ '\\' ∧ c ≠ '\x00'

theorem plain_iff {cs : List Char} : Plain cs ↔ ∀ c ∈ cs, c ≠ '/' ∧ c ≠ '\\' ∧ c ≠ '\x00' := by
  rw [Plain, List.all_eq_true]
  simp only [decide_eq_true_eq]

/-- The names that cannot be used begin the one for the directory above, or hold a character
that ends names. -/
theorem isUsable_iff {name : String} : isUsable name ↔ ¬ name.toList <+: ['.', '.'] ∧ Plain name.toList := by
  have hshort : name.toList <+: ['.', '.'] ↔ name = "" ∨ name = "." ∨ name = ".." := by
    rw [← List.mem_inits, ← String.toList_inj, ← String.toList_inj, ← String.toList_inj]
    simp only [List.inits, List.map_cons, List.map_nil, List.mem_cons, List.not_mem_nil, or_false]
    rfl
  rw [hshort, isUsable, decide_eq_true_eq, Plain]
  tauto

/-- Different ids have different directories, as they are shown too. -/
theorem shown_entityPath_inj {base top : String} (h : Usable id)
    (heq : (entityPath top id).shown base = (entityPath top other).shown base) : id = other := by
  have hslash : ∀ {name}, isUsable name → '/' ∉ name.toList := fun hname hmem =>
    (plain_iff.1 (isUsable_iff.1 hname).2 '/' hmem).1 rfl
  have hchars := congrArg String.toList heq
  simp only [Path.shown, entityPath, String.toList_intercalate, List.map_cons, List.map_nil,
    List.intercalate_cons_cons, List.intercalate_singleton, List.append_assoc, List.append_cancel_left_eq] at hchars
  -- The type ends at the only slash that is left.
  obtain ⟨htype, -, hid⟩ := (List.append_cons_inj_of_notMem (hslash h.1) (hslash h.2)).1 hchars
  cases id
  cases other
  exact congr (congrArg StreamId.mk (String.toList_inj.1 htype)) (String.toList_inj.1 hid)

theorem entityDirectory_apart (h : Usable id) (h' : Usable other) (hne : id ≠ other) (top base : String) :
    ∃ p q, entityDirectory top id = .ok p ∧ entityDirectory top other = .ok q ∧ p.shown base ≠ q.shown base :=
  ⟨_, _, entityDirectory_ok h top, entityDirectory_ok h' top, fun heq => hne (shown_entityPath_inj h heq)⟩

/-- A usable name stays usable when it goes on. -/
theorem isUsable_append {name more : String} (h : isUsable name) (hmore : Plain more.toList) :
    isUsable (name ++ more) := by
  rw [isUsable_iff] at h ⊢
  rw [String.toList_append]
  refine ⟨fun hshort => h.1 ((List.prefix_append _ _).trans hshort), ?_⟩
  rw [Plain, List.all_append, ← Plain, ← Plain, h.2, hmore]
  rfl

end Layout

open Layout (Usable Owns Leads entityPath eventsPath registryFile metaDirectory refusal)

/-! ### Confined changes -/

/-- What may become of a disk under an id. -/
structure Confined (id : StreamId) (d d' : Disk) : Prop where
  /-- Nothing, if the id cannot be used. -/
  refused : ¬ Usable id → d' = d
  /-- What is another is a file of the id, and was one if it was there; or it is a directory
  that was made on the way to such a file. -/
  changed : ∀ p, d'.find? p = d.find? p ∨
    (Owns id p ∧ d.find? p ≠ some .directory ∧ d'.find? p ≠ some .directory) ∨
    (Leads id p ∧ d.find? p = none ∧ d'.find? p = some .directory)
  /-- Directories that have nothing to do with the id are listed as before. -/
  listed : ∀ p, (∀ name, ¬ Owns id (p ++ [name]) ∧ ¬ Leads id (p ++ [name])) →
    d'.entries.filterMap (Disk.nameIn p) = d.entries.filterMap (Disk.nameIn p)

namespace Confined
variable {id other : StreamId} {d d' d'' : Disk} {p : Path} {bytes : List UInt8}

theorem refl (id : StreamId) (d : Disk) : Confined id d d := ⟨fun _ => rfl, fun _ => .inl rfl, fun _ _ => rfl⟩

theorem trans (h : Confined id d d') (h' : Confined id d' d'') : Confined id d d'' where
  refused hid := (h'.refused hid).trans (h.refused hid)
  changed p := by
    rcases h'.changed p with hsame | ⟨howns, hbefore, hafter⟩ | ⟨hleads, hbefore, hafter⟩
    · rw [hsame]
      exact h.changed p
    · rcases h.changed p with hsame | ⟨-, hbefore', -⟩ | ⟨hleads, -, -⟩
      · exact .inr (.inl ⟨howns, hsame ▸ hbefore, hafter⟩)
      · exact .inr (.inl ⟨howns, hbefore', hafter⟩)
      · exact absurd hleads howns.not_leads
    · rcases h.changed p with hsame | ⟨howns, -, -⟩ | ⟨-, -, hmade⟩
      · exact .inr (.inr ⟨hleads, hsame ▸ hbefore, hafter⟩)
      · exact absurd hleads howns.not_leads
      · rw [hbefore] at hmade
        cases hmade
  listed p hp := (h'.listed p hp).trans (h.listed p hp)

/-! ### On a disk -/

theorem write (hid : Usable id) (hp : Owns id p) (h : d.write p bytes = .ok d') : Confined id d d' where
  refused hnot := absurd hid hnot
  changed q := by
    rw [Disk.write_ok h, Disk.find?_put hp.ne_root]
    split
    · next heq =>
      refine .inr (.inl ⟨heq ▸ hp, heq ▸ Disk.not_directory_of_write h, fun hdir => ?_⟩)
      cases hdir
    · exact .inl rfl
  listed q hq := by
    rw [Disk.write_ok h]
    exact Disk.filterMap_nameIn_put (fun name heq => (hq name).1 (heq ▸ hp)) _

theorem erase (hid : Usable id) (hp : Owns id p) (h : d.find? p ≠ some .directory) : Confined id d (d.erase p) where
  refused hnot := absurd hid hnot
  changed q := by
    rw [Disk.find?_erase hp.ne_root]
    split
    · next heq =>
      refine .inr (.inl ⟨heq ▸ hp, heq ▸ h, fun hdir => ?_⟩)
      cases hdir
    · exact .inl rfl
  listed q hq := Disk.filterMap_nameIn_erase fun name heq => (hq name).1 (heq ▸ hp)

theorem append (hid : Usable id) (hp : Owns id p) {more : List UInt8} (h : d.append p more = .ok d') :
    Confined id d d' := by
  obtain ⟨_, hwrite⟩ := Disk.append_ok h
  exact write hid hp hwrite

theorem remove (hid : Usable id) (hp : Owns id p) (h : d.remove p = .ok d') : Confined id d d' := by
  obtain ⟨_, hfile⟩ := Disk.file_of_remove h
  rw [Disk.remove_ok h]
  exact erase hid hp fun hdir => by rw [hfile] at hdir; cases hdir

theorem rename (hid : Usable id) {source target : Path} (hsource : Owns id source) (htarget : Owns id target)
    (h : d.rename source target = .ok d') : Confined id d d' := by
  obtain ⟨bytes, d₁, hread, hwrite, rfl⟩ := Disk.rename_ok h
  refine (write hid htarget hwrite).trans (erase hid hsource fun hdir => ?_)
  rw [Disk.write_ok hwrite, Disk.find?_put htarget.ne_root, Disk.find?_of_read hread] at hdir
  split at hdir <;> cases hdir

theorem withDirectories (hid : Usable id) {ps : List Path} (hps : ∀ p ∈ ps, Leads id p) :
    Confined id d (d.withDirectories ps) where
  refused hnot := absurd hid hnot
  changed q := by
    rw [Disk.find?_withDirectories]
    cases hfind : d.find? q with
    | some e => exact .inl rfl
    | none =>
      by_cases hq : q ∈ ps
      · exact .inr (.inr ⟨hps q hq, rfl, by rw [if_pos hq]; rfl⟩)
      · exact .inl (by rw [if_neg hq]; rfl)
  listed q hq := by
    induction ps generalizing d with
    | nil => rfl
    | cons p ps ih =>
      have hrest := fun d => ih (d := d) fun p hp => hps p (List.mem_cons_of_mem _ hp)
      rw [Disk.withDirectories_cons, hrest]
      split
      · rfl
      · have hp := hps p (List.mem_cons_self ..)
        exact Disk.filterMap_nameIn_put (fun name heq => (hq name).2 (heq ▸ hp)) _

theorem makeDirectories (hid : Usable id) (hp : ∀ q, q <+: p → Leads id q) (h : d.makeDirectories p = .ok d') :
    Confined id d d' := by
  rw [Disk.withDirectories_of_make h]
  exact withDirectories hid fun q hq => hp q (Disk.mem_stations.1 hq)

/-! ### Under an id -/

theorem ensure (id : StreamId) (seconds : Nat) (d : Disk) : Confined id d (Registry.ensure id seconds d).2 := by
  by_cases hid : Usable id
  · rw [Registry.ensure, Layout.streamDirectory, Layout.entityDirectory_ok hid]
    dsimp only
    split
    · exact refl id d
    · next d₁ hstreams =>
      have h₁ : Confined id d d₁ := makeDirectories hid (fun q hq => .inl hq) hstreams
      split
      · exact h₁
      · next d₂ hmeta =>
        have h₂ : Confined id d d₂ := h₁.trans (makeDirectories hid (fun q hq => .inr (.inr hq)) hmeta)
        split
        · exact h₂
        · exact h₂
        · split
          · exact h₂
          · next d₃ henter => exact h₂.trans (append hid .registry henter)
  · rw [Registry.ensure_unusable hid]
    exact refl id d

theorem placeRecord (hid : Usable id) {tail : Journal.Tail} {r : Record}
    (h : Journal.Durable.place (eventsPath id) tail r d = .ok d') : Confined id d d' := by
  have hwrite : ∀ {bytes}, Registry.system (d.write (eventsPath id) bytes) = .ok d' → Confined id d d' := by
    intro bytes hsystem
    cases hwrite : d.write (eventsPath id) bytes with
    | error t => rw [hwrite] at hsystem; cases hsystem
    | ok d₁ => rw [hwrite] at hsystem; exact write hid .events (hwrite.trans (congrArg _ (Except.ok.inj hsystem)))
  rw [Journal.Durable.place] at h
  split at h
  · exact hwrite h
  · exact hwrite h
  · cases h

theorem appendRecord (s : Files) (journal : Nat) (r : Record) :
    Confined r.stream s.disk (s.append journal r).2.disk := by
  by_cases hid : Usable r.stream
  · obtain ⟨begun, d, hbegin⟩ : ∃ begun d, (if (s.remembered journal r.stream).isSome then (Except.ok [], s.disk)
        else Registry.ensure r.stream s.seconds s.disk) = (begun, d) := ⟨_, _, rfl⟩
    have hbegun : Confined r.stream s.disk d := by
      split at hbegin
      · rw [← (Prod.mk.inj hbegin).2]
        exact refl ..
      · have hensure := ensure r.stream s.seconds s.disk
        rwa [hbegin] at hensure
    simp only [Journal.Durable.append, hbegin, Layout.eventsFile_ok hid]
    split
    · exact hbegun
    · next heq => cases heq
    · next hfile =>
      obtain rfl := Except.ok.inj hfile
      split
      · exact hbegun
      · next tail _ =>
        split
        · exact hbegun
        · split
          · exact hbegun
          · next hplace => exact hbegun.trans (placeRecord hid hplace)
  · rw [Journal.Durable.append_unusable hid]
    exact refl ..

/-- The name of a snapshot's file is plain, and so is the temporary one. -/
theorem owns_snapshot (id : StreamId) (n : Nat) :
    Owns id (entityPath "snapshots" id ++ [Snapshot.Durable.fileName n]) ∧
      Owns id (entityPath "snapshots" id ++ [Snapshot.Durable.temporaryName n]) := by
  have hdigits : Layout.Plain (String.ofList (Text.Decimal.padded 20 n)).toList := by
    rw [String.toList_ofList, Layout.plain_iff]
    intro c hc
    have hdigit := Text.Decimal.isDigit_of_mem_padded hc
    refine ⟨?_, ?_, ?_⟩ <;> exact fun he => absurd (he ▸ hdigit) (by decide)
  have hname : Layout.isUsable (Snapshot.Durable.fileName n) :=
    Layout.isUsable_append (Layout.isUsable_append (by decide) hdigits) (by decide)
  exact ⟨.snapshot hname, .snapshot (Layout.isUsable_append hname (by decide))⟩

theorem prune (hid : Usable id) (upto : Nat) (numbers : List Nat) (d : Disk) :
    Confined id d (Snapshot.Durable.prune (entityPath "snapshots" id) upto numbers d).2 := by
  induction numbers generalizing d with
  | nil => exact refl id d
  | cons n rest ih =>
    rw [Snapshot.Durable.prune]
    split
    · split
      · exact refl id d
      · next d₁ hremove => exact (remove hid (owns_snapshot id n).1 hremove).trans (ih d₁)
    · exact ih d

theorem placeSnapshot (hid : Usable id) (n : Nat) (bytes : List UInt8) (d : Disk) :
    Confined id d (Snapshot.Durable.place (entityPath "snapshots" id) n bytes d).2 := by
  obtain ⟨hfile, htemporary⟩ := owns_snapshot id n
  unfold Snapshot.Durable.place
  split
  · exact refl id d
  · next d₁ hmake =>
    have h₁ : Confined id d d₁ := makeDirectories hid (fun q hq => .inr (.inl hq)) hmake
    dsimp only
    split
    · exact h₁
    · next d₂ hwrite =>
      have h₂ := h₁.trans (write hid htemporary hwrite)
      split
      · exact h₂
      · next d₃ hrename => exact h₂.trans (rename hid htemporary hfile hrename)

theorem save (id : StreamId) (snapshot : Snapshot Json) (retention : Retention) (d : Disk) :
    Confined id d (Snapshot.Durable.save d id snapshot retention).2 := by
  by_cases hid : Usable id
  · have hplace := placeSnapshot hid snapshot.sequenceNr (Snapshot.Durable.bytesOf snapshot) d
    rw [Snapshot.Durable.save, Layout.snapshotDirectory, Layout.entityDirectory_ok hid]
    dsimp only
    split
    · next heq =>
      rwa [heq] at hplace
    · next d₁ heq =>
      rw [heq] at hplace
      split
      · exact hplace
      · exact hplace.trans (prune hid ..)
  · rw [Snapshot.Durable.save_unusable hid]
    exact refl id d

end Confined

/-! ### Operations -/

/-- What can be done under an id. -/
inductive Access : Type 1
  | append (journal : Nat) (r : Record)
  | readFrom (id : StreamId) (start : Nat)
  | highest (journal : Nat) (id : StreamId)
  | streamDirectory (id : StreamId)
  | eventsFile (id : StreamId)
  | snapshotDirectory (id : StreamId)
  | ensure (id : StreamId)
  | save (id : StreamId) (snapshot : Snapshot Json) (retention : Retention)
  | load {α : Type} (id : StreamId) (state : Decoder α)

namespace Access

def id : Access → StreamId
  | append _ r => r.stream
  | readFrom id _ | highest _ id | streamDirectory id | eventsFile id | snapshotDirectory id | ensure id
  | save id _ _ | load id _ => id

/-- Whether it succeeds or why not, and what it leaves. -/
def act (s : Files) : Access → Except StorageError Unit × Files
  | append journal r => ((s.append journal r).1.map fun _ => (), (s.append journal r).2)
  | readFrom id start => ((s.readFrom id start).map fun _ => (), s)
  | highest journal id => ((s.highest journal id).1.map fun _ => (), (s.highest journal id).2)
  | streamDirectory id => ((Layout.streamDirectory id).map fun _ => (), s)
  | eventsFile id => ((Layout.eventsFile id).map fun _ => (), s)
  | snapshotDirectory id => ((Layout.snapshotDirectory id).map fun _ => (), s)
  | ensure id =>
    ((Registry.ensure id s.seconds s.disk).1.map fun _ => (),
      { s with disk := (Registry.ensure id s.seconds s.disk).2 })
  | save id snapshot retention => files.saveSnapshot id snapshot retention s
  | load id state => ((Snapshot.Durable.load s.disk id state).map fun _ => (), s)

/-- **An id that cannot be used is refused**, whatever is to be done under it. -/
theorem refused {access : Access} (hid : ¬ Usable access.id) (s : Files) :
    access.act s = (.error (refusal access.id), s) := by
  cases access <;> dsimp only [Access.id, act] at hid ⊢
  case append journal r => rw [Journal.Durable.append_unusable hid]; rfl
  case readFrom id start => rw [Journal.Durable.readFrom_unusable hid]; rfl
  case highest journal id => rw [Journal.Durable.highest_unusable hid]; rfl
  case streamDirectory id => rw [Layout.streamDirectory, Layout.entityDirectory_refused hid]; rfl
  case eventsFile id => rw [Layout.eventsFile_refused hid]; rfl
  case snapshotDirectory id => rw [Layout.snapshotDirectory, Layout.entityDirectory_refused hid]; rfl
  case ensure id => rw [Registry.ensure_unusable hid]; rfl
  case save id snapshot retention =>
    unfold files
    dsimp only
    rw [Snapshot.Durable.save_unusable hid]
  case load id state => rw [Snapshot.Durable.load_unusable hid]; rfl

/-- **What is done under an id stays with it.** -/
theorem confined (access : Access) (s : Files) : Confined access.id s.disk (access.act s).2.disk := by
  cases access with
  | append journal r => exact .appendRecord s journal r
  | highest journal id =>
    show Confined id s.disk (s.highest journal id).2.disk
    unfold Journal.Durable.highest
    split
    · exact .refl ..
    · split <;> exact .refl ..
  | ensure id => exact .ensure ..
  | save id snapshot retention => exact .save ..
  | _ => exact .refl ..

end Access

/-! ### Other ids -/

/-- What is there of an id is the same: its directories and files, its records and its
snapshots, in whatever form they are looked at. -/
structure Spares (id : StreamId) (s s' : Files) : Prop where
  entries : ∀ top ∈ ["streams", "snapshots"], ∀ rest,
    s'.disk.find? (entityPath top id ++ rest) = s.disk.find? (entityPath top id ++ rest)
  records : ∀ start, s'.readFrom id start = s.readFrom id start
  snapshots : ∀ {α : Type} (state : Decoder α),
    Snapshot.Durable.load s'.disk id state = Snapshot.Durable.load s.disk id state

namespace Confined
variable {id other : StreamId} {d d' : Disk} {s s' : Files} {top : String}

theorem find?_eq (h : Confined id d d') (hne : other ≠ id) (htop : top ≠ "meta") (rest : Path) :
    d'.find? (entityPath top other ++ rest) = d.find? (entityPath top other ++ rest) := by
  rcases h.changed (entityPath top other ++ rest) with hsame | ⟨howns, -, -⟩ | ⟨hleads, -, -⟩
  · exact hsame
  · exact absurd (howns.id_eq htop (List.prefix_refl _)) hne
  · exact absurd hleads.id_eq hne

/-- What is on the way to another id's files may have become a directory, but no file. -/
theorem throughFile_eq (h : Confined id d d') (hne : other ≠ id) (htop : top ≠ "meta") (rest : Path) :
    d'.throughFile (entityPath top other ++ rest) = d.throughFile (entityPath top other ++ rest) := by
  have hfile : ∀ q ∈ Disk.stations (entityPath top other ++ rest), d'.isFile q = d.isFile q := by
    intro q hq
    rcases h.changed q with hsame | ⟨howns, -, -⟩ | ⟨-, hbefore, hafter⟩
    · rw [Disk.isFile, hsame, Disk.isFile]
    · exact absurd (howns.id_eq htop (Disk.mem_stations.1 hq)) hne
    · rw [Disk.isFile, hafter, Disk.isFile, hbefore]
  rw [Disk.throughFile, Disk.throughFile, Bool.eq_iff_iff, List.any_eq_true, List.any_eq_true]
  exact exists_congr fun q => and_congr_right fun hq => by rw [hfile q hq]

theorem look_eq (h : Confined id d d') (hne : other ≠ id) (htop : top ≠ "meta") (rest : Path) :
    d'.look (entityPath top other ++ rest) = d.look (entityPath top other ++ rest) := by
  rw [Disk.look, Disk.look, h.find?_eq hne htop, h.throughFile_eq hne htop]

theorem read_eq (h : Confined id d d') (hne : other ≠ id) (htop : top ≠ "meta") (rest : Path) :
    d'.read (entityPath top other ++ rest) = d.read (entityPath top other ++ rest) := by
  rw [Disk.read, Disk.read, h.look_eq hne htop]

theorem names_eq (h : Confined id d d') (hne : other ≠ id) (htop : top ≠ "meta") :
    d'.names (entityPath top other) = d.names (entityPath top other) := by
  have hlook := h.look_eq hne htop []
  rw [List.append_nil] at hlook
  have hlisted := h.listed (entityPath top other) fun name =>
    ⟨fun howns => hne (howns.id_eq htop (List.prefix_refl _)), fun hleads => hne hleads.id_eq⟩
  rw [Disk.names, Disk.names, hlook]
  rcases d.look (entityPath top other) with t | (_ | bytes)
  · rfl
  · exact congrArg Except.ok hlisted
  · rfl

theorem firstLegible_eq {α : Type} (h : Confined id d d') (hne : other ≠ id) (state : Decoder α)
    (numbers : List Nat) : Snapshot.Durable.firstLegible d' (entityPath "snapshots" other) state numbers =
      Snapshot.Durable.firstLegible d (entityPath "snapshots" other) state numbers := by
  induction numbers with
  | nil => rfl
  | cons n rest ih =>
    rw [Snapshot.Durable.firstLegible, Snapshot.Durable.firstLegible, h.read_eq hne (by decide), ih]

/-- **What is done under one id leaves every other as it is.** -/
theorem spares (h : Confined id s.disk s'.disk) (hne : other ≠ id) : Spares other s s' where
  entries top htop rest := h.find?_eq hne (by rintro rfl; simp at htop) rest
  records start := by
    by_cases hother : Usable other
    · have hread : s'.disk.read (eventsPath other) = s.disk.read (eventsPath other) :=
        h.read_eq hne (by decide) ["events.jsonl"]
      rw [Journal.Durable.readFrom, Journal.Durable.readFrom, Layout.eventsFile_ok hother, Json.Decoder.ok_bind,
        Json.Decoder.ok_bind, Journal.Durable.readFile, Journal.Durable.readFile, Journal.Durable.intact,
        Journal.Durable.intact, hread]
    · rw [Journal.Durable.readFrom_unusable hother, Journal.Durable.readFrom_unusable hother]
  snapshots state := by
    by_cases hother : Usable other
    · have hlist : Snapshot.Durable.list s'.disk (entityPath "snapshots" other) =
          Snapshot.Durable.list s.disk (entityPath "snapshots" other) := by
        rw [Snapshot.Durable.list, Snapshot.Durable.list, h.names_eq hne (by decide)]
      rw [Snapshot.Durable.load, Snapshot.Durable.load, Layout.snapshotDirectory, Layout.entityDirectory_ok hother,
        Json.Decoder.ok_bind, Json.Decoder.ok_bind, hlist]
      simp only [h.firstLegible_eq hne]
    · rw [Snapshot.Durable.load_unusable hother, Snapshot.Durable.load_unusable hother]

end Confined

/-- What is done under an id has its bounds on disk, and is nothing to other ids. -/
structure Within (id : StreamId) (s s' : Files) : Prop where
  confined : Confined id s.disk s'.disk
  spares : ∀ other, other ≠ id → Spares other s s'

theorem Confined.within {id : StreamId} {s s' : Files} (h : Confined id s.disk s'.disk) : Within id s s' :=
  ⟨h, fun _ hne => h.spares hne⟩

end CartLedger.Storage
