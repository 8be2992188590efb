import CartLedger.Proofs.Json.Glued
import CartLedger.Proofs.Storage.Entering
import Mathlib.Data.List.DropRight

/-! Registries of any text, with or without a newline at the end.

An entry goes to the end of the registry as it is, so behind text without a newline it becomes a
part of that text's line. Such a line enters nothing, unless all that stood there was blank: the
stream is not entered, and if the text was an entry itself then that is lost (`settled_iff`). The
next time the stream is ensured it is entered on a line of its own (`settled_again`). -/
namespace CartLedger.Storage.Registry
open CartLedger.Json (Document Blanks)
open CartLedger.Text
open Layout

variable {d d' : Disk} {id : StreamId} {text : List Char} {seconds : Nat} {p : Path}

/-! ### The last line -/

/-- What stands behind the last newline. -/
def unterminated (text : List Char) : List Char := text.rtakeWhile (· ≠ '\n')

/-- What stands before it, and the newline. -/
def terminated (text : List Char) : List Char := text.rdropWhile (· ≠ '\n')

theorem terminated_append (text : List Char) : terminated text ++ unterminated text = text :=
  List.rdropWhile_append_rtakeWhile

theorem newline_notMem_unterminated (text : List Char) : '\n' ∉ unterminated text := by
  intro h
  rw [unterminated] at h
  have hne := List.mem_rtakeWhile_imp h
  exact of_decide_eq_true hne rfl

theorem unterminated_of_notMem {text : List Char} (h : '\n' ∉ text) : unterminated text = text :=
  List.rtakeWhile_eq_self_iff.2 fun _ hc => decide_eq_true fun he => h (he ▸ hc)

theorem unterminated_append_newline {rest : List Char} (h : '\n' ∉ rest) (text : List Char) :
    unterminated (text ++ '\n' :: rest) = rest := by
  have hall : ∀ c ∈ rest.reverse, decide (c ≠ '\n') = true :=
    fun _ hc => decide_eq_true fun he => h (he ▸ List.mem_reverse.1 hc)
  rw [unterminated, List.rtakeWhile, List.reverse_append, List.reverse_cons, List.append_assoc,
    List.takeWhile_append_of_pos hall, List.singleton_append, List.takeWhile_cons_of_neg (by decide), List.append_nil,
    List.reverse_reverse]

theorem terminated_eq (text : List Char) : terminated text = [] ∨ ∃ before, terminated text = before ++ ['\n'] := by
  induction text using List.reverseRecOn with
  | nil => exact .inl rfl
  | append_singleton text c ih =>
    by_cases hc : c = '\n'
    · exact .inr ⟨text, by rw [hc]; exact List.rdropWhile_concat_neg _ _ _ (by decide)⟩
    · have hsame : terminated (text ++ [c]) = terminated text :=
        List.rdropWhile_concat_pos _ _ _ (decide_eq_true hc)
      rwa [hsame]

/-- However the last line goes on, those above it are the same. -/
theorem all_encode_append (text : List Char) (more : List UInt8) : Lines.all (Utf8.encode text ++ more) =
    Lines.all (Utf8.encode (terminated text)) ++ Lines.all (Utf8.encode (unterminated text) ++ more) := by
  have hbytes : Utf8.encode text = Utf8.encode (terminated text) ++ Utf8.encode (unterminated text) := by
    rw [← Utf8.encode_append, terminated_append]
  rw [hbytes]
  obtain hnil | ⟨before, hbefore⟩ := terminated_eq text
  · rw [hnil]
    rfl
  · rw [hbefore, Utf8.encode_append, Utf8.encode_newline, Lines.all_concat_newline, ← Lines.all_append_newline]
    simp only [List.append_assoc, List.cons_append, List.nil_append]

/-! ### Entries behind something else -/

/-- The line on which an entry is put behind what is there. -/
def glued (front : List Char) (id : StreamId) (seconds : Nat) : List UInt8 :=
  Utf8.encode (front ++ (value id seconds).compact)

theorem plain_glued {front : List Char} (h : '\n' ∉ front) (id : StreamId) (seconds : Nat) :
    Lines.Plain (glued front id seconds) := by
  refine ⟨Json.encode_ne_nil (List.append_ne_nil_of_right_ne_nil _ (Json.compact_ne_nil _)),
    Utf8.newline_notMem_encode fun hm => ?_⟩
  obtain hm | hm := List.mem_append.1 hm
  · exact h hm
  · exact Json.newline_notMem_compact _ hm

/-- The text of an entry opens an object with its first key, and ends where it does. -/
theorem exists_opened (id : StreamId) (seconds : Nat) : ∃ tail,
    (value id seconds).compact.map some = Json.Reader.opened tail ∧ Json.Reader.Ends tail := by
  obtain ⟨tail, htail⟩ : ∃ tail, (value id seconds).compact.map some = Json.Reader.opened tail := ⟨_, rfl⟩
  refine ⟨tail, htail, fun fuel hfuel => ?_⟩
  rw [← htail, List.length_map] at hfuel
  have hvalue := Json.Reader.value_renders (Json.renders_compact (value id seconds)) fuel hfuel Json.Reader.endsNumber_nil
  rw [List.append_nil, htail] at hvalue
  rw [hvalue]

/-- **Behind anything but blanks an entry enters nothing**, -/
theorem not_enters_glued {front : List Char} (hfront : ¬ Blanks front) (id id' : StreamId) (seconds : Nat) :
    ¬ Enters (glued front id seconds) id' := by
  rintro ⟨cs, v, hcs, hv, -⟩
  obtain rfl := Option.some.inj ((Utf8.decode?_encode _).symm.trans hcs)
  obtain ⟨tail, htail, hends⟩ := exists_opened id seconds
  have hcut := Document.complete_glued hends (mt Json.Reader.skipBlanks_eq_nil_iff.1 hfront)
  rw [List.map_append, htail, Document.toJson?, hcut] at hv
  cases hv

/-- and behind blanks it enters what it is to enter. -/
theorem enters_glued {front : List Char} (hfront : Blanks front) (hseconds : seconds < UInt64.size) (id : StreamId) :
    Enters (glued front id seconds) id := by
  obtain ⟨cs, v, hcs, hv, hnames⟩ := enters_lineOf hseconds id
  obtain rfl := Option.some.inj ((Utf8.decode?_encode _).symm.trans hcs)
  refine ⟨_, v, Utf8.decode?_encode _, ?_, hnames⟩
  rw [Document.ofGlyphs_renders (Json.renders_compact _)] at hv
  rwa [Document.ofGlyphs_blanks hfront (Json.renders_compact _)]

theorem not_enters_blanks {ws : List Char} (h : Blanks ws) (id : StreamId) : ¬ Enters (Utf8.encode ws) id := by
  rintro ⟨cs, v, hcs, hv, -⟩
  obtain rfl := Option.some.inj ((Utf8.decode?_encode _).symm.trans hcs)
  rw [Document.toJson?, Document.complete_blanks h] at hv
  cases hv

theorem all_encode {front : List Char} (h : '\n' ∉ front) :
    Lines.all (Utf8.encode front) = [] ∨ Lines.all (Utf8.encode front) = [Utf8.encode front] := by
  by_cases hnil : Utf8.encode front = []
  · rw [hnil]
    exact .inl rfl
  · exact .inr (Lines.all_of_plain ⟨hnil, Utf8.newline_notMem_encode h⟩)

/-! ### What ensuring a stream comes to -/

/-- The stream is entered, whatever was entered still is, and it is not entered again. -/
structure Settled (d d' : Disk) (id : StreamId) : Prop where
  entered : Entered d' id
  kept : ∀ {id'}, Entered d id' → Entered d' id'
  again : ∀ seconds, content (ensure id seconds d').2 = content d'

/-- The registry after an entry. -/
theorem lines_of_entry (hcontent : content d = Utf8.encode text)
    (hadded : content d' = content d ++ entry id seconds) :
    lines d = Lines.all (Utf8.encode (terminated text)) ++ Lines.all (Utf8.encode (unterminated text)) ∧
      lines d' = Lines.all (Utf8.encode (terminated text)) ++ [glued (unterminated text) id seconds] := by
  constructor
  · have hlines := all_encode_append text []
    rwa [List.append_nil, List.append_nil, ← hcontent] at hlines
  · have hline : Utf8.encode (unterminated text) ++ entry id seconds =
        glued (unterminated text) id seconds ++ [Lines.newline] := by
      rw [entry_eq_lineOf, glued, Utf8.encode_append, List.append_assoc]
      rfl
    rw [lines, hadded, hcontent, all_encode_append, hline, Lines.all_concat_newline,
      Lines.all_of_plain (plain_glued (newline_notMem_unterminated text) id seconds)]

/-- The stream was entered before, or an entry is added that is behind what stands on the last line. -/
theorem entered_or_added (hensure : ensure id seconds d = (.ok p, d')) :
    Entered d id ∧ content d' = content d ∨ ¬ Entered d id ∧ content d' = content d ++ entry id seconds := by
  obtain ⟨b, hsearch, hcontent⟩ := ensure_inv hensure
  have hb := of_search hsearch
  cases b with
  | true => exact .inl ⟨hb.1 rfl, hcontent⟩
  | false => exact .inr ⟨fun h => absurd (hb.2 h) Bool.false_ne_true, hcontent⟩

theorem settled_of_entered (h : Entered d id) (hcontent : content d' = content d) : Settled d d' id := by
  have hlines : lines d' = lines d := congrArg Lines.all hcontent
  have hkept : ∀ {id'}, Entered d id' → Entered d' id' := by
    rintro id' ⟨line, hline, henters⟩
    exact ⟨line, hlines ▸ hline, henters⟩
  exact ⟨hkept h, hkept, content_of_entered (hkept h)⟩

/-- An entry behind blanks is a line of its own, in effect. -/
theorem settled_of_blanks (hcontent : content d = Utf8.encode text) (hblanks : Blanks (unterminated text))
    (hseconds : seconds < UInt64.size) (hadded : content d' = content d ++ entry id seconds) : Settled d d' id := by
  obtain ⟨hlines, hlines'⟩ := lines_of_entry hcontent hadded
  have hentered : Entered d' id :=
    ⟨_, hlines' ▸ List.mem_append_right _ (List.mem_singleton_self _), enters_glued hblanks hseconds id⟩
  refine ⟨hentered, ?_, content_of_entered hentered⟩
  rintro id' ⟨line, hline, henters⟩
  rw [hlines] at hline
  obtain hline | hline := List.mem_append.1 hline
  · exact ⟨line, hlines' ▸ List.mem_append_left _ hline, henters⟩
  · have hlast : line = Utf8.encode (unterminated text) := by
      obtain hnone | hone := all_encode (newline_notMem_unterminated text)
      · rw [hnone] at hline
        cases hline
      · rwa [hone, List.mem_singleton] at hline
    exact absurd (hlast ▸ henters) (not_enters_blanks hblanks id')

/-- An entry behind anything else is not found again, and neither is what it is behind. -/
theorem entered_iff_of_glued (hcontent : content d = Utf8.encode text) (hblanks : ¬ Blanks (unterminated text))
    (hadded : content d' = content d ++ entry id seconds) (id' : StreamId) :
    Entered d' id' ↔ ∃ line ∈ Lines.all (Utf8.encode (terminated text)), Enters line id' := by
  rw [Entered, (lines_of_entry hcontent hadded).2]
  constructor
  · rintro ⟨line, hline, henters⟩
    obtain hline | hline := List.mem_append.1 hline
    · exact ⟨line, hline, henters⟩
    · exact absurd (List.mem_singleton.1 hline ▸ henters) (not_enters_glued hblanks id id' seconds)
  · rintro ⟨line, hline, henters⟩
    exact ⟨line, List.mem_append_left _ hline, henters⟩

theorem settled_iff (hcontent : content d = Utf8.encode text) (hseconds : seconds < UInt64.size)
    (hensure : ensure id seconds d = (.ok p, d')) :
    Settled d d' id ↔ Entered d id ∨ Blanks (unterminated text) := by
  obtain ⟨hentered, hsame⟩ | ⟨hentered, hadded⟩ := entered_or_added hensure
  · exact iff_of_true (settled_of_entered hentered hsame) (.inl hentered)
  · by_cases hblanks : Blanks (unterminated text)
    · exact iff_of_true (settled_of_blanks hcontent hblanks hseconds hadded) (.inr hblanks)
    · refine iff_of_false (fun h => hentered ?_) (not_or_intro hentered hblanks)
      obtain ⟨line, hline, henters⟩ := (entered_iff_of_glued hcontent hblanks hadded id).1 h.entered
      exact ⟨line, (lines_of_entry hcontent hadded).1 ▸ List.mem_append_left _ hline, henters⟩

theorem settled_again (hcontent : content d = Utf8.encode text) (hensure : ensure id seconds d = (.ok p, d'))
    {later : Nat} (hlater : later < UInt64.size) {p' : Path} {d'' : Disk} (hensure' : ensure id later d' = (.ok p', d'')) :
    Settled d' d'' id := by
  obtain ⟨hentered, hsame⟩ | ⟨-, hadded⟩ := entered_or_added hensure
  · rw [← hsame] at hcontent
    exact (settled_iff hcontent hlater hensure').2 (.inl (settled_of_entered hentered hsame).entered)
  · have hcontent' : content d' = Utf8.encode (text ++ (value id seconds).compact ++ ['\n']) := by
      rw [hadded, hcontent, entry_eq_lineOf, lineOf, Utf8.encode_append, Utf8.encode_append, List.append_assoc]
      rfl
    refine (settled_iff hcontent' hlater hensure').2 (.inr ?_)
    rw [unterminated_append_newline List.not_mem_nil]
    exact Json.blanks_nil

/-- **Ensuring a stream settles it unless its entry is put behind a torn line.** It does if the
stream was entered already or nothing but blanks stands behind the last newline, and on no other
text. Otherwise just those streams are entered that are on the lines above, and the next time
the stream is settled in any case. -/
theorem settled_unless_torn (hcontent : content d = Utf8.encode text) (hseconds : seconds < UInt64.size)
    (hensure : ensure id seconds d = (.ok p, d')) :
    (Settled d d' id ↔ Entered d id ∨ Blanks (unterminated text)) ∧
    (¬ Settled d d' id →
      ∀ id', Entered d' id' ↔ ∃ line ∈ Lines.all (Utf8.encode (terminated text)), Enters line id') ∧
    ∀ {later p' d''}, later < UInt64.size → ensure id later d' = (.ok p', d'') → Settled d' d'' id := by
  have hiff := settled_iff hcontent hseconds hensure
  refine ⟨hiff, fun hnot => ?_, fun hlater hensure' => settled_again hcontent hensure hlater hensure'⟩
  obtain ⟨hentered, hblanks⟩ := not_or.1 (mt hiff.2 hnot)
  obtain ⟨hentered', -⟩ | ⟨-, hadded⟩ := entered_or_added hensure
  · exact absurd hentered' hentered
  · exact entered_iff_of_glued hcontent hblanks hadded

/-! ### Where there is a way to the registry -/

/-- No file is in the way to the stream's directory or to the registry. -/
structure Passable (d : Disk) (id : StreamId) : Prop where
  stream : ∀ q, q <+: entityPath "streams" id → ∀ bytes, d.find? q ≠ some (.file bytes)
  home : ∀ bytes, d.find? metaDirectory ≠ some (.file bytes)
  registry : d.find? registryFile ≠ some .directory

/-- The lines of a text are texts. -/
theorem text_of_line (text : List Char) : ∀ line ∈ Lines.all (Utf8.encode text), ∃ cs, line = Utf8.encode cs := by
  have hsplit := all_encode_append text []
  rw [List.append_nil, List.append_nil] at hsplit
  intro line hline
  rw [hsplit] at hline
  obtain hline | hline := List.mem_append.1 hline
  · obtain hnil | ⟨before, hbefore⟩ := terminated_eq text
    · rw [hnil] at hline
      cases hline
    · rw [hbefore, Utf8.encode_append, Utf8.encode_newline, Lines.all_concat_newline] at hline
      have hlength : before.length < text.length := by
        rw [← terminated_append text, hbefore, List.length_append, List.length_append, List.length_singleton]
        omega
      exact text_of_line before line hline
  · obtain hnone | hone := all_encode (newline_notMem_unterminated text)
    · rw [hnone] at hline
      cases hline
    · exact ⟨_, List.mem_singleton.1 (hone ▸ hline)⟩
termination_by text.length

/-- What is looked for in a text can be found or not. -/
theorem search_text (id : StreamId) (text : List Char) : ∃ b, search id (Lines.all (Utf8.encode text)) = .ok b := by
  refine search_ok id fun line hline => ?_
  obtain ⟨cs, rfl⟩ := text_of_line text line hline
  rw [Utf8.decode?_encode]
  rfl

/-- Once there is the registry's directory, the registry can be read or there is none. -/
theorem read_or_missing (hmeta : d.find? metaDirectory = some .directory) (hregistry : d.find? registryFile ≠ some .directory) :
    d.read registryFile = .ok (content d) ∨ d.find? registryFile = none ∧ d.throughFile registryFile = false := by
  cases hfind : d.find? registryFile with
  | none =>
    refine .inr ⟨rfl, Disk.throughFile_eq_false fun q hq bytes hfile => ?_⟩
    obtain rfl | habove := List.prefix_concat_iff.1 hq
    · cases hfind.symm.trans hfile
    · obtain rfl | rfl := above_meta habove
      · cases (Disk.find?_root d).symm.trans hfile
      · cases hmeta.symm.trans hfile
  | some e =>
    cases e with
    | directory => exact absurd hfind hregistry
    | file bytes => exact .inl ((Disk.read_file hfind).trans (by rw [content_of_find? hfind]))

/-- So it can be searched if it is a text, -/
theorem holds_text (hmeta : d.find? metaDirectory = some .directory) (hregistry : d.find? registryFile ≠ some .directory)
    (hcontent : content d = Utf8.encode text) (id : StreamId) : ∃ b, holds d id = .ok b := by
  obtain hread | ⟨hnone, hway⟩ := read_or_missing hmeta hregistry
  · obtain ⟨b, hsearch⟩ := search_text id text
    refine ⟨b, ?_⟩
    rw [holds, hread, hcontent]
    exact hsearch
  · exact ⟨false, by rw [holds, Disk.read_missing hnone hway]⟩

/-- and added to. -/
theorem append_registry (hmeta : d.find? metaDirectory = some .directory)
    (hregistry : d.find? registryFile ≠ some .directory) (more : List UInt8) :
    ∃ d', d.append registryFile more = .ok d' := by
  obtain hread | ⟨hnone, hway⟩ := read_or_missing hmeta hregistry
  · exact ⟨_, Disk.append_file (Disk.find?_of_read hread) more⟩
  · exact ⟨_, Disk.append_missing hnone hway hmeta more⟩

/-- **Whatever text the registry holds, the stream can be ensured.** -/
theorem Passable.ensure (h : Passable d id) (hid : Usable id) (hcontent : content d = Utf8.encode text) (seconds : Nat) :
    ∃ d', Registry.ensure id seconds d = (.ok (entityPath "streams" id), d') := by
  have hmake₁ := Disk.makeDirectories_ok (Disk.throughFile_eq_false h.stream)
  generalize d.withDirectories (Disk.stations (entityPath "streams" id)) = d₁ at hmake₁
  have hclear : ∀ q, q <+: metaDirectory → ∀ bytes, d₁.find? q ≠ some (.file bytes) := by
    intro q hq bytes
    obtain rfl | rfl := above_meta hq
    · rw [Disk.find?_root]
      exact fun he => by cases he
    · have hbeside : ¬ metaDirectory <+: entityPath "streams" id := fun ⟨_, hrest⟩ =>
        absurd (List.cons.inj hrest).1 (by decide)
      rw [Disk.find?_beside_make hmake₁ hbeside]
      exact h.home bytes
  have hmake₂ := Disk.makeDirectories_ok (Disk.throughFile_eq_false hclear)
  generalize d₁.withDirectories (Disk.stations metaDirectory) = d₂ at hmake₂
  -- Neither directory is the registry, and now there is its own.
  have hsame : d₂.find? registryFile = d.find? registryFile := by
    rw [Disk.find?_beside_make hmake₂ registryFile_not_above_meta,
      Disk.find?_beside_make hmake₁ (registryFile_not_above_stream id)]
  have hmeta := Disk.find?_of_make hmake₂
  have hregistry : d₂.find? registryFile ≠ some .directory := hsame ▸ h.registry
  obtain ⟨b, hholds⟩ := holds_text hmeta hregistry ((content_congr hsame).trans hcontent) id
  obtain ⟨d₃, happend⟩ := append_registry hmeta hregistry (entry id seconds)
  have hdirectory : Layout.streamDirectory id = .ok (entityPath "streams" id) := entityDirectory_ok hid "streams"
  cases b <;> simp only [Registry.ensure, hdirectory, hmake₁, hmake₂, hholds, happend, Prod.mk.injEq, true_and, exists_eq']

/-- A disk with a registry of the text and nothing else. -/
def withRegistry (text : List Char) : Disk :=
  (Disk.withDirectories .empty [metaDirectory]).put registryFile (.file (Utf8.encode text))

theorem find?_withRegistry (text : List Char) (q : Path) : (withRegistry text).find? q =
    if registryFile = q then some (.file (Utf8.encode text))
    else (Disk.empty.find? q).or (if q ∈ [metaDirectory] then some .directory else none) := by
  rw [withRegistry, Disk.find?_put leaf_registryFile.ne_root, Disk.find?_withDirectories]

theorem content_withRegistry (text : List Char) : content (withRegistry text) = Utf8.encode text :=
  content_of_find? ((find?_withRegistry text registryFile).trans (if_pos rfl))

theorem passable_withRegistry (text : List Char) (id : StreamId) : Passable (withRegistry text) id where
  stream q hq bytes hfile := by
    have hne : registryFile ≠ q := fun he => registryFile_not_above_stream id (he ▸ hq)
    rw [find?_withRegistry, if_neg hne] at hfile
    by_cases hroot : q = []
    · rw [hroot, Disk.find?_root] at hfile
      cases hfile
    · rw [Disk.find?_empty hroot, Option.none_or] at hfile
      split at hfile <;> cases hfile
  home bytes := by
    rw [find?_withRegistry, if_neg (by decide), Disk.find?_empty (by decide)]
    rintro ⟨⟩
  registry := by
    rw [find?_withRegistry, if_pos rfl]
    rintro ⟨⟩

/-- A registry with blanks behind its last line is in order, -/
theorem settled_behind_blanks :
    let text := (value (.ofCart "b") 1).compact ++ ['\n', ' ']
    ∃ d', content (withRegistry text) = Utf8.encode text ∧ 2 < UInt64.size ∧
      ensure (.ofCart "a") 2 (withRegistry text) = (.ok (entityPath "streams" (.ofCart "a")), d') ∧
      Settled (withRegistry text) d' (.ofCart "a") := by
  intro text
  have hcontent : content (withRegistry text) = Utf8.encode text := content_withRegistry text
  obtain ⟨d', hensure⟩ := (passable_withRegistry text (.ofCart "a")).ensure (by decide) hcontent 2
  have hblanks : Blanks (unterminated text) := by
    rw [unterminated_append_newline (by decide), Blanks, List.forall_mem_singleton]
    rfl
  exact ⟨d', hcontent, by decide, hensure, (settled_unless_torn hcontent (by decide) hensure).1.2 (.inr hblanks)⟩

/-- and one of which the last newline is missing is not. -/
theorem torn_entry_lost : ¬ ∀ (d d' : Disk) (id : StreamId) (text : List Char) (seconds : Nat) (p : Path),
    content d = Utf8.encode text → seconds < UInt64.size → ensure id seconds d = (.ok p, d') → Settled d d' id := by
  intro hclaim
  let text := (value (.ofCart "b") 1).compact
  have hcontent : content (withRegistry text) = Utf8.encode text := content_withRegistry text
  obtain ⟨d', hensure⟩ := (passable_withRegistry text (.ofCart "a")).ensure (by decide) hcontent 2
  have hsettled := hclaim _ _ _ text _ _ hcontent (by decide) hensure
  obtain ⟨line, hline, henters⟩ | hblanks := (settled_iff hcontent (by decide) hensure).1 hsettled
  · -- The one line there is enters the other stream.
    rw [lines, hcontent, Lines.all_of_plain (Json.plain_compact _)] at hline
    have hother : Enters line (.ofCart "b") := List.mem_singleton.1 hline ▸ enters_lineOf (by decide) (.ofCart "b")
    exact absurd (henters.unique hother) (by decide)
  · rw [unterminated_of_notMem (Json.newline_notMem_compact _)] at hblanks
    exact absurd (hblanks '\x7b' (List.mem_cons_self ..)) (by decide)

end CartLedger.Storage.Registry
