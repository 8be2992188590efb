import CartLedger.Json.Decoder
import CartLedger.Proofs.Json.Rendering
import CartLedger.Proofs.Text.Lines
import CartLedger.Proofs.Text.Utf8

/-! What is printed is read back.

Both printers lay a value out in a way that the reader understands, so the document of a
printed value is the value again (`ofBytes_compact`, `ofBytes_pretty`), down to its
numbers, of which the reader has its own notion (`Draft.printed`). Integers of 64 bits are
what they were (`Draft.printed_whole`), and all numbers of ours are such. The compact text
of a value is one line, whatever the value. -/
namespace CartLedger.Json
open Text

/-! ### Whole numbers -/

mutual

/-- Every number in the value is an integer of 64 bits. -/
def Whole : Json → Prop
  | .null => True
  | .bool _ => True
  | .number (.integer n) => Reader.IsWord n
  | .number (.real ..) => False
  | .text _ => True
  | .list items => WholeItems items
  | .object members => WholeMembers members

def WholeItems : List Json → Prop
  | [] => True
  | item :: rest => Whole item ∧ WholeItems rest

def WholeMembers : List (String × Json) → Prop
  | [] => True
  | (_, value) :: rest => Whole value ∧ WholeMembers rest

end

theorem wholeItems_iff {items : List Json} : WholeItems items ↔ ∀ item ∈ items, Whole item := by
  induction items with
  | nil => simp [WholeItems]
  | cons item rest ih => simp [WholeItems, ih]

theorem wholeMembers_iff {members : List (String × Json)} :
    WholeMembers members ↔ ∀ m ∈ members, Whole m.2 := by
  induction members with
  | nil => simp [WholeMembers]
  | cons m rest ih => simp [WholeMembers, ih]

theorem whole_natural {n : Nat} (h : n < UInt64.size) : Whole (.natural n) := by
  have hn : (n : Int) < 0x10000000000000000 := Int.ofNat_lt.2 h
  exact ⟨by omega, hn⟩

/-! ### What is read back -/

/-- What the reader makes of a printed number. -/
def Number.printed (n : Number) : Draft := (Reader.value 1 (n.numeral.map some)).1

theorem Reader.endsNumber_nil : EndsNumber [] := fun _ h => by cases h

theorem Number.printed_eq {n : Number} {m : Numeral} (h : m.text = n.numeral) :
    n.printed = .number m.number := by
  have hread := Reader.value_numeral m 0 Reader.endsNumber_nil
  rw [List.append_nil] at hread
  rw [printed, ← h, hread]

mutual

/-- What the reader makes of a printed value. -/
def Draft.printed : Json → Draft
  | .null => .null
  | .bool b => .bool b
  | .number n => n.printed
  | .text s => .text (some s)
  | .list items => .list (printedItems items)
  | .object members => .object (printedMembers members)

def Draft.printedItems : List Json → List Draft
  | [] => []
  | item :: rest => printed item :: printedItems rest

def Draft.printedMembers : List (String × Json) → List Draft.Member
  | [] => []
  | (key, value) :: rest => (some key, printed value) :: printedMembers rest

end

mutual

/-- A value of whole numbers is read back as it is. -/
theorem Draft.printed_whole : {v : Json} → Whole v → printed v = ofJson v
  | .null, _ => rfl
  | .bool _, _ => rfl
  | .number (.integer n), h => by
    rw [printed, Number.printed_eq (n := .integer n) (Numeral.text_integer n), Reader.number_integer h]
    rfl
  | .text _, _ => rfl
  | .list _, h => congrArg Draft.list (printedItems_whole h)
  | .object _, h => congrArg Draft.object (printedMembers_whole h)

theorem Draft.printedItems_whole : {items : List Json} → WholeItems items → printedItems items = ofItems items
  | [], _ => rfl
  | _ :: _, ⟨hv, hrest⟩ => by rw [printedItems, ofItems, printed_whole hv, printedItems_whole hrest]

theorem Draft.printedMembers_whole : {members : List (String × Json)} → WholeMembers members →
    printedMembers members = ofMembers members
  | [], _ => rfl
  | (_, _) :: _, ⟨hv, hrest⟩ => by
    rw [printedMembers, ofMembers, printed_whole hv, printedMembers_whole hrest]

end

theorem Number.renders_numeral (n : Number) : Renders n.printed n.numeral := by
  obtain ⟨m, hm⟩ := n.exists_numeral
  rw [printed_eq hm, ← hm]
  exact .number m

/-! ### Compact texts -/

theorem blanks_nil : Blanks [] := fun _ h => absurd h List.not_mem_nil

mutual

theorem renders_compact : (v : Json) → Renders (Draft.printed v) (compact v)
  | .null => .null
  | .bool b => .bool b
  | .number n => n.renders_numeral
  | .text s => .text s
  | .list [] => .emptyList
  | .list (_ :: _) => .list (renders_compactItems _ (List.cons_ne_nil _ _))
  | .object [] => .emptyObject
  | .object (_ :: _) => .object (renders_compactMembers _ (List.cons_ne_nil _ _))

theorem renders_compactItems : (items : List Json) → items ≠ [] →
    RendersItems (Draft.printedItems items) (compactItems items)
  | [v], _ => by
    have h := RendersItems.last blanks_nil (renders_compact v) blanks_nil
    rw [List.nil_append, List.append_nil] at h
    exact h
  | v :: _ :: _, _ =>
    .more blanks_nil (renders_compact v) (renders_compactItems _ (List.cons_ne_nil _ _))

theorem renders_compactMembers : (members : List (String × Json)) → members ≠ [] →
    RendersMembers (Draft.printedMembers members) (compactMembers members)
  | [(key, v)], _ => by
    have h := @RendersMembers.last key _ _ _ _ _ blanks_nil blanks_nil (renders_compact v) blanks_nil
    rw [List.nil_append, List.nil_append, List.append_nil] at h
    exact h
  | (_, v) :: _ :: _, _ =>
    .more blanks_nil blanks_nil (renders_compact v) (renders_compactMembers _ (List.cons_ne_nil _ _))

end

/-! ### Pretty texts -/

theorem blanks_lineBreak (depth : Nat) : Blanks (lineBreak depth) := by
  intro c hc
  rcases List.mem_cons.1 hc with rfl | hc
  · rfl
  · rw [List.eq_of_mem_replicate hc]
    rfl

theorem blanks_space : Blanks [' '] := by
  intro c hc
  rw [List.mem_singleton.1 hc]
  rfl

mutual

theorem renders_prettyAt (depth : Nat) : (v : Json) → Renders (Draft.printed v) (prettyAt depth v)
  | .null => .null
  | .bool b => .bool b
  | .number n => n.renders_numeral
  | .text s => .text s
  | .list [] => .emptyList
  | .list (_ :: _) =>
    .list (renders_prettyItems (depth + 1) _ (List.cons_ne_nil _ _) (blanks_lineBreak depth))
  | .object [] => .emptyObject
  | .object (_ :: _) =>
    .object (renders_prettyMembers (depth + 1) _ (List.cons_ne_nil _ _) (blanks_lineBreak depth))

/-- The blanks behind the last item are the line break in front of the bracket. -/
theorem renders_prettyItems (depth : Nat) : (items : List Json) → items ≠ [] →
    {ws : List Char} → Blanks ws →
    RendersItems (Draft.printedItems items) (prettyItems depth items ++ ws)
  | [v], _, ws, hws => by
    have h := RendersItems.last (blanks_lineBreak depth) (renders_prettyAt depth v) hws
    rw [← List.append_assoc] at h
    exact h
  | v :: w :: rest, _, ws, hws => by
    have h := RendersItems.more (blanks_lineBreak depth) (renders_prettyAt depth v)
      (renders_prettyItems depth (w :: rest) (List.cons_ne_nil _ _) hws)
    simp only [prettyItems, List.append_assoc, List.cons_append]
    exact h

theorem renders_prettyMembers (depth : Nat) : (members : List (String × Json)) →
    members ≠ [] → {ws : List Char} → Blanks ws →
    RendersMembers (Draft.printedMembers members) (prettyMembers depth members ++ ws)
  | [(key, v)], _, ws, hws => by
    have h := @RendersMembers.last key _ _ _ _ _ (blanks_lineBreak depth) blanks_space
      (renders_prettyAt depth v) hws
    simp only [prettyMembers, List.append_assoc, List.cons_append]
    exact h
  | (key, v) :: m :: rest, _, ws, hws => by
    have h := @RendersMembers.more key _ _ _ _ _ _ (blanks_lineBreak depth) blanks_space
      (renders_prettyAt depth v) (renders_prettyMembers depth (m :: rest) (List.cons_ne_nil _ _) hws)
    simp only [prettyMembers, List.append_assoc, List.cons_append]
    exact h

end

/-! ### One line -/

theorem newline_notMem_escape (c : Char) : '\n' ∉ escape c := by
  have hdigit : ∀ n : Nat, n < 16 → '\n' ≠ hexDigit n := by decide
  unfold escape
  split
  case h_8 hnewline _ _ =>
    split
    · rename_i hlow
      have hn : c.toNat < 32 := hlow
      have hfirst := hdigit (c.toNat / 16) (by omega)
      have hlast := hdigit (c.toNat % 16) (by omega)
      simp [hfirst, hlast]
    · simpa [eq_comm] using hnewline
  all_goals decide

theorem newline_notMem_quote (s : String) : '\n' ∉ quote s := by
  simp [quote, newline_notMem_escape]

theorem Number.newline_notMem_numeral (n : Number) : '\n' ∉ n.numeral := by
  obtain ⟨m, hm⟩ := n.exists_numeral
  rw [← hm]
  exact m.newline_notMem_text

mutual

/-- A compact text is one line. -/
theorem newline_notMem_compact : (v : Json) → '\n' ∉ compact v
  | .null => by decide
  | .bool b => by cases b <;> decide
  | .number n => n.newline_notMem_numeral
  | .text s => newline_notMem_quote s
  | .list items => by simp [compact, newline_notMem_compactItems items]
  | .object members => by simp [compact, newline_notMem_compactMembers members]

theorem newline_notMem_compactItems : (items : List Json) → '\n' ∉ compactItems items
  | [] => List.not_mem_nil
  | [v] => newline_notMem_compact v
  | v :: w :: rest => by
    simp [compactItems, newline_notMem_compact v, newline_notMem_compactItems (w :: rest)]

theorem newline_notMem_compactMembers : (members : List (String × Json)) →
    '\n' ∉ compactMembers members
  | [] => List.not_mem_nil
  | [(_, v)] => by simp [compactMembers, newline_notMem_quote, newline_notMem_compact v]
  | (_, v) :: m :: rest => by
    simp [compactMembers, newline_notMem_quote, newline_notMem_compact v,
      newline_notMem_compactMembers (m :: rest)]

end

theorem compact_ne_nil (v : Json) : compact v ≠ [] := by
  obtain ⟨c, cs, hcs, -⟩ := (renders_compact v).opens
  rw [hcs]
  exact List.cons_ne_nil _ _

theorem encode_ne_nil {cs : List Char} (h : cs ≠ []) : Utf8.encode cs ≠ [] := by
  intro he
  have hglyphs := Utf8.glyphs_encode cs
  rw [he] at hglyphs
  exact h (List.map_eq_nil_iff.1 hglyphs.symm)

/-- The compact text of a value is a line that a file can be made of. -/
theorem plain_compact (v : Json) : Lines.Plain (Utf8.encode v.compact) :=
  ⟨encode_ne_nil (compact_ne_nil v), Utf8.newline_notMem_encode (newline_notMem_compact v)⟩

/-! ### Documents -/

/-- The document of a text of a draft is that draft, and ends where it does. -/
theorem Document.ofGlyphs_renders {v : Draft} {cs : List Char} (h : Renders v cs) :
    Document.ofGlyphs (cs.map some) = ⟨v, true⟩ := by
  have hvalue := Reader.value_renders h (2 * (cs.map some).length + 1)
    (by rw [List.length_map]; omega) Reader.endsNumber_nil
  rw [List.append_nil] at hvalue
  rw [Document.ofGlyphs, hvalue]
  rfl

theorem Document.ofBytes_compact (v : Json) :
    Document.ofBytes (Utf8.encode v.compact) = ⟨Draft.printed v, true⟩ := by
  rw [Document.ofBytes, Utf8.glyphs_encode, Document.ofGlyphs_renders (renders_compact v)]

theorem Document.ofBytes_pretty (v : Json) :
    Document.ofBytes (Utf8.encode v.pretty) = ⟨Draft.printed v, true⟩ := by
  rw [Document.ofBytes, Utf8.glyphs_encode]
  exact Document.ofGlyphs_renders (renders_prettyAt 0 v)

/-- What a whole document decodes to is what its draft does. -/
theorem Document.decode_complete (d : Decoder α) (v : Draft) : Document.decode d ⟨v, true⟩ = d v := by
  rw [Document.decode]
  cases d v <;> rfl

/-- Decoding what was printed is decoding the value. -/
theorem Document.decode_whole (d : Decoder α) {v : Json} (h : Whole v) :
    Document.decode d ⟨Draft.printed v, true⟩ = Json.decode d v := by
  rw [Document.decode_complete, Draft.printed_whole h]
  rfl

end CartLedger.Json
