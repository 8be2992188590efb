import CartLedger.Json.Draft
import CartLedger.Proofs.Json.Numerals
import CartLedger.Proofs.Json.Strings

/-! Texts of a draft.

A draft may be laid out in many ways: blanks are allowed around items, around members
and behind a member's colon, and a number may be written as any numeral that is read as
it. `Renders` says that a text is a draft in one of these layouts, whatever the layout,
and `value_renders` that the reader gets the draft back from any of them. Both printers
write such texts, so neither needs a reader of its own. -/
namespace CartLedger.Json
open Reader (EndsNumber)
open Text.Utf8 (Glyph)

/-! ### Layouts -/

def Blanks (ws : List Char) : Prop := ∀ c ∈ ws, Reader.isBlank c

mutual

inductive Renders : Draft → List Char → Prop
  | null : Renders .null ['n', 'u', 'l', 'l']
  | bool (b : Bool) : Renders (.bool b) (truth b)
  | number (m : Numeral) : Renders (.number m.number) m.text
  | text (s : String) : Renders (.text (some s)) (quote s)
  | emptyList : Renders (.list []) ['[', ']']
  | list {items : List Draft} {cs : List Char} :
    RendersItems items cs → Renders (.list items) ('[' :: (cs ++ [']']))
  | emptyObject : Renders (.object []) ['\x7b', '\x7d']
  | object {members : List Draft.Member} {cs : List Char} :
    RendersMembers members cs → Renders (.object members) ('\x7b' :: (cs ++ ['\x7d']))

/-- The text between the brackets of a list that has items. -/
inductive RendersItems : List Draft → List Char → Prop
  | last {v : Draft} {ws cs ws' : List Char} : Blanks ws → Renders v cs → Blanks ws' →
    RendersItems [v] (ws ++ (cs ++ ws'))
  | more {v : Draft} {rest : List Draft} {ws cs cs' : List Char} : Blanks ws → Renders v cs →
    RendersItems rest cs' → RendersItems (v :: rest) (ws ++ (cs ++ ',' :: cs'))

/-- The text between the braces of an object that has members. -/
inductive RendersMembers : List Draft.Member → List Char → Prop
  | last {key : String} {v : Draft} {ws ws' cs ws'' : List Char} : Blanks ws → Blanks ws' →
    Renders v cs → Blanks ws'' →
    RendersMembers [(some key, v)] (ws ++ (quote key ++ ':' :: (ws' ++ (cs ++ ws''))))
  | more {key : String} {v : Draft} {rest : List Draft.Member} {ws ws' cs cs' : List Char} :
    Blanks ws → Blanks ws' → Renders v cs → RendersMembers rest cs' →
    RendersMembers ((some key, v) :: rest) (ws ++ (quote key ++ ':' :: (ws' ++ (cs ++ ',' :: cs'))))

end

/-! ### Where a value starts and where it ends -/

/-- Whether a value may start with a character. -/
def opensValue (c : Char) : Bool := !Reader.isBlank c && c ≠ ']' && c ≠ '\x7d'

theorem opensValue_digit {c : Char} (h : c.isDigit) : opensValue c := by
  have hne : ∀ d : Char, d.isDigit = false → c ≠ d := fun d hd he => by rw [he, hd] at h; cases h
  have hblank : Reader.isBlank c = false := by
    simp [Reader.isBlank, hne ' ' rfl, hne '\t' rfl, hne '\n' rfl, hne '\r' rfl]
  simp [opensValue, hblank, hne ']' rfl, hne '\x7d' rfl]

theorem Numeral.opens (m : Numeral) : ∃ c cs', m.text = c :: cs' ∧ opensValue c := by
  obtain ⟨c, cs, hwhole⟩ := List.exists_cons_of_ne_nil m.digits_whole.1
  cases hnegative : m.negative with
  | true => exact ⟨'-', m.unsigned, by rw [text, hnegative]; rfl, rfl⟩
  | false =>
    refine ⟨c, cs ++ (fractionText m.fraction ++ exponentText m.exponent), ?_, ?_⟩
    · rw [text, hnegative, unsigned, hwhole]
      rfl
    · exact opensValue_digit (m.digits_whole.2 c (by rw [hwhole]; exact List.mem_cons_self ..))

theorem Renders.opens {v : Draft} {cs : List Char} (h : Renders v cs) :
    ∃ c cs', cs = c :: cs' ∧ opensValue c := by
  cases h with
  | null => exact ⟨_, _, rfl, rfl⟩
  | bool b => cases b <;> exact ⟨_, _, rfl, rfl⟩
  | number m => exact m.opens
  | text s => exact ⟨_, _, rfl, rfl⟩
  | emptyList => exact ⟨_, _, rfl, rfl⟩
  | list _ => exact ⟨_, _, rfl, rfl⟩
  | emptyObject => exact ⟨_, _, rfl, rfl⟩
  | object _ => exact ⟨_, _, rfl, rfl⟩

namespace Reader

theorem skipBlanks_append {ws : List Char} (h : Blanks ws) (gs : List Glyph) :
    skipBlanks (ws.map some ++ gs) = skipBlanks gs := by
  induction ws with
  | nil => rfl
  | cons c ws ih =>
    rw [List.map_cons, List.cons_append, skipBlanks]
    simp only [h c (List.mem_cons_self ..), if_true]
    exact ih fun d hd => h d (List.mem_cons_of_mem _ hd)

theorem skipBlanks_of_not {c : Char} (h : isBlank c = false) (gs : List Glyph) :
    skipBlanks (some c :: gs) = some c :: gs := by
  rw [skipBlanks]
  simp only [h, Bool.false_eq_true, if_false]

theorem skipBlanks_opens {c : Char} (h : opensValue c) (gs : List Glyph) :
    skipBlanks (some c :: gs) = some c :: gs := by
  simp only [opensValue, Bool.and_eq_true, Bool.not_eq_true'] at h
  exact skipBlanks_of_not h.1.1 gs

/-- A blank, a comma or a closing bracket follows, or nothing. -/
theorem endsNumber_cons {c : Char} (h : isBlank c ∨ c = ',' ∨ c = ']' ∨ c = '\x7d')
    (gs : List Glyph) : EndsNumber (some c :: gs) := by
  intro d hd
  obtain rfl : c = d := by simpa using hd
  simp only [isBlank, Bool.or_eq_true, decide_eq_true_eq] at h
  rcases h with ((((rfl | rfl) | rfl) | rfl) | rfl | rfl | rfl) <;> decide

theorem endsNumber_blanks {ws : List Char} (h : Blanks ws) {gs : List Glyph} (hgs : EndsNumber gs) :
    EndsNumber (ws.map some ++ gs) := by
  cases ws with
  | nil => exact hgs
  | cons c ws => exact endsNumber_cons (.inl (h c (List.mem_cons_self ..))) _

/-- Blanks in front of a value do not matter. -/
theorem value_blanks {ws : List Char} (h : Blanks ws) (fuel : Nat) (gs : List Glyph) :
    value fuel (ws.map some ++ gs) = value fuel gs := by
  cases fuel with
  | zero => rw [value, value]
  | succ fuel => rw [value, value, skipBlanks_append h]

/-- What the items of a list start with, blanks aside. -/
theorem skipBlanks_items {items : List Draft} {cs : List Char} (h : RendersItems items cs)
    (gs : List Glyph) :
    ∃ c after, skipBlanks (cs.map some ++ gs) = some c :: after ∧ opensValue c := by
  cases h with
  | last hws h _ =>
    obtain ⟨c, cs', rfl, hc⟩ := h.opens
    rw [List.map_append, List.append_assoc, skipBlanks_append hws]
    exact ⟨c, _, skipBlanks_opens hc _, hc⟩
  | more hws h _ =>
    obtain ⟨c, cs', rfl, hc⟩ := h.opens
    rw [List.map_append, List.append_assoc, skipBlanks_append hws]
    exact ⟨c, _, skipBlanks_opens hc _, hc⟩

/-- The members of an object start with a quote, blanks aside. -/
theorem skipBlanks_members {ms : List Draft.Member} {cs : List Char} (h : RendersMembers ms cs)
    (gs : List Glyph) : ∃ after, skipBlanks (cs.map some ++ gs) = some '"' :: after := by
  cases h with
  | last hws _ _ _ =>
    rw [List.map_append, List.append_assoc, skipBlanks_append hws]
    exact ⟨_, skipBlanks_of_not rfl _⟩
  | more hws _ _ _ =>
    rw [List.map_append, List.append_assoc, skipBlanks_append hws]
    exact ⟨_, skipBlanks_of_not rfl _⟩

/-! ### Reading a layout -/

/-- A text that starts with a digit is read as a number. -/
theorem value_digit {c : Char} (h : c.isDigit) (fuel : Nat) (gs : List Glyph) :
    value (fuel + 1) (some c :: gs) = numeral false (some c :: gs) := by
  rw [value, skipBlanks_opens (opensValue_digit h)]
  split
  case h_8 => rfl
  -- No digit is the first character of anything else.
  all_goals
    rename_i heq
    obtain ⟨rfl, -⟩ : c = _ ∧ _ := by simpa using heq
    exact absurd h (by decide)

theorem value_numeral (m : Numeral) (fuel : Nat) {gs : List Glyph} (hgs : EndsNumber gs) :
    value (fuel + 1) (m.text.map some ++ gs) = (.number m.number, some gs) := by
  have hread : numeral m.negative (m.unsigned.map some ++ gs) = (.number m.number, some gs) := by
    rw [numeral, number?_unsigned m hgs]
  rw [Numeral.text]
  cases hnegative : m.negative with
  | true =>
    rw [hnegative] at hread
    show value (fuel + 1) (some '-' :: (m.unsigned.map some ++ gs)) = _
    rw [value, skipBlanks_of_not rfl]
    exact hread
  | false =>
    rw [hnegative] at hread
    obtain ⟨d, ds, hwhole⟩ := List.exists_cons_of_ne_nil m.digits_whole.1
    have hd := m.digits_whole.2 d (by rw [hwhole]; exact List.mem_cons_self ..)
    rw [Numeral.unsigned, hwhole] at hread ⊢
    exact (value_digit hd fuel _).trans hread

theorem value_text (s : String) (fuel : Nat) (gs : List Glyph) :
    value (fuel + 1) ((quote s).map some ++ gs) = (.text (some s), some gs) := by
  rw [quote, List.map_cons, List.cons_append, value, skipBlanks_of_not rfl]
  simp only [string_quoted]

theorem value_bool (b : Bool) (fuel : Nat) (gs : List Glyph) :
    value (fuel + 1) ((truth b).map some ++ gs) = (.bool b, some gs) := by
  cases b
  · show value (fuel + 1) (some 'f' :: _) = _
    rw [value, skipBlanks_of_not rfl]
    rfl
  · show value (fuel + 1) (some 't' :: _) = _
    rw [value, skipBlanks_of_not rfl]
    rfl

theorem value_null (fuel : Nat) (gs : List Glyph) :
    value (fuel + 1) (['n', 'u', 'l', 'l'].map some ++ gs) = (.null, some gs) := by
  show value (fuel + 1) (some 'n' :: _) = _
  rw [value, skipBlanks_of_not rfl]
  rfl

/-- A list that does not close at once has items. -/
theorem value_list {c : Char} {gs after : List Glyph} (hskip : skipBlanks gs = some c :: after)
    (hc : opensValue c) {items : List Draft} {rest : Option (List Glyph)} {fuel : Nat}
    (helements : elements fuel gs = (items, rest)) :
    value (fuel + 1) (some '[' :: gs) = (.list items, rest) := by
  rw [value, skipBlanks_of_not rfl]
  simp only [hskip, helements]
  split
  · rename_i heq
    obtain ⟨rfl, -⟩ : c = ']' ∧ _ := by simpa using heq
    exact absurd hc (by decide)
  · rfl

theorem value_object {gs after : List Glyph} (hskip : skipBlanks gs = some '"' :: after)
    {ms : List Draft.Member} {rest : Option (List Glyph)} {fuel : Nat}
    (hmembers : members fuel gs = (ms, rest)) :
    value (fuel + 1) (some '\x7b' :: gs) = (.object ms, rest) := by
  rw [value, skipBlanks_of_not rfl]
  simp only [hskip, hmembers]
  rfl

/-- The last member is read up to the end of the object. -/
theorem members_last {key : String} {v : Draft} {ws ws' : List Char} (hws : Blanks ws)
    (hws' : Blanks ws') {gs after rest : List Glyph} {fuel : Nat}
    (hvalue : value fuel gs = (v, some after))
    (hskip : skipBlanks after = some '\x7d' :: rest) :
    members (fuel + 1) (ws.map some ++ ((quote key).map some ++ some ':' :: (ws'.map some ++ gs))) =
      ([(some key, v)], some rest) := by
  rw [members, skipBlanks_append hws, quote, List.map_cons, List.cons_append, skipBlanks_of_not rfl]
  simp only [string_quoted, skipBlanks_of_not (c := ':') rfl, value_blanks hws', hvalue, hskip]

/-- Any other member is read before those behind it. -/
theorem members_more {key : String} {v : Draft} {ws ws' : List Char} (hws : Blanks ws)
    (hws' : Blanks ws') {gs after rest : List Glyph} {fuel : Nat}
    (hvalue : value fuel gs = (v, some after))
    (hskip : skipBlanks after = some ',' :: rest) :
    members (fuel + 1) (ws.map some ++ ((quote key).map some ++ some ':' :: (ws'.map some ++ gs))) =
      ((some key, v) :: (members fuel rest).1, (members fuel rest).2) := by
  rw [members, skipBlanks_append hws, quote, List.map_cons, List.cons_append, skipBlanks_of_not rfl]
  simp only [string_quoted, skipBlanks_of_not (c := ':') rfl, value_blanks hws', hvalue, hskip]

mutual

/-- **A draft is read back from any of its texts**, and what follows it is left alone. -/
theorem value_renders {v : Draft} {cs : List Char} (h : Renders v cs) (fuel : Nat)
    (hfuel : 2 * cs.length < fuel) {gs : List Glyph} (hgs : EndsNumber gs) :
    value fuel (cs.map some ++ gs) = (v, some gs) := by
  obtain ⟨fuel, rfl⟩ : ∃ n, fuel = n + 1 := ⟨fuel - 1, by omega⟩
  cases h with
  | null => exact value_null fuel gs
  | bool b => exact value_bool b fuel gs
  | number m => exact value_numeral m fuel hgs
  | text s => exact value_text s fuel gs
  | emptyList =>
    show value (fuel + 1) (some '[' :: some ']' :: gs) = _
    rw [value, skipBlanks_of_not rfl]
    simp only [skipBlanks_of_not (c := ']') rfl]
  | emptyObject =>
    show value (fuel + 1) (some '\x7b' :: some '\x7d' :: gs) = _
    rw [value, skipBlanks_of_not rfl]
    simp only [skipBlanks_of_not (c := '\x7d') rfl]
  | list h =>
    rw [List.length_cons, List.length_append, List.length_singleton] at hfuel
    rw [List.map_cons, List.cons_append, List.map_append, List.append_assoc]
    obtain ⟨c, after, hskip, hc⟩ := skipBlanks_items h (some ']' :: gs)
    exact value_list hskip hc (elements_renders h fuel (by omega) gs)
  | object h =>
    rw [List.length_cons, List.length_append, List.length_singleton] at hfuel
    rw [List.map_cons, List.cons_append, List.map_append, List.append_assoc]
    obtain ⟨after, hskip⟩ := skipBlanks_members h (some '\x7d' :: gs)
    exact value_object hskip (members_renders h fuel (by omega) gs)

theorem elements_renders {items : List Draft} {cs : List Char} (h : RendersItems items cs)
    (fuel : Nat) (hfuel : 2 * cs.length + 2 ≤ fuel) (gs : List Glyph) :
    elements fuel (cs.map some ++ some ']' :: gs) = (items, some gs) := by
  obtain ⟨fuel, rfl⟩ : ∃ n, fuel = n + 1 := ⟨fuel - 1, by omega⟩
  cases h with
  | @last v ws cs ws' hws hv hws' =>
    simp only [List.length_append] at hfuel
    have hend : EndsNumber (ws'.map some ++ some ']' :: gs) :=
      endsNumber_blanks hws' (endsNumber_cons (by decide) gs)
    have hvalue := value_renders hv fuel (by omega) hend
    simp only [List.map_append, List.append_assoc]
    rw [elements, value_blanks hws, hvalue]
    simp only [skipBlanks_append hws', skipBlanks_of_not (c := ']') rfl]
  | @more v rest ws cs cs' hws hv hrest =>
    simp only [List.length_append, List.length_cons] at hfuel
    have hend : EndsNumber (some ',' :: (cs'.map some ++ some ']' :: gs)) :=
      endsNumber_cons (by decide) _
    have hvalue := value_renders hv fuel (by omega) hend
    simp only [List.map_append, List.map_cons, List.append_assoc, List.cons_append]
    rw [elements, value_blanks hws, hvalue]
    simp only [skipBlanks_of_not (c := ',') rfl, elements_renders hrest fuel (by omega) gs]

theorem members_renders {ms : List Draft.Member} {cs : List Char} (h : RendersMembers ms cs)
    (fuel : Nat) (hfuel : 2 * cs.length + 2 ≤ fuel) (gs : List Glyph) :
    members fuel (cs.map some ++ some '\x7d' :: gs) = (ms, some gs) := by
  obtain ⟨fuel, rfl⟩ : ∃ n, fuel = n + 1 := ⟨fuel - 1, by omega⟩
  cases h with
  | @last key v ws ws' cs ws'' hws hws' hv hws'' =>
    simp only [List.length_append, List.length_cons] at hfuel
    have hend : EndsNumber (ws''.map some ++ some '\x7d' :: gs) :=
      endsNumber_blanks hws'' (endsNumber_cons (by decide) gs)
    have hvalue := value_renders hv fuel (by omega) hend
    simp only [List.map_append, List.map_cons, List.append_assoc, List.cons_append]
    have hskip : skipBlanks (ws''.map some ++ some '\x7d' :: gs) = some '\x7d' :: gs := by
      rw [skipBlanks_append hws'', skipBlanks_of_not rfl]
    exact members_last hws hws' hvalue hskip
  | @more key v rest ws ws' cs cs' hws hws' hv hrest =>
    simp only [List.length_append, List.length_cons] at hfuel
    have hend : EndsNumber (some ',' :: (cs'.map some ++ some '\x7d' :: gs)) :=
      endsNumber_cons (by decide) _
    have hvalue := value_renders hv fuel (by omega) hend
    simp only [List.map_append, List.map_cons, List.append_assoc, List.cons_append]
    rw [members_more hws hws' hvalue (skipBlanks_of_not (c := ',') rfl _),
      members_renders hrest fuel (by omega) gs]

end

end Reader

end CartLedger.Json
