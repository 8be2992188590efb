import CartLedger.Proofs.Json.Printing

/-! Objects written directly behind something else.

When a text was cut short and an object is written behind it without a break, the two are one
text. It is never a document, unless all that stands in front is blank: reading stops in front of
the object, or takes it for a part of something that then is not closed, or it takes the object's
brace for the rest of a string, which ends at the first quote of the object with the key behind it
(`value_front`). -/
namespace CartLedger.Json
open Text.Utf8 (Glyph)

namespace Reader

/-- An object, of the first key of which the first letter is known. -/
def opened (tail : List Glyph) : List Glyph := some '\x7b' :: some '"' :: some 'i' :: tail

/-- What is left when reading has stopped in what stands in front of the object, or right behind it. -/
def Before (tail front rest : List Glyph) : Prop := ∃ mid, mid <:+ front ∧ rest = mid ++ opened tail

/-- What is left when reading has stopped there or in the object's first key. -/
def Short (tail front rest : List Glyph) : Prop := Before tail front rest ∨ rest = some 'i' :: tail

variable {tail front front' rest : List Glyph}

theorem Before.self (tail front : List Glyph) : Before tail front (front ++ opened tail) :=
  ⟨front, List.suffix_refl front, rfl⟩

theorem Before.mono (h : Before tail front rest) (hfront : front <:+ front') : Before tail front' rest := by
  obtain ⟨mid, hmid, rfl⟩ := h
  exact ⟨mid, hmid.trans hfront, rfl⟩

theorem Before.short (h : Before tail front rest) : Short tail front rest := .inl h

theorem Short.mono (h : Short tail front rest) (hfront : front <:+ front') : Short tail front' rest :=
  h.imp (fun h => h.mono hfront) fun h => h

/-- Anything but a brace that comes next is in front of the object. -/
theorem front_of_cons {g : Glyph} (hg : g ≠ some '\x7b') (h : front ++ opened tail = g :: rest) :
    ∃ behind, front = g :: behind ∧ rest = behind ++ opened tail := by
  cases front with
  | nil => exact absurd (List.cons.inj h).1.symm hg
  | cons g behind =>
    obtain ⟨rfl, hrest⟩ := List.cons.inj h
    exact ⟨behind, rfl, hrest.symm⟩

/-! ### Blanks -/

theorem skipBlanks_suffix (gs : List Glyph) : skipBlanks gs <:+ gs := by
  induction gs with
  | nil => exact List.suffix_refl _
  | cons g gs ih =>
    cases g with
    | none => exact List.suffix_refl _
    | some c =>
      rw [skipBlanks]
      split
      · exact ih.trans (List.suffix_cons _ _)
      · exact List.suffix_refl _

theorem skipBlanks_front (tail front : List Glyph) :
    skipBlanks (front ++ opened tail) = skipBlanks front ++ opened tail := by
  induction front with
  | nil => rfl
  | cons g front ih =>
    cases g with
    | none => rfl
    | some c =>
      rw [List.cons_append, skipBlanks, skipBlanks]
      split
      · exact ih
      · rfl

/-- What comes next, blanks aside, if reading has stopped short. -/
theorem Short.next (h : Short tail front rest) {c : Char} {after : List Glyph} (hc : c ≠ '\x7b') (hi : c ≠ 'i')
    (hnext : skipBlanks rest = some c :: after) : ∃ mid, some c :: mid <:+ front ∧ after = mid ++ opened tail := by
  obtain ⟨mid, hmid, rfl⟩ | rfl := h
  · rw [skipBlanks_front] at hnext
    obtain ⟨behind, hskip, hafter⟩ := front_of_cons (fun he => hc (Option.some.inj he)) hnext
    exact ⟨behind, hskip ▸ (skipBlanks_suffix mid).trans hmid, hafter⟩
  · rw [skipBlanks_of_not rfl] at hnext
    exact absurd (Option.some.inj (List.cons.inj hnext).1).symm hi

/-! ### Words and numbers -/

theorem literal?_front {w : List Char} (hw : '\x7b' ∉ w) (h : literal? w (front ++ opened tail) = some rest) :
    Before tail front rest := by
  induction w generalizing front with
  | nil => exact Option.some.inj h ▸ .self tail front
  | cons c w ih =>
    cases front with
    | nil =>
      have hc : c ≠ '\x7b' := fun he => hw (he ▸ List.mem_cons_self ..)
      rw [List.nil_append, opened, literal?, if_neg hc] at h
      cases h
    | cons g front =>
      cases g with
      | none => cases h
      | some d =>
        rw [List.cons_append, literal?] at h
        split at h
        · exact (ih (fun hm => hw (List.mem_cons_of_mem _ hm)) h).mono (List.suffix_cons _ _)
        · cases h

theorem digits_front (tail front : List Glyph) : Before tail front (digits (front ++ opened tail)).2 := by
  induction front with
  | nil => exact .self tail []
  | cons g front ih =>
    cases g with
    | none => exact .self tail _
    | some c =>
      rw [List.cons_append, digits]
      split
      · exact ih.mono (List.suffix_cons _ _)
      · exact .self tail (some c :: front)

theorem fraction?_front {fraction : Option (List Char)} (h : fraction? (front ++ opened tail) = some (fraction, rest)) :
    Before tail front rest := by
  unfold fraction? at h
  split at h
  · next hpoint =>
    obtain ⟨behind, rfl, rfl⟩ := front_of_cons (by decide) hpoint
    split at h
    · cases h
    · next ds after _ hdigits =>
      obtain ⟨-, rfl⟩ := Prod.mk.inj (Option.some.inj h)
      have hafter := digits_front tail behind
      rw [hdigits] at hafter
      exact hafter.mono (List.suffix_cons _ _)
  · exact (Prod.mk.inj (Option.some.inj h)).2 ▸ .self tail front

theorem exponent?_front {exponent : Option Int} (h : exponent? (front ++ opened tail) = some (exponent, rest)) :
    Before tail front rest := by
  unfold exponent? at h
  split at h
  · next c behind hletter =>
    split at h
    · next hc =>
      have hbrace : some c ≠ some '\x7b' := by
        rintro ⟨⟩
        revert hc
        decide
      obtain ⟨behind, rfl, rfl⟩ := front_of_cons hbrace hletter
      -- A sign may come before the digits.
      split at h
      next negative body hsign =>
      have hbody : Before tail behind body := by
        split at hsign
        · next hplus =>
          obtain ⟨digits, rfl, rfl⟩ := front_of_cons (by decide) hplus
          obtain ⟨-, rfl⟩ := Prod.mk.inj hsign
          exact (Before.self tail digits).mono (List.suffix_cons _ _)
        · next hminus =>
          obtain ⟨digits, rfl, rfl⟩ := front_of_cons (by decide) hminus
          obtain ⟨-, rfl⟩ := Prod.mk.inj hsign
          exact (Before.self tail digits).mono (List.suffix_cons _ _)
        · obtain ⟨-, rfl⟩ := Prod.mk.inj hsign
          exact .self tail behind
      obtain ⟨mid, hmid, rfl⟩ := hbody
      split at h
      · cases h
      · next ds after _ hdigits =>
        obtain ⟨-, rfl⟩ := Prod.mk.inj (Option.some.inj h)
        have hafter := digits_front tail mid
        rw [hdigits] at hafter
        exact hafter.mono (hmid.trans (List.suffix_cons _ _))
    · exact (Prod.mk.inj (Option.some.inj h)).2 ▸ hletter ▸ .self tail front
  · exact (Prod.mk.inj (Option.some.inj h)).2 ▸ .self tail front

theorem number?_front {negative : Bool} {n : Option Number}
    (h : number? negative (front ++ opened tail) = some (n, rest)) : Before tail front rest := by
  rw [number?] at h
  split at h
  · cases h
  · next d ds after hdigits =>
    have hafter := digits_front tail front
    rw [hdigits] at hafter
    obtain ⟨mid, hmid, rfl⟩ := hafter
    split at h
    · cases h
    · obtain ⟨⟨fraction, behind⟩, hfraction, h⟩ := Option.bind_eq_some_iff.1 h
      obtain ⟨mid', hmid', rfl⟩ := fraction?_front hfraction
      obtain ⟨⟨exponent, behind⟩, hexponent, h⟩ := Option.bind_eq_some_iff.1 h
      obtain ⟨-, rfl⟩ := Prod.mk.inj (Option.some.inj h)
      exact (exponent?_front hexponent).mono (hmid'.trans hmid)

/-! ### Strings -/

/-- The digits of a code unit are no braces. -/
theorem brace_of_unit? {a b c d : Glyph} {u : Nat} (h : unit? a b c d = some u) :
    a ≠ some '\x7b' ∧ b ≠ some '\x7b' ∧ c ≠ some '\x7b' ∧ d ≠ some '\x7b' := by
  have hbrace : hexValue? '\x7b' = none := by decide
  simp only [unit?, Option.bind_eq_bind, Option.bind_eq_some_iff] at h
  obtain ⟨a, rfl, va, ha, b, rfl, vb, hb, c, rfl, vc, hc, d, rfl, vd, hd, -⟩ := h
  have hne : ∀ {e : Char} {v : Nat}, hexValue? e = some v → some e ≠ some '\x7b' := by
    rintro e v he ⟨⟩
    rw [hbrace] at he
    cases he
  exact ⟨hne ha, hne hb, hne hc, hne hd⟩

/-- A string in front takes the brace with it, if it is not closed before. -/
theorem pieces_front (h : (pieces (front ++ opened tail)).2 = some rest) : Short tail front rest := by
  generalize hgs : front ++ opened tail = gs at h
  revert h
  fun_induction pieces gs generalizing front with
  | case1 => exact fun h => by cases h
  | case2 gs ps after hpieces ih =>
    intro h
    obtain ⟨behind, rfl, hbehind⟩ := front_of_cons (by decide) hgs
    rw [hpieces] at ih
    exact (ih hbehind.symm h).mono (List.suffix_cons _ _)
  | case3 gs =>
    intro h
    obtain ⟨behind, rfl, rfl⟩ := front_of_cons (by decide) hgs
    exact .inl (Option.some.inj h ▸ (Before.self tail behind).mono (List.suffix_cons _ _))
  | case4 => exact fun h => by cases h
  | case5 a b c d gs u hunit ps after hpieces ih =>
    intro h
    obtain ⟨ha, hb, hc, hd⟩ := brace_of_unit? hunit
    obtain ⟨f₁, rfl, h₁⟩ := front_of_cons (by decide) hgs
    obtain ⟨f₂, rfl, h₂⟩ := front_of_cons (by decide) h₁.symm
    obtain ⟨f₃, rfl, h₃⟩ := front_of_cons ha h₂.symm
    obtain ⟨f₄, rfl, h₄⟩ := front_of_cons hb h₃.symm
    obtain ⟨f₅, rfl, h₅⟩ := front_of_cons hc h₄.symm
    obtain ⟨behind, rfl, hbehind⟩ := front_of_cons hd h₅.symm
    rw [hpieces] at ih
    exact (ih hbehind.symm h).mono ⟨[some '\\', some 'u', a, b, c, d], rfl⟩
  | case6 => exact fun h => by cases h
  | case7 e gs _ c hshort ps after hpieces ih =>
    intro h
    obtain ⟨f₁, rfl, h₁⟩ := front_of_cons (by decide) hgs
    have he : some e ≠ some '\x7b' := by
      rintro ⟨⟩
      cases hshort
    obtain ⟨behind, rfl, hbehind⟩ := front_of_cons he h₁.symm
    rw [hpieces] at ih
    exact (ih hbehind.symm h).mono ⟨[some '\\', some e], rfl⟩
  | case8 => exact fun h => by cases h
  | case9 => exact fun h => by cases h
  | case10 c gs _ _ _ _ _ ps after hpieces ih =>
    intro h
    cases front with
    | nil =>
      -- The brace is taken as a character, and the quote behind it closes the string.
      obtain ⟨-, rfl⟩ := List.cons.inj hgs
      rw [pieces] at hpieces
      obtain ⟨-, rfl⟩ := Prod.mk.inj hpieces
      exact .inr (Option.some.inj h).symm
    | cons g behind =>
      obtain ⟨rfl, hbehind⟩ := List.cons.inj hgs
      rw [hpieces] at ih
      exact (ih hbehind h).mono (List.suffix_cons _ _)

theorem string_front {s : Option String} (h : string (front ++ opened tail) = (s, some rest)) : Short tail front rest :=
  pieces_front (Prod.mk.inj h).2

/-! ### Values -/

/-- A value that stands there on its own is what it is with blanks in front. -/
theorem value_congr {gs gs' : List Glyph} (h : skipBlanks gs = skipBlanks gs') (fuel : Nat) :
    value fuel gs = value fuel gs' := by
  cases fuel with
  | zero => rw [value, value]
  | succ fuel => rw [value, value, h]

theorem word_front {w : String} {d v : Draft} (hw : '\x7b' ∉ w.toList)
    (h : word w d (front ++ opened tail) = (v, some rest)) : Before tail front rest := by
  rw [word] at h
  split at h
  · next hliteral =>
    obtain rfl := Option.some.inj (Prod.mk.inj h).2
    exact literal?_front hw hliteral
  · cases h

theorem numeral_front {negative : Bool} {v : Draft} (h : numeral negative (front ++ opened tail) = (v, some rest)) :
    Before tail front rest := by
  rw [numeral] at h
  split at h
  · next hnumber =>
    obtain rfl := Option.some.inj (Prod.mk.inj h).2
    exact number?_front hnumber
  · cases h

/-- The object ends with the text. -/
def Ends (tail : List Glyph) : Prop := ∀ fuel, 2 * (opened tail).length < fuel → (value fuel (opened tail)).2 = some []

/-- Nothing comes behind the object, and what comes behind anything else is in front of it. -/
theorem next_front {c : Char} {after : List Glyph} (hc : c ≠ '\x7b') (hi : c ≠ 'i')
    (h : skipBlanks front = [] ∧ rest = [] ∨ Short tail front rest) (hnext : skipBlanks rest = some c :: after) :
    ∃ mid, some c :: mid <:+ front ∧ after = mid ++ opened tail := by
  obtain ⟨-, rfl⟩ | hshort := h
  · cases hnext
  · exact hshort.next hc hi hnext

mutual

/-- **Reading stops short of the object's end**, unless the object is all there is to read. -/
theorem value_front (hends : Ends tail) {front rest : List Glyph} (fuel : Nat)
    (hfuel : 2 * (front ++ opened tail).length < fuel) {v : Draft}
    (h : value fuel (front ++ opened tail) = (v, some rest)) :
    skipBlanks front = [] ∧ rest = [] ∨ Short tail front rest := by
  obtain ⟨fuel, rfl⟩ : ∃ n, fuel = n + 1 := ⟨fuel - 1, by omega⟩
  cases hskip : skipBlanks front with
  | nil =>
    have hsame : skipBlanks (front ++ opened tail) = skipBlanks (opened tail) := by
      rw [skipBlanks_front, hskip]
      rfl
    rw [List.length_append] at hfuel
    have hread := hends (fuel + 1) (by omega)
    rw [← value_congr hsame, h] at hread
    exact .inl ⟨rfl, Option.some.inj hread⟩
  | cons g behind =>
    right
    have hsuffix : g :: behind <:+ front := hskip ▸ skipBlanks_suffix front
    have hbehind := (List.suffix_cons g behind).trans hsuffix
    have hlength : 2 * (behind ++ opened tail).length + 2 ≤ fuel := by
      have hle := hsuffix.length_le
      simp only [List.length_append, List.length_cons] at hle hfuel ⊢
      omega
    rw [value, skipBlanks_front, hskip, List.cons_append] at h
    split at h
    case h_1 heq | h_2 heq | h_3 heq =>
      obtain ⟨-, rfl⟩ := List.cons.inj heq
      exact .inl ((word_front (by decide) h).mono hbehind)
    case h_4 heq =>
      obtain ⟨-, rfl⟩ := List.cons.inj heq
      split at h
      · next hstring =>
        obtain rfl := Option.some.inj (Prod.mk.inj h).2
        exact (string_front hstring).mono hbehind
      · cases h
    case h_5 heq =>
      obtain ⟨-, rfl⟩ := List.cons.inj heq
      exact .inl ((numeral_front h).mono hbehind)
    case h_6 heq =>
      obtain ⟨-, rfl⟩ := List.cons.inj heq
      split at h
      · next hclosed =>
        obtain rfl := Option.some.inj (Prod.mk.inj h).2
        obtain ⟨mid, hmid, rfl⟩ := (Before.self tail behind).short.next (by decide) (by decide) hclosed
        exact .inl ⟨mid, (List.suffix_cons _ _).trans (hmid.trans hbehind), rfl⟩
      · exact (elements_front hends fuel hlength (Prod.mk.inj h).2).mono hbehind
    case h_7 heq =>
      obtain ⟨-, rfl⟩ := List.cons.inj heq
      split at h
      · next hclosed =>
        obtain rfl := Option.some.inj (Prod.mk.inj h).2
        obtain ⟨mid, hmid, rfl⟩ := (Before.self tail behind).short.next (by decide) (by decide) hclosed
        exact .inl ⟨mid, (List.suffix_cons _ _).trans (hmid.trans hbehind), rfl⟩
      · exact (members_front hends fuel hlength (Prod.mk.inj h).2).mono hbehind
    case h_8 =>
      have hnumeral : numeral false ((g :: behind) ++ opened tail) = (v, some rest) := h
      exact .inl ((numeral_front hnumeral).mono hsuffix)

theorem elements_front (hends : Ends tail) {front rest : List Glyph} (fuel : Nat)
    (hfuel : 2 * (front ++ opened tail).length + 2 ≤ fuel)
    (h : (elements fuel (front ++ opened tail)).2 = some rest) : Short tail front rest := by
  obtain ⟨fuel, rfl⟩ : ∃ n, fuel = n + 1 := ⟨fuel - 1, by omega⟩
  rw [elements] at h
  split at h
  · cases h
  · next item behind hvalue =>
    have hbehind := value_front hends fuel (by omega) hvalue
    split at h
    · next hnext =>
      obtain ⟨mid, hmid, rfl⟩ := next_front (by decide) (by decide) hbehind hnext
      have hlength : 2 * (mid ++ opened tail).length + 2 ≤ fuel := by
        have hle := hmid.length_le
        simp only [List.length_append, List.length_cons] at hle hfuel ⊢
        omega
      exact (elements_front hends fuel hlength h).mono ((List.suffix_cons _ _).trans hmid)
    · next hnext =>
      obtain ⟨mid, hmid, rfl⟩ := next_front (by decide) (by decide) hbehind hnext
      obtain rfl := Option.some.inj h
      exact .inl ⟨mid, (List.suffix_cons _ _).trans hmid, rfl⟩
    · cases h

theorem members_front (hends : Ends tail) {front rest : List Glyph} (fuel : Nat)
    (hfuel : 2 * (front ++ opened tail).length + 2 ≤ fuel)
    (h : (members fuel (front ++ opened tail)).2 = some rest) : Short tail front rest := by
  obtain ⟨fuel, rfl⟩ : ∃ n, fuel = n + 1 := ⟨fuel - 1, by omega⟩
  rw [members] at h
  split at h
  · next hquote =>
    obtain ⟨mid₁, h₁, rfl⟩ := (Before.self tail front).short.next (by decide) (by decide) hquote
    split at h
    · cases h
    · next key behind hstring =>
      have hbehind := (string_front hstring).mono ((List.suffix_cons _ _).trans h₁)
      split at h
      · next hcolon =>
        obtain ⟨mid₂, h₂, rfl⟩ := hbehind.next (by decide) (by decide) hcolon
        split at h
        · cases h
        · next v after hvalue =>
          have hlength : 2 * (mid₂ ++ opened tail).length < fuel := by
            have hle := h₂.length_le
            simp only [List.length_append, List.length_cons] at hle hfuel ⊢
            omega
          have hafter := value_front hends fuel hlength hvalue
          have hmid₂ := (List.suffix_cons _ _).trans h₂
          split at h
          · next hcomma =>
            obtain ⟨mid₃, h₃, rfl⟩ := next_front (by decide) (by decide) hafter hcomma
            have hlength₃ : 2 * (mid₃ ++ opened tail).length + 2 ≤ fuel := by
              have hle := h₃.length_le
              simp only [List.length_append, List.length_cons] at hle hlength ⊢
              omega
            exact (members_front hends fuel hlength₃ h).mono
              ((List.suffix_cons _ _).trans (h₃.trans hmid₂))
          · next hclosed =>
            obtain ⟨mid₃, h₃, rfl⟩ := next_front (by decide) (by decide) hafter hclosed
            obtain rfl := Option.some.inj h
            exact .inl ⟨mid₃, (List.suffix_cons _ _).trans (h₃.trans hmid₂), rfl⟩
          · cases h
      · cases h
  · cases h

end

theorem skipBlanks_eq_nil_iff {ws : List Char} : skipBlanks (ws.map some) = [] ↔ Blanks ws := by
  induction ws with
  | nil => exact iff_of_true rfl blanks_nil
  | cons c ws ih =>
    rw [List.map_cons, skipBlanks, Blanks, List.forall_mem_cons]
    split
    · next hc => exact ih.trans (and_iff_right hc).symm
    · next hc => exact iff_of_false (List.cons_ne_nil _ _) fun h => hc h.1

end Reader

open Reader

/-- **An object behind anything but blanks is no document**, and neither is what stands in front of it with it. -/
theorem Document.complete_glued {tail front : List Glyph} (hends : Ends tail) (hfront : skipBlanks front ≠ []) :
    (Document.ofGlyphs (front ++ opened tail)).complete = false := by
  rw [Document.ofGlyphs]
  split
  · next rest hvalue =>
    obtain ⟨hblank, -⟩ | ⟨mid, -, rfl⟩ | rfl := value_front hends _ (Nat.lt_succ_self _) hvalue
    · exact absurd hblank hfront
    · rw [skipBlanks_front]
      exact List.isEmpty_eq_false_iff.2 (List.append_ne_nil_of_right_ne_nil _ (List.cons_ne_nil _ _))
    · rw [skipBlanks_of_not rfl]
      rfl
  · rfl

/-- Behind blanks it is the document that it is on its own, -/
theorem Document.ofGlyphs_blanks {ws cs : List Char} (hws : Blanks ws) {v : Draft} (h : Renders v cs) :
    Document.ofGlyphs ((ws ++ cs).map some) = ⟨v, true⟩ := by
  have hvalue := value_renders h (2 * ((ws ++ cs).map some).length + 1)
    (by rw [List.length_map, List.length_append]; omega) endsNumber_nil
  rw [List.append_nil, ← value_blanks hws, ← List.map_append] at hvalue
  rw [Document.ofGlyphs, hvalue]
  rfl

/-- and without it blanks are none. -/
theorem Document.complete_blanks {ws : List Char} (hws : Blanks ws) :
    (Document.ofGlyphs (ws.map some)).complete = false := by
  have hvalue : Reader.value (2 * (ws.map some).length + 1) (ws.map some) = broken := by
    rw [Reader.value, skipBlanks_eq_nil_iff.2 hws]
    rfl
  rw [Document.ofGlyphs, hvalue]
  rfl

end CartLedger.Json
