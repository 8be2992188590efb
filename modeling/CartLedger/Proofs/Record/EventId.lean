import CartLedger.Record.EventId

/-! An event id is read back from its text.

The text is the 32 digits in five groups. None of its first characters is a brace or a
letter that starts a URN, so it is read as groups, and the digits between the hyphens
are the digits of the id (`ofString?_toString`). -/
namespace CartLedger.Record.EventId

theorem digitOf?_digitChar : ∀ d : Fin 16, digitOf? (digitChar d) = some d := by decide

theorem mapM_digitOf? (ds : List (Fin 16)) : (ds.map digitChar).mapM digitOf? = some ds := by
  induction ds with
  | nil => rfl
  | cons d ds ih => rw [List.map_cons, List.mapM_cons, digitOf?_digitChar, ih]; rfl

theorem readPlain?_digits (e : EventId) : readPlain? (e.digits.map digitChar) = some e := by
  rw [readPlain?, mapM_digitOf?]
  exact dif_pos e.length_digits

/-- Five groups with hyphens between them, cut at the hyphens. -/
theorem readGroups?_join {a b c d e : List Char} (ha : a.length = 8) (hb : b.length = 4)
    (hc : c.length = 4) (hd : d.length = 4) (he : e.length = 12) :
    readGroups? (a ++ '-' :: (b ++ '-' :: (c ++ '-' :: (d ++ '-' :: e)))) =
      readPlain? (a ++ b ++ c ++ d ++ e) := by
  have hlength : (a ++ '-' :: (b ++ '-' :: (c ++ '-' :: (d ++ '-' :: e)))).length = 36 := by
    simp [ha, hb, hc, hd, he]
  have hmarks : (a ++ '-' :: (b ++ '-' :: (c ++ '-' :: (d ++ '-' :: e))))[8]? = some '-' ∧
      (a ++ '-' :: (b ++ '-' :: (c ++ '-' :: (d ++ '-' :: e))))[13]? = some '-' ∧
      (a ++ '-' :: (b ++ '-' :: (c ++ '-' :: (d ++ '-' :: e))))[18]? = some '-' ∧
      (a ++ '-' :: (b ++ '-' :: (c ++ '-' :: (d ++ '-' :: e))))[23]? = some '-' := by
    simp [List.getElem?_append, ha, hb, hc, hd]
  rw [readGroups?, if_pos ⟨hlength, hmarks⟩]
  simp [List.drop_append, List.drop_of_length_le, ha, hb, hc, hd]

/-- The groups of an id, which together are its digits. -/
theorem readGroups?_text (e : EventId) : readGroups? e.text = some e := by
  have hlength : (e.digits.map digitChar).length = 32 := by rw [List.length_map, e.length_digits]
  rw [← readPlain?_digits e, text]
  generalize e.digits.map digitChar = cs at hlength
  have hcs : cs.take 8 ++ (cs.drop 8).take 4 ++ (cs.drop 12).take 4 ++ (cs.drop 16).take 4 ++
      cs.drop 20 = cs := by
    have h16 := List.take_append_drop 4 (cs.drop 16)
    have h12 := List.take_append_drop 4 (cs.drop 12)
    have h8 := List.take_append_drop 4 (cs.drop 8)
    rw [List.drop_drop] at h16 h12 h8
    simp only [List.append_assoc]
    rw [h16, h12, h8, List.take_append_drop]
  rw [readGroups?_join (by simp [hlength]) (by simp [hlength]) (by simp [hlength])
    (by simp [hlength]) (by simp [hlength]), hcs]

theorem digitChar_first :
    ∀ d : Fin 16, digitChar d ≠ '\x7b' ∧ (digitChar d).toLower ≠ 'u' := by decide

theorem read?_text (e : EventId) : read? e.text = some e := by
  have hgroups := readGroups?_text e
  have hlength : e.text.length = 36 := by simp [text, e.length_digits]
  obtain ⟨d, ds, hds⟩ : ∃ d ds, e.digits = d :: ds := by
    cases h : e.digits with
    | nil =>
      have := e.length_digits
      rw [h] at this
      cases this
    | cons d ds => exact ⟨d, ds, rfl⟩
  obtain ⟨rest, htext⟩ : ∃ rest, e.text = digitChar d :: rest := by
    rw [text, hds]
    exact ⟨_, rfl⟩
  obtain ⟨hbrace, hurn⟩ := digitChar_first d
  have hmark : (e.text.take urnMark.length).map Char.toLower ≠ urnMark := by
    rw [htext]
    intro h
    exact hurn (List.cons.inj h).1
  rw [read?]
  · rw [if_neg hmark, if_neg (by rw [hlength]; decide), hgroups]
  · intro rest' heq
    rw [htext] at heq
    exact hbrace (List.cons.inj heq).1

theorem ofString?_toString (e : EventId) : ofString? e.toString = some e := by
  rw [ofString?, toString, String.toList_ofList, read?_text]

end CartLedger.Record.EventId
