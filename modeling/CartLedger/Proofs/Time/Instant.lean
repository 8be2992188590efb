import CartLedger.Proofs.Time.Timestamp

/-! Instants that have no text of their own.

A clock may let any second go on for up to another whole one, not only the last of a minute.
An `Instant` is what such a clock shows: how long its second has lasted may reach almost two
seconds. The text of an instant knows a second that goes on only as the one with the number
sixty. So a fifty-ninth second that goes on is written as the sixtieth and has a text of its
own, while any other one is written as the second after it, and as that it comes back.

A `Timestamp` is an instant whose text comes back as the instant, and there are no others
(`ofString?_toString_iff`, `exists_timestamp_iff`). -/
namespace CartLedger.Time

structure IsInstant (hour minute second nanosecond : Nat) : Prop where
  hour_lt : hour < 24
  minute_lt : minute < 60
  second_lt : second < 60
  nanosecond_lt : nanosecond < 2000000000

instance (h m s n : Nat) : Decidable (IsInstant h m s n) :=
  decidable_of_iff (h < 24 ∧ m < 60 ∧ s < 60 ∧ n < 2000000000)
    ⟨fun ⟨a, b, c, d⟩ => ⟨a, b, c, d⟩, fun ⟨a, b, c, d⟩ => ⟨a, b, c, d⟩⟩

/-- What a clock shows whose seconds may go on: the second, and the nanoseconds since it began. -/
structure Instant where
  date : Date
  hour : Nat
  minute : Nat
  second : Nat
  nanosecond : Nat
  isInstant : IsInstant hour minute second nanosecond
  deriving DecidableEq

/-- The instant whose text a timestamp is the reading of. The sixtieth second of a minute is
the fifty-ninth that goes on. -/
def Timestamp.instant (t : Timestamp) : Instant :=
  have h := t.isTimeOfDay
  if hs : t.second < 60 then
    ⟨t.date, t.hour, t.minute, t.second, t.nanosecond,
      { hour_lt := h.hour_lt, minute_lt := h.minute_lt, second_lt := hs
        nanosecond_lt := Nat.lt_trans h.nanosecond_lt (by decide) }⟩
  else
    ⟨t.date, t.hour, t.minute, 59, 1000000000 + t.nanosecond,
      { hour_lt := h.hour_lt, minute_lt := h.minute_lt, second_lt := by decide
        nanosecond_lt := Nat.add_lt_add_left h.nanosecond_lt _ }⟩

namespace Instant

/-- How an instant is written: a second that goes on is given the number after its own. -/
def written (i : Instant) : Timestamp :=
  have h := i.isInstant
  if hn : i.nanosecond < 1000000000 then
    ⟨i.date, i.hour, i.minute, i.second, i.nanosecond,
      { hour_lt := h.hour_lt, minute_lt := h.minute_lt, second_le := Nat.le_of_lt h.second_lt
        nanosecond_lt := hn }⟩
  else
    ⟨i.date, i.hour, i.minute, i.second + 1, i.nanosecond - 1000000000,
      { hour_lt := h.hour_lt, minute_lt := h.minute_lt, second_le := h.second_lt
        nanosecond_lt := by have := h.nanosecond_lt; omega }⟩

def toString (i : Instant) : String := i.written.toString

def ofString? (s : String) : Option Instant := (Timestamp.ofString? s).map Timestamp.instant

/-- No second but the last of a minute goes on. -/
def Legible (i : Instant) : Prop := i.nanosecond < 1000000000 ∨ i.second = 59

/-! ### Instants and timestamps -/

theorem written_instant (t : Timestamp) : t.instant.written = t := by
  obtain ⟨date, hour, minute, second, nanosecond, h⟩ := t
  by_cases hs : second < 60
  · simp only [Timestamp.instant, dif_pos hs, written, dif_pos h.nanosecond_lt]
  · obtain rfl : second = 60 := Nat.le_antisymm h.second_le (Nat.not_lt.mp hs)
    have hlong : ¬ 1000000000 + nanosecond < 1000000000 := by omega
    simp only [Timestamp.instant, Nat.lt_irrefl, dite_false, written, dif_neg hlong, Nat.add_sub_cancel_left]

theorem instant_legible (t : Timestamp) : t.instant.Legible := by
  unfold Timestamp.instant
  split
  · exact .inl t.isTimeOfDay.nanosecond_lt
  · exact .inr rfl

/-- A legible instant is the one its text is read as. -/
theorem instant_written {i : Instant} (h : i.Legible) : i.written.instant = i := by
  obtain ⟨date, hour, minute, second, nanosecond, hi⟩ := i
  by_cases hn : nanosecond < 1000000000
  · simp only [written, dif_pos hn, Timestamp.instant, dif_pos hi.second_lt]
  · obtain rfl : second = 59 := h.resolve_left hn
    have hback : 1000000000 + (nanosecond - 1000000000) = nanosecond := by omega
    simp only [written, dif_neg hn, Timestamp.instant, Nat.reduceAdd, Nat.lt_irrefl, dite_false, hback]

theorem instant_written_iff (i : Instant) : i.written.instant = i ↔ i.Legible :=
  ⟨fun h => h ▸ instant_legible i.written, instant_written⟩

/-- Timestamps are the legible instants. -/
theorem exists_timestamp_iff (i : Instant) : (∃ t : Timestamp, t.instant = i) ↔ i.Legible := by
  constructor
  · rintro ⟨t, rfl⟩
    exact instant_legible t
  · intro h
    exact ⟨i.written, instant_written h⟩

/-! ### Texts -/

theorem ofString?_toString (i : Instant) : ofString? i.toString = some i.written.instant := by
  rw [ofString?, toString, Timestamp.ofString?_toString, Option.map_some]

/-- **What has a text of its own.** The text of an instant is read as that instant if and only
if no second but the last of a minute goes on in it. -/
theorem ofString?_toString_iff (i : Instant) : ofString? i.toString = some i ↔ i.Legible := by
  rw [ofString?_toString, Option.some_inj, instant_written_iff]

/-- No text at all is read as another instant. -/
theorem legible_of_ofString? {s : String} {i : Instant} (h : ofString? s = some i) : i.Legible := by
  obtain ⟨t, -, rfl⟩ := Option.map_eq_some_iff.mp h
  exact instant_legible t

/-- Instants share a text only if they are written alike. -/
theorem toString_eq_iff (i j : Instant) : i.toString = j.toString ↔ i.written = j.written := by
  constructor
  · intro h
    have hread := congrArg Timestamp.ofString? h
    rwa [toString, toString, Timestamp.ofString?_toString, Timestamp.ofString?_toString,
      Option.some_inj] at hread
  · intro h
    rw [toString, h, toString]

/-! ### A second that moves -/

/-- A second in the middle of its minute that has gone on for half another one. -/
def lateSecond : Instant := ⟨⟨2024, 5, 1, by decide⟩, 12, 0, 30, 1500000000, by decide⟩

/-- The middle of the second after it. -/
def nextSecond : Instant := ⟨⟨2024, 5, 1, by decide⟩, 12, 0, 31, 500000000, by decide⟩

theorem written_lateSecond : lateSecond.written = nextSecond.written := rfl

example : lateSecond.toString = "2024-05-01T12:00:31.500Z" := by rfl

theorem instant_lateSecond : lateSecond.written.instant = nextSecond := rfl

end Instant

end CartLedger.Time
