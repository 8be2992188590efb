import CartLedger.Storage.Error

/-! The order of a stream: records are numbered from one, without gaps.

Checking the number is all that keeps two writers of one stream apart, so every journal
does it before it takes a record. -/
namespace CartLedger.Journal

/-- Whether `r` is the record that follows `highest`. -/
def checkNext (r : Record) (highest : Nat) : Except StorageError Unit :=
  if r.sequenceNr = highest + 1 then .ok ()
  else if r.sequenceNr ≤ highest then .error (.numberTaken r.stream (highest + 1) r.sequenceNr)
  else .error (.numberGap r.stream (highest + 1) r.sequenceNr)

/-- The number of the last record, zero if there is none. -/
def highestOf (records : List Record) : Nat :=
  match records.getLast? with
  | some r => r.sequenceNr
  | none => 0

end CartLedger.Journal
