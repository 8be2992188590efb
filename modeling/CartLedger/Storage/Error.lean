import CartLedger.Record.Basic
import CartLedger.Storage.Disk
import CartLedger.Text.Quoted

/-! Why a storage operation is refused. -/
namespace CartLedger

open Storage (Path Trouble) in
inductive StorageError where
  /-- The journal takes nothing at the moment. -/
  | unavailable
  /-- The number is one that the stream already has. -/
  | numberTaken (stream : StreamId) (expected got : Nat)
  /-- The number leaves a gap. -/
  | numberGap (stream : StreamId) (expected got : Nat)
  /-- The name would lead out of its directory, or to no entry of its own. -/
  | unusableName (name : String)
  /-- A line that is no record. -/
  | illegibleLine (file : Path) (line : Nat)
  /-- Something else that was stored and cannot be understood. -/
  | illegible
  | system (trouble : Trouble)
  deriving DecidableEq, Repr

namespace StorageError

def numberMessage (stream : StreamId) (expected got : Nat) : String :=
  "stream " ++ stream.shown ++ ": expected sequence number " ++ toString expected ++ ", got " ++
    toString got

/-- What is said about it; nothing where the words are somebody else's. Paths are shown
behind `base`. -/
def message? (base : String) : StorageError → Option String
  | .unavailable => some "journal unavailable"
  | .numberTaken stream expected got => some (numberMessage stream expected got)
  | .numberGap stream expected got => some (numberMessage stream expected got)
  | .unusableName name => some (Text.Quoted.quote name ++ " cannot be used as a path component")
  | .illegibleLine file line => some (file.shown base ++ ": line " ++ toString line)
  | .illegible => none
  | .system _ => none

end StorageError

end CartLedger
