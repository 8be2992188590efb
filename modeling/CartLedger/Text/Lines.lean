/-! Lines of a file that is only ever appended to.

A record is a line with its newline. A write that was cut short leaves bytes behind
the last newline; `intact` is what stands before them. -/
namespace CartLedger.Text.Lines

def newline : UInt8 := 10

/-- The pieces between newlines: one more than there are newlines. -/
def pieces : List UInt8 → List (List UInt8)
  | [] => [[]]
  | b :: rest =>
    if b = newline then [] :: pieces rest
    else
      match pieces rest with
      | [] => [[b]]
      | piece :: more => (b :: piece) :: more

/-- Everything up to and including the last newline. -/
def intact : List UInt8 → List UInt8
  | [] => []
  | b :: rest =>
    match intact rest with
    | [] => if b = newline then [b] else []
    | kept => b :: kept

/-- The lines of the intact part that hold anything, each with its number; blank lines
count. -/
def numbered (bytes : List UInt8) : List (Nat × List UInt8) :=
  ((pieces (intact bytes)).zipIdx 1).filterMap fun (line, number) =>
    if line.isEmpty then none else some (number, line)

/-- Every line that holds anything, also a last one without its newline. -/
def all (bytes : List UInt8) : List (List UInt8) :=
  (pieces bytes).filter (fun line => !line.isEmpty)

end CartLedger.Text.Lines
