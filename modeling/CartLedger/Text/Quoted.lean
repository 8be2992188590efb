import CartLedger.Text.Unprintable

/-! Text as it is shown in messages: between double quotes, with everything escaped that
could not be told apart when read. -/
namespace CartLedger.Text.Quoted

/-- A code point by its number, in lower-case hexadecimal. -/
def codePoint (c : Char) : List Char :=
  ['\\', 'u', '\x7b'] ++ Nat.toDigits 16 c.toNat ++ ['\x7d']

def escape (c : Char) : List Char :=
  match c with
  | '\x00' => ['\\', '0']
  | '\t' => ['\\', 't']
  | '\r' => ['\\', 'r']
  | '\n' => ['\\', 'n']
  | '"' => ['\\', '"']
  | '\\' => ['\\', '\\']
  | c =>
    if c < ' ' ∨ c = '\x7f' then codePoint c
    else if c.toNat < 0x80 then [c]
    else if Unprintable.contains c then codePoint c
    else [c]

def quote (s : String) : String := String.ofList ('"' :: (s.toList.flatMap escape ++ ['"']))

end CartLedger.Text.Quoted
