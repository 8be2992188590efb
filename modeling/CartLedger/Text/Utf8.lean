/-! Bytes read as characters.

A file is bytes, a document is characters. `glyphs` reads bytes as UTF-8 and goes on
where they are not: a byte at which no well-formed character starts is the glyph
`none`. A byte of ASCII is always its own glyph, so the structure of a document can
still be read around a damaged string. -/
namespace CartLedger.Text.Utf8

/-- A character, or a byte that belongs to none. -/
abbrev Glyph := Option Char

def encode (cs : List Char) : List UInt8 := cs.flatMap String.utf8EncodeChar

/-- The character that the bytes start with. -/
def first? (bytes : List UInt8) : Option Char := (bytes.take 4).toByteArray.utf8DecodeChar? 0

/-- Reads glyphs after passing over `skip` bytes, the rest of a character already read. -/
def glyphsAfter (skip : Nat) : List UInt8 → List Glyph
  | [] => []
  | b :: rest =>
    match skip with
    | n + 1 => glyphsAfter n rest
    | 0 =>
      match first? (b :: rest) with
      | some c => some c :: glyphsAfter (c.utf8Size - 1) rest
      | none => none :: glyphsAfter 0 rest

def glyphs (bytes : List UInt8) : List Glyph := glyphsAfter 0 bytes

/-- The characters of bytes that are UTF-8 throughout. -/
def decode? (bytes : List UInt8) : Option (List Char) := (glyphs bytes).mapM id

def ofString (s : String) : List UInt8 := encode s.toList

end CartLedger.Text.Utf8
