/-
# Texts as bytes

A text is stored and sent as its bytes in UTF-8.  Bytes that come from elsewhere need not be those of a text.
They are then either refused, or read with a replacement character for each longest run of bytes that a
character could have begun with, and for each byte that no character begins with.
-/

namespace ContentModel

/-- The bytes of a file or a body. -/
abbrev Bytes := List UInt8

namespace Text

/-- The bytes of a text in UTF-8. -/
def utf8 (s : String) : Bytes :=
  s.toList.flatMap String.utf8EncodeChar

/-- The text that bytes spell, if they spell one. -/
def ofUtf8? (bytes : Bytes) : Option String :=
  String.fromUTF8? bytes.toByteArray

/-! ## Bytes that need not spell a text -/

/-- A character of which not all bytes are read. -/
structure OpenChar where
  /-- The number that the bytes read so far stand for. -/
  code : Nat
  /-- How many bytes there are after the next one. -/
  later : Nat
  /-- The least value of the next byte. -/
  least : Nat
  /-- The greatest value of the next byte. -/
  greatest : Nat
  deriving DecidableEq, Repr

/-- A character of several bytes after the first of them. -/
def openChar? (b : Nat) : Option OpenChar :=
  if 0xC2 ≤ b ∧ b ≤ 0xDF then some ⟨b - 0xC0, 0, 0x80, 0xBF⟩
  else if b = 0xE0 then some ⟨0, 1, 0xA0, 0xBF⟩
  else if b = 0xED then some ⟨0xD, 1, 0x80, 0x9F⟩
  else if 0xE1 ≤ b ∧ b ≤ 0xEF then some ⟨b - 0xE0, 1, 0x80, 0xBF⟩
  else if b = 0xF0 then some ⟨0, 2, 0x90, 0xBF⟩
  else if b = 0xF4 then some ⟨4, 2, 0x80, 0x8F⟩
  else if 0xF1 ≤ b ∧ b ≤ 0xF3 then some ⟨b - 0xF0, 2, 0x80, 0xBF⟩
  else none

/-- What stands for bytes that are those of no character. -/
def replacement : Char := '\uFFFD'

/-- Reads the first byte of a character: the characters that are then complete, and the one that is not. -/
def readFirst (b : Nat) : List Char × Option OpenChar :=
  if b < 0x80 then ([Char.ofNat b], none)
  else match openChar? b with
    | some c => ([], some c)
    | none => ([replacement], none)

/-- Reads a byte of a character that is not complete. -/
def readNext (c : OpenChar) (b : Nat) : List Char × Option OpenChar :=
  if c.least ≤ b ∧ b ≤ c.greatest then
    let code := 0x40 * c.code + (b - 0x80)
    match c.later with
    | 0 => ([Char.ofNat code], none)
    | later + 1 => ([], some ⟨code, later, 0x80, 0xBF⟩)
  else (replacement :: (readFirst b).1, (readFirst b).2)

/-- The characters that bytes stand for, after a character that is not complete, if there is one. -/
def readBytes : Option OpenChar → Bytes → List Char
  | none, [] => []
  | some _, [] => [replacement]
  | none, b :: bytes => (readFirst b.toNat).1 ++ readBytes (readFirst b.toNat).2 bytes
  | some c, b :: bytes => (readNext c b.toNat).1 ++ readBytes (readNext c b.toNat).2 bytes

/-- The text that bytes stand for. -/
def ofUtf8Lossy (bytes : Bytes) : String :=
  String.ofList (readBytes none bytes)

end Text

end ContentModel
