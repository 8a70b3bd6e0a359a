import ContentModel.Text.Utf8

/-
# Percent encoding

A byte is kept when it is an ASCII letter, a digit, or one of `- . _ ~`; every other byte of the text
in UTF-8 is written as a percent sign and two uppercase hexadecimal digits.
-/

namespace ContentModel.Text

/-- The bytes that are kept. -/
def isUnreserved (b : UInt8) : Bool :=
  let c := Char.ofNat b.toNat
  c.isAlphanum || c == '-' || c == '.' || c == '_' || c == '~'

/-- An uppercase hexadecimal digit. -/
def upperHexDigit (n : Nat) : Char :=
  (Nat.digitChar n).toUpper

/-- A byte as a percent sign and two digits. -/
def escapeByte (b : UInt8) : List Char :=
  ['%', upperHexDigit (b.toNat / 16), upperHexDigit (b.toNat % 16)]

/-- A byte as it stands, when `keep` holds of it, or escaped. -/
def encodeByte (keep : UInt8 → Bool) (b : UInt8) : List Char :=
  if keep b then [Char.ofNat b.toNat] else escapeByte b

/-- A text as one segment of an address. -/
def percentEncode (s : String) : String :=
  String.ofList ((utf8 s).flatMap (encodeByte isUnreserved))

end ContentModel.Text
