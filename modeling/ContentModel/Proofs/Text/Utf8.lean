import ContentModel.Text.Utf8

/-
# Reading the bytes of a text

The bytes of a text spell it, and they are read as it, whether or not other bytes would be refused.

Main statements: `ofUtf8?_utf8` and `ofUtf8Lossy_utf8`.
-/

namespace ContentModel.Text

/-- **Strict reading.**  The bytes of a text spell it. -/
theorem ofUtf8?_utf8 (s : String) : ofUtf8? (utf8 s) = some s := by
  have hbytes : (utf8 s).toByteArray = s.toByteArray := String.utf8Encode_toList
  rw [ofUtf8?, hbytes, String.fromUTF8?, dif_pos s.isValidUTF8]
  rfl

/-! ## Byte by byte -/

/-- A byte that continues a character leaves one byte less to read. -/
theorem readBytes_some {c : OpenChar} {n : Nat} {bytes : Bytes} (hn : n < 0x40)
    (hleast : c.least ≤ n + 0x80) (hgreatest : n + 0x80 ≤ c.greatest) :
    readBytes (some c) (UInt8.ofNat (n + 0x80) :: bytes) =
      match c.later with
      | 0 => Char.ofNat (0x40 * c.code + n) :: readBytes none bytes
      | later + 1 => readBytes (some ⟨0x40 * c.code + n, later, 0x80, 0xBF⟩) bytes := by
  have hbyte : (UInt8.ofNat (n + 0x80)).toNat = n + 0x80 := by
    rw [UInt8.toNat_ofNat']
    omega
  rw [readBytes, hbyte, readNext, if_pos ⟨hleast, hgreatest⟩, Nat.add_sub_cancel]
  cases c.later <;> rfl

/-- The first byte of a character of several bytes. -/
theorem readBytes_none {b : Nat} {c : OpenChar} {bytes : Bytes} (hb : b < 0x100) (hfirst : 0x80 ≤ b)
    (h : openChar? b = some c) : readBytes none (UInt8.ofNat b :: bytes) = readBytes (some c) bytes := by
  have hbyte : (UInt8.ofNat b).toNat = b := by
    rw [UInt8.toNat_ofNat']
    omega
  rw [readBytes, hbyte, readFirst, if_neg (by omega), h]
  rfl

/-- The first of three bytes admits the second one. -/
theorem exists_openChar?_three {v : Nat} (hlow : 0x7FF < v) (hhigh : v < 0x10000)
    (hvalid : v < 0xD800 ∨ 0xDFFF < v) :
    ∃ c, openChar? (v / 4096 % 16 + 224) = some c ∧ c.code = v / 4096 % 16 ∧ c.later = 1 ∧
      c.least ≤ v / 64 % 64 + 0x80 ∧ v / 64 % 64 + 0x80 ≤ c.greatest := by
  rw [openChar?, if_neg (by omega)]
  split
  · exact ⟨_, rfl, by dsimp only; omega, rfl, by dsimp only; omega, by dsimp only; omega⟩
  · split
    · exact ⟨_, rfl, by dsimp only; omega, rfl, by dsimp only; omega, by dsimp only; omega⟩
    · rw [if_pos (by omega)]
      exact ⟨_, rfl, by dsimp only; omega, rfl, by dsimp only; omega, by dsimp only; omega⟩

/-- The first of four bytes admits the second one. -/
theorem exists_openChar?_four {v : Nat} (hlow : 0xFFFF < v) (hhigh : v < 0x110000) :
    ∃ c, openChar? (v / 262144 % 8 + 240) = some c ∧ c.code = v / 262144 % 8 ∧ c.later = 2 ∧
      c.least ≤ v / 4096 % 64 + 0x80 ∧ v / 4096 % 64 + 0x80 ≤ c.greatest := by
  rw [openChar?, if_neg (by omega), if_neg (by omega), if_neg (by omega), if_neg (by omega)]
  split
  · exact ⟨_, rfl, by dsimp only; omega, rfl, by dsimp only; omega, by dsimp only; omega⟩
  · split
    · exact ⟨_, rfl, by dsimp only; omega, rfl, by dsimp only; omega, by dsimp only; omega⟩
    · rw [if_pos (by omega)]
      exact ⟨_, rfl, by dsimp only; omega, rfl, by dsimp only; omega, by dsimp only; omega⟩

/-- The bytes of a character are read as it. -/
theorem readBytes_utf8EncodeChar (c : Char) (bytes : Bytes) :
    readBytes none (String.utf8EncodeChar c ++ bytes) = c :: readBytes none bytes := by
  have hchar : Char.ofNat c.val.toNat = c := Char.ofNat_toNat c
  have hvalid : c.val.toNat < 0xD800 ∨ 0xDFFF < c.val.toNat ∧ c.val.toNat < 0x110000 := c.valid
  rw [String.utf8EncodeChar]
  generalize c.val.toNat = v at hchar hvalid
  -- One case for each number of bytes; the digits of `v` to the base 64 are put together again.
  split
  · have hbyte : (UInt8.ofNat v).toNat = v := by
      rw [UInt8.toNat_ofNat']
      omega
    rw [List.singleton_append, readBytes, hbyte, readFirst, if_pos (by omega), hchar]
    rfl
  split
  · have hopen : openChar? (v / 64 % 32 + 192) = some ⟨v / 64 % 32, 0, 0x80, 0xBF⟩ := by
      rw [openChar?, if_pos (by omega), Nat.add_sub_cancel]
    have hcode : 0x40 * (v / 64 % 32) + v % 64 = v := by omega
    simp only [List.cons_append, List.nil_append]
    rw [readBytes_none (by omega) (by omega) hopen,
      readBytes_some (by omega) (by dsimp only; omega) (by dsimp only; omega)]
    dsimp only
    rw [hcode, hchar]
  split
  · obtain ⟨⟨code, later, least, greatest⟩, hopen, rfl, rfl, hleast, hgreatest⟩ :=
      exists_openChar?_three (v := v) (by omega) (by omega) (by omega)
    have hcode : 0x40 * (0x40 * (v / 4096 % 16) + v / 64 % 64) + v % 64 = v := by omega
    simp only [List.cons_append, List.nil_append]
    rw [readBytes_none (by omega) (by omega) hopen, readBytes_some (by omega) hleast hgreatest]
    dsimp only
    rw [readBytes_some (by omega) (by dsimp only; omega) (by dsimp only; omega)]
    dsimp only
    rw [hcode, hchar]
  · obtain ⟨⟨code, later, least, greatest⟩, hopen, rfl, rfl, hleast, hgreatest⟩ :=
      exists_openChar?_four (v := v) (by omega) (by omega)
    have hcode : 0x40 * (0x40 * (0x40 * (v / 262144 % 8) + v / 4096 % 64) + v / 64 % 64) + v % 64 = v := by
      omega
    simp only [List.cons_append, List.nil_append]
    rw [readBytes_none (by omega) (by omega) hopen, readBytes_some (by omega) hleast hgreatest]
    dsimp only
    rw [readBytes_some (by omega) (by dsimp only; omega) (by dsimp only; omega)]
    dsimp only
    rw [readBytes_some (by omega) (by dsimp only; omega) (by dsimp only; omega)]
    dsimp only
    rw [hcode, hchar]

/-- **Lenient reading.**  The bytes of a text are read as it. -/
theorem ofUtf8Lossy_utf8 (s : String) : ofUtf8Lossy (utf8 s) = s := by
  rw [ofUtf8Lossy, utf8, ← String.toList_inj, String.toList_ofList]
  induction s.toList with
  | nil => rfl
  | cons c cs ih => rw [List.flatMap_cons, readBytes_utf8EncodeChar, ih]

/-- A character that breaks off, and a byte that no character begins with. -/
example : ofUtf8Lossy [0x61, 0xF0, 0x9F, 0x62, 0xFF] = "a\uFFFDb\uFFFD" := by decide +kernel

end ContentModel.Text
