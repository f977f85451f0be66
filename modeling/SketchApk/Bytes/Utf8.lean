/-!
# Reading bytes as text

A sequence of bytes is *strictly* readable when it is well-formed UTF-8. Output that a program
prints is read *leniently*: every maximal part of an ill-formed sequence becomes one replacement
character `U+FFFD`, and reading goes on at the first byte that does not continue the sequence.

Before they were written in Unicode, the names of archives had code page 437. A byte below `0x80`
stands for the character of that number there, and each of the others for a character of a table.

## Main definitions

* `Bytes.text?`, `Bytes.lenientText` : strict and lenient reading.
* `Text.codePageText` : reading in the code page.
-/

namespace SketchApk.Bytes

/-! ### UTF-8 -/

/-- The text that well-formed UTF-8 encodes. -/
def text? (bytes : ByteArray) : Option String :=
  String.fromUTF8? bytes

/-- A sequence that has begun: the bits read so far, the number of bytes still to come, and the
range of the next one. -/
structure Pending where
  bits : Nat
  missing : Nat
  low : UInt8
  high : UInt8

/-- The character that stands for an ill-formed part. -/
def replacementCharacter : Char := '\uFFFD'

/-- What a byte at the beginning of a sequence contributes: a character, or a sequence that more
bytes have to continue. -/
def begin? (byte : UInt8) : Char ⊕ Pending :=
  if byte < 0x80 then .inl (Char.ofNat byte.toNat)
  else if byte < 0xc2 then .inl replacementCharacter
  else if byte < 0xe0 then .inr ⟨byte.toNat % 0x20, 1, 0x80, 0xbf⟩
  else if byte = 0xe0 then .inr ⟨byte.toNat % 0x10, 2, 0xa0, 0xbf⟩
  else if byte = 0xed then .inr ⟨byte.toNat % 0x10, 2, 0x80, 0x9f⟩
  else if byte < 0xf0 then .inr ⟨byte.toNat % 0x10, 2, 0x80, 0xbf⟩
  else if byte = 0xf0 then .inr ⟨byte.toNat % 0x08, 3, 0x90, 0xbf⟩
  else if byte < 0xf4 then .inr ⟨byte.toNat % 0x08, 3, 0x80, 0xbf⟩
  else if byte = 0xf4 then .inr ⟨byte.toNat % 0x08, 3, 0x80, 0x8f⟩
  else .inl replacementCharacter

/-- Lenient reading, possibly in the middle of a sequence. -/
def lenientFrom : Option Pending → List UInt8 → List Char
  | none, [] => []
  | some _, [] => [replacementCharacter]
  | none, byte :: rest =>
    match begin? byte with
    | .inl c => c :: lenientFrom none rest
    | .inr pending => lenientFrom (some pending) rest
  | some pending, byte :: rest =>
    if pending.low ≤ byte ∧ byte ≤ pending.high then
      let bits := pending.bits * 0x40 + byte.toNat % 0x40
      if pending.missing ≤ 1 then Char.ofNat bits :: lenientFrom none rest
      else lenientFrom (some ⟨bits, pending.missing - 1, 0x80, 0xbf⟩) rest
    else
      replacementCharacter ::
        match begin? byte with
        | .inl c => c :: lenientFrom none rest
        | .inr next => lenientFrom (some next) rest

/-- The text of a sequence of bytes, with a replacement character for each ill-formed part. -/
def lenientText (bytes : ByteArray) : String :=
  String.ofList (lenientFrom none bytes.data.toList)

end SketchApk.Bytes

namespace SketchApk.Text

/-! ### Code page 437 -/

/-- The characters of the bytes from `0x80` on. -/
def codePageTable : List Char :=
  ("ÇüéâäàåçêëèïîìÄÅÉæÆôöòûùÿÖÜ¢£¥₧ƒáíóúñÑªº¿⌐¬½¼¡«»░▒▓│┤╡╢╖╕╣║╗╝╜╛┐" ++
    "└┴┬├─┼╞╟╚╔╩╦╠═╬╧╨╤╥╙╘╒╓╫╪┘┌█▄▌▐▀αßΓπΣσµτΦΘΩδ∞φε∩≡±≥≤⌠⌡÷≈°∙·√ⁿ²■\u00a0").toList

/-- The character of a byte. -/
def codePageChar (byte : UInt8) : Char :=
  if byte < 0x80 then Char.ofNat byte.toNat else codePageTable.getD (byte.toNat - 0x80) '\uFFFD'

/-- The text that bytes stand for in the code page. -/
def codePageText (bytes : ByteArray) : String :=
  String.ofList (bytes.data.toList.map codePageChar)

end SketchApk.Text
