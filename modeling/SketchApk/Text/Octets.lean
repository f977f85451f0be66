import SketchApk.Bytes.Utf8
import SketchApk.Path

/-!
# Texts of octets

Programs deal with bytes, whatever text they may stand for. An *octet text* is a text that spells
bytes: each of its characters has a code below 256 and stands for the byte of that number. Texts and
octet texts are converted into each other by way of UTF-8.

## Main definitions

* `Octets.ofBytes`, `Octets.toBytes` : the octet text of some bytes, and back.
* `Octets.ofText`, `Octets.toText` : the octet text of the bytes of a text, and back.
-/

namespace SketchApk.Octets

/-- The character that stands for a byte. -/
def ofByte (byte : UInt8) : Char :=
  Char.ofNat byte.toNat

/-- The byte that a character stands for. -/
def toByte (c : Char) : UInt8 :=
  UInt8.ofNat c.toNat

/-- The octet text of some bytes. -/
def ofBytes (bytes : ByteArray) : String :=
  String.ofList (bytes.data.toList.map ofByte)

/-- The bytes that an octet text stands for. -/
def toBytes (octets : String) : ByteArray :=
  octets.foldl (fun bytes c => bytes.push (toByte c)) ByteArray.empty

/-- Each character of a text is one byte long. -/
def isPlain (text : String) : Bool :=
  text.toList.all fun c => c.toNat < 0x80

/-- The octet text of the bytes of a text. -/
def ofText (text : String) : String :=
  if isPlain text then text else ofBytes text.toUTF8

/-- The text whose bytes an octet text stands for. -/
def toText (octets : String) : String :=
  if isPlain octets then octets else Bytes.lenientText (toBytes octets)

/-- The path whose bytes an octet text stands for. -/
def toPath (octets : String) : Path :=
  ⟨toText octets⟩

end SketchApk.Octets
