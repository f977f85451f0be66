import SketchApk.Archive.Directory

/-!
# Contents of files

A file holds bytes or an archive. An archive that has entries is kept as such, so that its entries
can be read back in order; its bytes are given by the archive format. The archive without entries is
kept as the bytes of its only record. Bytes that follow the archive format can be read as an archive.
-/

namespace SketchApk

/-- What a file holds. -/
inductive Content where
  | bytes (data : ByteArray)
  | archive (held : Archive)

instance : Inhabited Content := ⟨.bytes ByteArray.empty⟩

namespace Content

/-- The content without any byte. -/
def empty : Content :=
  .bytes ByteArray.empty

/-- The content that a text encodes to. -/
def ofText (text : String) : Content :=
  .bytes text.toUTF8

/-- The bytes of the archive without entries. -/
def emptyArchiveBytes : ByteArray :=
  ⟨(Archive.bytes Archive.empty).toArray⟩

/-- The content of an archive file. -/
def ofArchive (held : Archive) : Content :=
  if held.entries.isEmpty then .bytes emptyArchiveBytes else .archive held

/-- The archive that a file holds, or why it holds none. -/
def toArchive : Content → Except ArchiveError Archive
  | .archive held => .ok held
  | .bytes data => Archive.ofBytes data

/-- The file begins like an archive with entries. -/
def looksLikeArchive : Content → Bool
  | .archive _ => true
  | .bytes data => data.data.toList.take 4 = [0x50, 0x4b, 0x03, 0x04]

/-- The bytes of a file. -/
def toBytes : Content → ByteArray
  | .bytes data => data
  | .archive held => ⟨held.bytes.toArray⟩

/-- The file has no bytes. -/
def isEmpty : Content → Bool
  | .bytes data => data.isEmpty
  | .archive _ => false

/-- The text of a file, when its bytes are well-formed UTF-8. -/
def text? (content : Content) : Option String :=
  Bytes.text? content.toBytes

@[simp] theorem toBytes_ofText (text : String) : (ofText text).toBytes = text.toUTF8 := rfl

@[simp] theorem toArchive_ofArchive (held : Archive) : (ofArchive held).toArchive = .ok held := by
  obtain ⟨entries, hnames⟩ := held
  cases entries with
  | nil => rfl
  | cons entry rest => rfl

end Content

end SketchApk
