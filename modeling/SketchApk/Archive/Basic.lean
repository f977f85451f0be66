import SketchApk.Path

/-!
# Archives

An archive is a sequence of named entries. Entries are appended at the end, those that are already
there are kept, and a name that occurs is refused. So the names of an archive are distinct.

An archive file is a sequence of records: one header with the data of the entry behind it for each
entry, then a directory of all entries, then one record that locates the directory. Numbers are
written with the least significant byte first. Data that is marked as deflated is written as blocks
that are not compressed, which every reader of the format accepts. An archive without entries
consists of the last record alone.

The checksum of the data is its remainder, seen as a polynomial over the field of two elements with
the lowest bit of each byte first, modulo the polynomial `0xedb88320` in the same order of bits. The
register starts with all bits set and is inverted at the end.

An archive file is read from its end: the last record locates the directory, and the directory
locates the entries. So an error names the part at which reading came to a halt.

## Main definitions

* `ArchiveError` : why an archive was not read or extended.
* `Archive` : a sequence of entries with distinct names.
* `Archive.add?` : the archive with one more entry, unless its name occurs.
* `Archive.put` : the archive with an entry in place of the one of that name.
* `Archive.bytes` : the bytes of an archive file.
-/

namespace SketchApk

/-! ### Errors -/

/-- Why an archive was not read or extended. -/
inductive ArchiveError where
  /-- There is no last record. -/
  | notAnArchive
  /-- A record extends beyond the end of the file. -/
  | truncated
  /-- The comment of the last record extends beyond the end of the file. -/
  | commentTooLong
  /-- The directory is said to begin behind the last record. -/
  | directoryBehindEnd
  /-- There is no directory before the last record. -/
  | noDirectory
  /-- The archive extends over several files. -/
  | severalVolumes
  /-- A line of the directory does not begin like one. -/
  | malformedDirectory
  /-- The header of an entry does not begin like one. -/
  | malformedHeader
  /-- The header of an entry stands behind the beginning of the directory. -/
  | headerBehindDirectory
  /-- The data of an entry begins behind the beginning of the directory. -/
  | dataBehindDirectory
  /-- The field for large numbers of an entry is shorter than its numbers. -/
  | shortExtension
  /-- The record for large archives is said to stand behind its locator. -/
  | largeEndBehindLocator
  /-- The locator of the record for large archives names several files. -/
  | severalVolumesLocated
  /-- There is no record for large archives. -/
  | noLargeEnd
  /-- The record for large archives disagrees with its locator about the volume. -/
  | inconsistentVolume
  /-- The record for large archives has another length than it says. -/
  | inconsistentLength
  /-- The record for large archives counts more entries than there is room for. -/
  | inconsistentCount
  /-- The record for large archives counts more entries here than everywhere. -/
  | inconsistentTotal
  | duplicateName (name : String)
  deriving DecidableEq

namespace ArchiveError

/-- An error of the archive format. -/
def invalid (text : String) : String :=
  "invalid Zip archive: " ++ text

/-- The wording of an error of an archive. -/
def message : ArchiveError → String
  | notAnArchive => invalid "Could not find EOCD"
  | truncated => "i/o error: failed to fill whole buffer"
  | commentTooLong => invalid "EOCD comment exceeds file boundary"
  | directoryBehindEnd => invalid "Invalid CDFH offset in EOCD"
  | noDirectory => invalid "No CDFH found"
  | severalVolumes =>
    "unsupported Zip archive: Support for multi-disk files is not implemented"
  | malformedDirectory => invalid "Invalid Central Directory header"
  | malformedHeader => invalid "Invalid local file header"
  | headerBehindDirectory =>
    invalid "A local file entry can't start after the central directory"
  | dataBehindDirectory => invalid "File data can't start after the central directory"
  | shortExtension => invalid "ZIP64 extra-data field is the wrong length"
  | largeEndBehindLocator => invalid "Invalid EOCD64 Locator CD offset"
  | severalVolumesLocated => invalid "Multi-disk ZIP files are not supported"
  | noLargeEnd => invalid "Could not find EOCD64"
  | inconsistentVolume => invalid "Invalid EOCD64: inconsistency with Locator data"
  | inconsistentLength => invalid "Invalid EOCD64: inconsistent length"
  | inconsistentCount => invalid "Invalid EOCD64: inconsistent number of files"
  | inconsistentTotal =>
    invalid "ZIP64 footer indicates more files on this disk than in the whole archive"
  | duplicateName name => invalid ("Duplicate filename: " ++ name)

end ArchiveError

/-! ### Entries -/

/-- How the data of an entry is kept in an archive. -/
inductive Compression where
  | stored
  | deflated
  deriving DecidableEq, Repr

/-- The name of a way of keeping data. -/
def Compression.name : Compression → String
  | stored => "stored"
  | deflated => "deflated"

/-- One entry of an archive. -/
structure ArchiveEntry where
  name : String
  compression : Compression
  data : ByteArray
  /-- The data could not be read from the file of the archive. -/
  isDamaged : Bool := false

/-- A sequence of entries with distinct names. -/
structure Archive where
  entries : List ArchiveEntry
  nodup_names : (entries.map ArchiveEntry.name).Nodup

namespace Archive

/-- The archive without entries. -/
def empty : Archive :=
  ⟨[], by simp⟩

instance : Inhabited Archive := ⟨empty⟩

/-- The names of the entries, in order. -/
def names (archive : Archive) : List String :=
  archive.entries.map ArchiveEntry.name

/-- The archive with one more entry at its end, unless an entry of that name is there. -/
def add? (archive : Archive) (entry : ArchiveEntry) : Option Archive :=
  if h : entry.name ∈ archive.names then none
  else
    some ⟨archive.entries ++ [entry], by
      rw [List.map_append, List.nodup_append]
      refine ⟨archive.nodup_names, by simp, ?_⟩
      intro name hname other hother
      simp only [List.map_cons, List.map_nil, List.mem_singleton] at hother
      rintro rfl
      exact h (hother ▸ hname)⟩

/-- The archive with an entry in place of the one of that name, or else at its end. -/
def put (archive : Archive) (entry : ArchiveEntry) : Archive :=
  match archive.add? entry with
  | some extended => extended
  | none =>
    ⟨archive.entries.map fun other => if other.name = entry.name then entry else other, by
      have h : ((fun e => e.name) ∘ fun other : ArchiveEntry =>
          if other.name = entry.name then entry else other) = ArchiveEntry.name := by
        funext other
        simp only [Function.comp_apply]
        split <;> simp_all
      rw [List.map_map, h]
      exact archive.nodup_names⟩

/-- The archive that results from adding entries one after the other, passing over those whose name
occurs. -/
def ofEntries (entries : List ArchiveEntry) : Archive :=
  entries.foldl (fun archive entry => (archive.add? entry).getD archive) empty

theorem add?_eq_none_iff {archive : Archive} {entry : ArchiveEntry} :
    archive.add? entry = none ↔ entry.name ∈ archive.names := by
  simp [add?]

theorem entries_of_add?_eq_some {archive extended : Archive} {entry : ArchiveEntry}
    (h : archive.add? entry = some extended) :
    extended.entries = archive.entries ++ [entry] := by
  unfold add? at h
  split at h
  · simp at h
  · simp only [Option.some.injEq] at h
    rw [← h]

end Archive

end SketchApk

namespace SketchApk.Bytes

/-! ### The checksum CRC-32 -/

/-- The register after one bit has been shifted out. -/
def crcShift (register : UInt32) : UInt32 :=
  if register &&& 1 = 1 then (register >>> 1) ^^^ 0xedb88320 else register >>> 1

/-- The register after one byte of the message. -/
def crcByte (register : UInt32) (byte : UInt8) : UInt32 :=
  let r := register ^^^ byte.toUInt32
  crcShift (crcShift (crcShift (crcShift (crcShift (crcShift (crcShift (crcShift r)))))))

/-- The checksum of a message. -/
def crc32 (message : List UInt8) : UInt32 :=
  message.foldl crcByte 0xffffffff ^^^ 0xffffffff

end SketchApk.Bytes

namespace SketchApk.Archive

/-! ### Records -/

/-- The bytes of a number, the least significant first. -/
def littleEndian (width n : Nat) : List UInt8 :=
  (List.range width).map fun i => UInt8.ofNat (n >>> (8 * i))

/-- Data as blocks of the deflate format that are not compressed, each of at most `65535` bytes. The
number of blocks is `count`, the last one of which is marked. -/
def plainBlocks : (count : Nat) → List UInt8 → List UInt8
  | 0, _ => []
  | 1, data => 1 :: littleEndian 2 data.length ++ littleEndian 2 (65535 - data.length) ++ data
  | count + 1, data =>
    let block := data.take 65535
    0 :: littleEndian 2 block.length ++ littleEndian 2 (65535 - block.length) ++ block ++
      plainBlocks count (data.drop 65535)

/-- The data of an entry as it stands in the file. -/
def payload (entry : ArchiveEntry) : List UInt8 :=
  let data := entry.data.data.toList
  match entry.compression with
  | .stored => data
  | .deflated => plainBlocks (data.length / 65535 + 1) data

/-- The fields that the header of an entry and its line in the directory share: version, flags (bit
eleven says that names are UTF-8), method, a fixed time and date, checksum, sizes and the length of
the name. -/
def sharedFields (entry : ArchiveEntry) : List UInt8 :=
  littleEndian 2 20 ++ littleEndian 2 0x800 ++
    littleEndian 2 (match entry.compression with | .stored => 0 | .deflated => 8) ++
    littleEndian 2 0 ++ littleEndian 2 0x21 ++
    littleEndian 4 (Bytes.crc32 entry.data.data.toList).toNat ++
    littleEndian 4 (payload entry).length ++ littleEndian 4 entry.data.size ++
    littleEndian 2 entry.name.utf8ByteSize

/-- The header of an entry with its name and data. -/
def entryRecord (entry : ArchiveEntry) : List UInt8 :=
  [0x50, 0x4b, 0x03, 0x04] ++ sharedFields entry ++ littleEndian 2 0 ++
    entry.name.toUTF8.data.toList ++ payload entry

/-- The line of an entry in the directory; `offset` is the position of its header. -/
def directoryRecord (offset : Nat) (entry : ArchiveEntry) : List UInt8 :=
  [0x50, 0x4b, 0x01, 0x02] ++ littleEndian 2 20 ++ sharedFields entry ++ littleEndian 2 0 ++
    littleEndian 2 0 ++ littleEndian 2 0 ++ littleEndian 2 0 ++ littleEndian 4 0 ++
    littleEndian 4 offset ++ entry.name.toUTF8.data.toList

/-- The directory of entries whose first header stands at `offset`. -/
def directory : (offset : Nat) → List ArchiveEntry → List UInt8
  | _, [] => []
  | offset, entry :: rest =>
    directoryRecord offset entry ++ directory (offset + (entryRecord entry).length) rest

/-- The record that ends an archive file. -/
def endRecord (count size offset : Nat) : List UInt8 :=
  [0x50, 0x4b, 0x05, 0x06] ++ littleEndian 2 0 ++ littleEndian 2 0 ++ littleEndian 2 count ++
    littleEndian 2 count ++ littleEndian 4 size ++ littleEndian 4 offset ++ littleEndian 2 0

/-- The bytes of an archive file. -/
def bytes (archive : Archive) : List UInt8 :=
  let body := archive.entries.flatMap entryRecord
  let lines := directory 0 archive.entries
  body ++ lines ++ endRecord archive.entries.length lines.length body.length

end SketchApk.Archive
