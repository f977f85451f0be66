import SketchApk.Archive.Basic
import SketchApk.Bytes.Inflate
import SketchApk.Bytes.Utf8

/-!
# Reading archive files

An archive file is read from its end. The last place that looks like the last record of an archive
is tried first, and one that does not lead to a whole directory is passed over for the one before
it. Bytes may stand in front of an archive; then everything in it is shifted by their number.

Lines of the directory that have the same name count as one, which keeps the place of the first and
has the data of the last. An entry whose data cannot be read makes no difference to the others: it
is in the archive, and it is marked as damaged.

## Main definitions

* `EndRecord` : the last record of an archive file.
* `DirectoryPlace` : where the directory of an archive file stands.
* `Archive.ofBytes` : the archive that a file holds, or why it holds none.
-/

namespace SketchApk

open Bytes

/-- The last record of an archive file. -/
structure EndRecord where
  position : Nat
  volume : Nat
  directoryVolume : Nat
  /-- The number of entries in this file. -/
  entriesHere : Nat
  entries : Nat
  /-- The offset of the directory, as it is written. -/
  directory : Nat
  commentLength : Nat

/-- A number in a record, which has to be in the file. -/
def recordField (data : ByteArray) (offset width : Nat) : Except ArchiveError Nat :=
  match number? data offset width with
  | some found => .ok found
  | none => .error .truncated

namespace EndRecord

/-- The number with which the last record begins. -/
def signature : Nat := 0x06054b50

/-- The length of the last record without its comment. -/
def length : Nat := 22

/-- The last record at a position. -/
def read (data : ByteArray) (position : Nat) : Except ArchiveError EndRecord := do
  let field := fun offset width => recordField data (position + offset) width
  return {
    position
    volume := ← field 4 2
    directoryVolume := ← field 6 2
    entriesHere := ← field 8 2
    entries := ← field 10 2
    directory := ← field 16 4
    commentLength := ← field 20 2 }

/-- The numbers of the record may stand for larger ones in another record. -/
def mayBeLarge (record : EndRecord) : Bool :=
  record.entries = 0xffff || record.directory = 0xffffffff

end EndRecord

/-- Where the directory of an archive file stands. -/
structure DirectoryPlace where
  /-- The number of bytes in front of the archive. -/
  shift : Nat
  start : Nat
  entries : Nat
  volume : Nat
  directoryVolume : Nat

namespace DirectoryPlace

/-- The first of `count` positions from `start` on at which a number of four bytes stands. -/
def firstAt? (data : ByteArray) (signature : Nat) : (count start : Nat) → Option Nat
  | 0, _ => none
  | count + 1, start =>
    if number? data start 4 = some signature then some start
    else firstAt? data signature count (start + 1)

/-- All positions between two bounds at which a number of four bytes stands. -/
def allAt (data : ByteArray) (signature start stop : Nat) : List Nat :=
  ((List.range (stop - 3 - start)).map (start + ·)).filter fun position =>
    number? data position 4 = some signature

/-- The number with which a line of the directory begins. -/
def lineSignature : Nat := 0x02014b50

/-- The place of the directory by the last record alone. -/
def ofRecord (data : ByteArray) (record : EndRecord) : Except ArchiveError DirectoryPlace :=
  let place (shift : Nat) : DirectoryPlace :=
    { shift, start := record.directory + shift, entries := record.entriesHere
      volume := record.volume, directoryVolume := record.directoryVolume }
  if record.entries = 0 then .ok (place (record.position - record.directory))
  else if record.position ≤ record.directory then .error .directoryBehindEnd
  else
    match firstAt? data lineSignature (record.position - 3 - record.directory) record.directory with
    | some found => .ok (place (found - record.directory))
    | none => .error .noDirectory

/-- The place of the directory by the record for large archives that stands at a position; the
locator, which stands at `locator`, says that its offset is `offset` and its volume `volume`. -/
def ofLargeRecord (data : ByteArray) (position locator offset volume : Nat) :
    Except ArchiveError DirectoryPlace := do
  let field := fun offset width => recordField data (position + offset) width
  let size ← field 4 8
  let place : DirectoryPlace :=
    { shift := position - offset
      start := (← field 48 8) + (position - offset)
      entries := ← field 32 8
      volume := ← field 16 4
      directoryVolume := ← field 20 4 }
  if place.directoryVolume ≠ volume then throw .inconsistentVolume
  if size + 12 ≠ locator - position then throw .inconsistentLength
  if position < place.entries * 46 + (← field 48 8) then throw .inconsistentCount
  if place.entries < (← field 24 8) then throw .inconsistentTotal
  return place

/-- The place of the directory by the first of some positions at which a record for large archives
can be read; `error` is the error of the positions before. -/
def ofLargeRecords (data : ByteArray) (locator offset volume : Nat) (error : ArchiveError) :
    List Nat → Except ArchiveError DirectoryPlace
  | [] => .error error
  | position :: rest =>
    match ofLargeRecord data position locator offset volume with
    | .ok place => .ok place
    | .error next => ofLargeRecords data locator offset volume next rest

/-- The length of the locator that stands before the last record of a large archive. -/
def locatorLength : Nat := 20

/-- The place of the directory by the last record. -/
def locate (data : ByteArray) (record : EndRecord) : Except ArchiveError DirectoryPlace :=
  let locator := record.position - locatorLength
  if data.size < record.position + EndRecord.length + record.commentLength then
    .error .commentTooLong
  else if record.mayBeLarge && locatorLength ≤ record.position &&
      number? data locator 4 = some 0x07064b50 then do
    let volume ← recordField data (locator + 4) 4
    let offset ← recordField data (locator + 8) 8
    if locator ≤ offset then throw .largeEndBehindLocator
    if 1 < (← recordField data (locator + 16) 4) then throw .severalVolumesLocated
    ofLargeRecords data locator offset volume .noLargeEnd (allAt data 0x06064b50 offset locator)
  else ofRecord data record

end DirectoryPlace

/-- A line of the directory. -/
structure DirectoryLine where
  flags : Nat
  method : Nat
  checksum : Nat
  compressedSize : Nat
  size : Nat
  name : String
  /-- The position of the header of the entry. -/
  header : Nat

namespace DirectoryLine

/-- The length of a line without the texts in it. -/
def length : Nat := 46

/-- The fields of an extension, by their kinds. A field that is cut short ends the list. -/
def extensionFields (data : ByteArray) (stop : Nat) : (fuel offset : Nat) → List (Nat × Nat × Nat)
  | 0, _ => []
  | fuel + 1, offset =>
    match number? data offset 2, number? data (offset + 2) 2 with
    | some kind, some size =>
      if offset + 4 + size ≤ stop then
        (kind, offset + 4, size) :: extensionFields data stop fuel (offset + 4 + size)
      else []
    | _, _ => []

/-- The line with the large numbers of a field that stands at an offset. A number is in the field
if the line has all its bits set, or if there is room for all three. -/
def enlarge (data : ByteArray) (offset room : Nat) (line : DirectoryLine) :
    Except ArchiveError DirectoryLine := do
  let isThere := fun (number : Nat) => number = 0xffffffff || 24 ≤ room
  let hasSize := isThere line.size
  let hasCompressed := isThere line.compressedSize
  let hasHeader := isThere line.header
  let second := offset + if hasSize then 8 else 0
  let third := second + if hasCompressed then 8 else 0
  let size ← if hasSize then recordField data offset 8 else pure line.size
  let compressedSize ← if hasCompressed then recordField data second 8 else pure line.compressedSize
  let header ← if hasHeader then recordField data third 8 else pure line.header
  if offset + room < third + (if hasHeader then 8 else 0) then throw .shortExtension
  return { line with size, compressedSize, header }

/-- The line at a position, and the position behind it. -/
def read (data : ByteArray) (position : Nat) : Except ArchiveError (DirectoryLine × Nat) := do
  let field := fun offset width => recordField data (position + offset) width
  if data.size < position + length then throw .truncated
  unless (← field 0 4) = DirectoryPlace.lineSignature do throw .malformedDirectory
  let flags ← field 8 2
  let nameLength ← field 28 2
  let extension := position + length + nameLength
  let comment := extension + (← field 30 2)
  let behind := comment + (← field 32 2)
  if data.size < behind then throw .truncated
  let name := slice data (position + length) nameLength
  let line : DirectoryLine :=
    { flags
      method := ← field 10 2
      checksum := ← field 16 4
      compressedSize := ← field 20 4
      size := ← field 24 4
      name := if flags.testBit 11 then lenientText name else Text.codePageText name
      header := ← field 42 4 }
  let large := (extensionFields data comment (comment - extension) extension).find? (·.1 = 1)
  match large with
  | none => return (line, behind)
  | some (_, offset, room) => return (← line.enlarge data offset room, behind)

/-- The length of the header of an entry without the texts in it. -/
def headerLength : Nat := 30

/-- The position of the data of an entry. -/
def dataStart (data : ByteArray) (line : DirectoryLine) : Except ArchiveError Nat := do
  let field := fun offset width => recordField data (line.header + offset) width
  if data.size < line.header + headerLength then throw .truncated
  unless (← field 0 4) = 0x04034b50 do throw .malformedHeader
  return line.header + headerLength + (← field 26 2) + (← field 28 2)

/-- The data of an entry, which begins at a position, unless it is encrypted, compressed in an
unknown way or contradicts its checksum. -/
def content? (data : ByteArray) (line : DirectoryLine) (start : Nat) : Option ByteArray :=
  let kept := slice data start line.compressedSize
  let found :=
    if line.flags.testBit 0 then none
    else if line.method = 0 then some kept
    else if line.method = 8 then inflate? kept
    else none
  found.filter fun content => (crc32 content.data.toList).toNat = line.checksum

/-- The entry of a line; the directory begins at `directory`. -/
def entry (data : ByteArray) (directory : Nat) (line : DirectoryLine) :
    Except ArchiveError ArchiveEntry := do
  if directory ≤ line.header then throw .headerBehindDirectory
  let start ← line.dataStart data
  if directory < start then throw .dataBehindDirectory
  let content := line.content? data start
  return {
    name := line.name
    compression := if line.method = 8 then .deflated else .stored
    data := content.getD ByteArray.empty
    isDamaged := content.isNone }

end DirectoryLine

namespace Archive

/-- The archive with the entries of some lines of the directory, the first of which stands at a
position. -/
def withLines (data : ByteArray) (place : DirectoryPlace) :
    (count position : Nat) → Archive → Except ArchiveError Archive
  | 0, _, archive => .ok archive
  | count + 1, position, archive => do
    let (line, behind) ← DirectoryLine.read data position
    let entry ← DirectoryLine.entry data place.start
      { line with header := line.header + place.shift }
    withLines data place count behind (archive.put entry)

/-- The archive whose directory stands at a place. -/
def ofDirectory (data : ByteArray) (place : DirectoryPlace) : Except ArchiveError Archive :=
  if place.volume ≠ place.directoryVolume then .error .severalVolumes
  else withLines data place place.entries place.start empty

/-- The archive whose last record stands before a position. The error of a directory, which is
given by `later`, outweighs the one of a last record, which is given by `error`. -/
def ofBytesBefore (data : ByteArray) :
    (position : Nat) → (later error : Option ArchiveError) → Except ArchiveError Archive
  | 0, later, error => .error ((later.or error).getD .notAnArchive)
  | position + 1, later, error =>
    if number? data position 4 = some EndRecord.signature then
      match EndRecord.read data position with
      | .error next => ofBytesBefore data position later (error.or (some next))
      | .ok record =>
        match DirectoryPlace.locate data record with
        | .error next => ofBytesBefore data position later (some next)
        | .ok place =>
          match ofDirectory data place with
          | .error next => ofBytesBefore data position (some next) none
          | .ok archive => .ok archive
    else ofBytesBefore data position later error

/-- The archive that a file holds, or why it holds none. -/
def ofBytes (data : ByteArray) : Except ArchiveError Archive :=
  ofBytesBefore data data.size none none

end Archive

end SketchApk
