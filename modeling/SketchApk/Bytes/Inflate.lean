import SketchApk.Bytes.PrefixCode

/-!
# Compressed data

Deflated data is a sequence of blocks. A block is plain, or it consists of symbols: a symbol stands
for one byte, for the end of the block, or for a number of bytes that repeat what came before, in
which case another symbol gives the distance. The words of the symbols belong to a fixed code or to
one that is described at the beginning of the block.

Data that ends too early stands for what was read until then. Data that contradicts the format
stands for nothing.

## Main definitions

* `Bytes.inflate?` : what deflated data stands for.
-/

namespace SketchApk.Bytes

/-- Why reading ends before the last block does. -/
inductive InflateStop where
  | exhausted
  | malformed

/-- How far deflated data has been read. -/
structure InflateState where
  /-- The position of the next bit. -/
  position : Nat := 0
  output : ByteArray := ByteArray.empty

/-- A part of the reading of deflated data. -/
abbrev Inflating := ExceptT InflateStop (StateM InflateState)

namespace Inflating

variable (data : ByteArray)

/-- Read a number of some bits. -/
def number (count : Nat) : Inflating Nat := do
  let state ← get
  match bits? data state.position count with
  | none => throw .exhausted
  | some found =>
    set { state with position := state.position + count }
    return found

/-- Read a symbol. -/
def symbol (code : PrefixCode) : Inflating Nat := do
  let state ← get
  match code.read data state.position with
  | .exhausted => throw .exhausted
  | .malformed => throw .malformed
  | .symbol found position =>
    set { state with position }
    return found

/-- Append a byte to the output. -/
def emit (byte : UInt8) : Inflating Unit :=
  modify fun state => { state with output := state.output.push byte }

/-- The output with some bytes behind it, each of which repeats the one at a distance before it. -/
def repeated (distance : Nat) : (count : Nat) → ByteArray → ByteArray
  | 0, output => output
  | count + 1, output =>
    repeated distance count (output.push (output.data[output.size - distance]?.getD 0))

/-- Repeat some bytes of the output. -/
def copyBack (distance count : Nat) : Inflating Unit := do
  let state ← get
  if state.output.size < distance then throw .malformed
  set { state with output := repeated distance count state.output }

/-- The codes of a block: one for bytes and the lengths of repetitions, one for distances. -/
structure Codes where
  literals : PrefixCode
  distances : PrefixCode

/-- The shortest repetition that each of the symbols from 257 on stands for, with the number of bits
that add to it. -/
def lengthRows : List (Nat × Nat) :=
  [(3, 0), (4, 0), (5, 0), (6, 0), (7, 0), (8, 0), (9, 0), (10, 0), (11, 1), (13, 1), (15, 1),
    (17, 1), (19, 2), (23, 2), (27, 2), (31, 2), (35, 3), (43, 3), (51, 3), (59, 3), (67, 4),
    (83, 4), (99, 4), (115, 4), (131, 5), (163, 5), (195, 5), (227, 5), (258, 0)]

/-- The shortest distance that each symbol stands for, with the number of bits that add to it. -/
def distanceRows : List (Nat × Nat) :=
  [(1, 0), (2, 0), (3, 0), (4, 0), (5, 1), (7, 1), (9, 2), (13, 2), (17, 3), (25, 3), (33, 4),
    (49, 4), (65, 5), (97, 5), (129, 6), (193, 6), (257, 7), (385, 7), (513, 8), (769, 8),
    (1025, 9), (1537, 9), (2049, 10), (3073, 10), (4097, 11), (6145, 11), (8193, 12), (12289, 12),
    (16385, 13), (24577, 13)]

/-- Read the rest of a number that begins with a symbol. -/
def extended (rows : List (Nat × Nat)) (index : Nat) : Inflating Nat := do
  match rows[index]? with
  | none => throw .malformed
  | some (least, extra) => return least + (← number data extra)

/-- Read the symbols of a block up to its end. -/
def symbols (codes : Codes) : (fuel : Nat) → Inflating Unit
  | 0 => throw .exhausted
  | fuel + 1 => do
    let found ← symbol data codes.literals
    if found < 256 then
      emit (UInt8.ofNat found)
      symbols codes fuel
    else if found = 256 then return ()
    else
      let count ← extended data lengthRows (found - 257)
      let distance ← extended data distanceRows (← symbol data codes.distances)
      copyBack distance count
      symbols codes fuel

/-- The codes of a block that does not describe its own. -/
def fixedCodes : Codes :=
  let lengths := List.replicate 144 8 ++ List.replicate 112 9 ++ List.replicate 24 7 ++
    List.replicate 8 8
  { literals := (PrefixCode.ofLengths? lengths).getD .empty
    distances := (PrefixCode.ofLengths? (List.replicate 32 5)).getD .empty }

/-- The order in which the lengths of the words for lengths are given. -/
def lengthOrder : List Nat :=
  [16, 17, 18, 0, 8, 7, 9, 6, 10, 5, 11, 4, 12, 3, 13, 2, 14, 1, 15]

/-- The code for some lengths. A code that is not complete is accepted if it has one word of one
bit or no word at all. -/
def codeOf (lengths : List Nat) : Inflating PrefixCode := do
  match PrefixCode.ofLengths? lengths with
  | none => throw .malformed
  | some code =>
    if code.isComplete || lengths.all (· ≤ 1) then return code else throw .malformed

/-- Read the lengths of words, which may be given as repetitions, until there are `count` of them.
Those that were read before are given in reverse order. -/
def wordLengths (code : PrefixCode) (count : Nat) : (fuel : Nat) → List Nat → Inflating (List Nat)
  | 0, _ => throw .exhausted
  | fuel + 1, found => do
    if count = found.length then return found.reverse
    let next ← symbol data code
    let (length, times) ←
      if next < 16 then pure (next, 1)
      else if next = 16 then
        match found with
        | [] => throw .malformed
        | last :: _ => pure (last, 3 + (← number data 2))
      else if next = 17 then pure (0, 3 + (← number data 3))
      else pure (0, 11 + (← number data 7))
    if count < found.length + times then throw .malformed
    wordLengths code count fuel (List.replicate times length ++ found)

/-- Read the description of the codes of a block. -/
def describedCodes : Inflating Codes := do
  let literals := 257 + (← number data 5)
  let distances := 1 + (← number data 5)
  let given := 4 + (← number data 4)
  if 286 < literals || 30 < distances then throw .malformed
  let listed ← (lengthOrder.take given).mapM fun index => do return (index, ← number data 3)
  let outer := (List.range 19).map fun index => (List.lookup index listed).getD 0
  match PrefixCode.ofLengths? outer with
  | none => throw .malformed
  | some code =>
    unless code.isComplete do throw .malformed
    let lengths ← wordLengths data code (literals + distances) (literals + distances + 1) []
    if lengths.getD 256 0 = 0 then throw .malformed
    return ⟨← codeOf (lengths.take literals), ← codeOf (lengths.drop literals)⟩

/-- Copy a block that is plain. Its data begins with the next whole byte. -/
def plainBlock : Inflating Unit := do
  modify fun state => { state with position := (state.position + 7) / 8 * 8 }
  let length ← number data 16
  let check ← number data 16
  unless length + check = 65535 do throw .malformed
  let state ← get
  let part := slice data (state.position / 8) length
  set { state with
    position := state.position + 8 * part.size
    output := state.output ++ part }
  if part.size < length then throw .exhausted

/-- Read all blocks. -/
def blocks : (fuel : Nat) → Inflating Unit
  | 0 => throw .exhausted
  | fuel + 1 => do
    let last ← number data 1
    match ← number data 2 with
    | 0 => plainBlock data
    | 1 => symbols data fixedCodes (8 * data.size + 1)
    | 2 => symbols data (← describedCodes data) (8 * data.size + 1)
    | _ => throw .malformed
    if last = 1 then return () else blocks fuel

end Inflating

/-- What deflated data stands for, unless it contradicts the format. -/
def inflate? (data : ByteArray) : Option ByteArray :=
  let (result, state) := ((Inflating.blocks data (8 * data.size + 1)).run).run {}
  match result with
  | .error .malformed => none
  | _ => some state.output

end SketchApk.Bytes
