import SketchApk.Utility.Files

/-!
# Input in pieces and lines

Most utilities that deal with texts read them in pieces, deal with each piece or with each of its lines,
and print what comes of it. They pass a value on from one piece to the next, and may stop before the end
of the input.

## Main definitions

* `Utility.forPieces`, `Utility.forLines` : dealing with input piece by piece and line by line.
* `Utility.forInputs` : dealing with the files among operands.
-/

namespace SketchApk.Utility

/-- A line of a text, with the flag that an end of line follows. -/
structure Line where
  text : List Char
  isEnded : Bool := true

/-- What dealing with a part of the input comes to. -/
structure Dealt (α : Type) where
  /-- The value that is passed on. -/
  value : α
  printed : List Char := []
  /-- The rest of the input does not matter. -/
  isDone : Bool := false

/-- The characters of a line with its end. -/
def Line.toList (line : Line) (ending : Char) : List Char :=
  if line.isEnded then line.text ++ [ending] else line.text

/-- The lines of a text, of which the last one may be without an end. -/
def linesOf (ending : Char) (text : List Char) : List Line :=
  let pieces := Text.split ending text
  pieces.dropLast.map (fun piece => { text := piece }) ++
    (pieces.getLast?.toList.filter (!·.isEmpty)).map fun piece => { text := piece, isEnded := false }

/-- Deal with the pieces that are read from a descriptor, of at most `fuel`. The value at the end comes
with the flag that the rest of the input did not matter. -/
def forPieces {α : Type} (descriptor : Nat) (step : α → List Char → Work (α × Bool)) :
    (fuel : Nat) → α → Work (Except FileError (α × Bool))
  | 0, value => return .ok (value, false)
  | fuel + 1, value => do
    match ← Steps.call (.read descriptor 65536) with
    | .error error => return .error error
    | .ok data =>
      if data.isEmpty then return .ok (value, false)
      else
        match ← step value (Octets.ofBytes data).toList with
        | (value, true) => return .ok (value, true)
        | (value, false) => forPieces descriptor step fuel value

/-- Deal with lines, and gather what is printed. The lines that are left come along. -/
def dealWithLines {α : Type} (step : α → Line → Dealt α) :
    List Line → α → (printed : List (List Char)) → Dealt α × List Line
  | [], value, printed => ({ value, printed := printed.reverse.flatten }, [])
  | line :: rest, value, printed =>
    let dealt := step value line
    if dealt.isDone then
      ({ value := dealt.value, printed := (dealt.printed :: printed).reverse.flatten, isDone := true },
        rest)
    else dealWithLines step rest dealt.value (dealt.printed :: printed)

/-- Deal with the lines that are read from a descriptor. A last line without an end is dealt with at the
end of the input, or is handed over to the input that follows if that is wanted. Input that is left in a
file stays there. -/
def forLines {α : Type} (descriptor : Nat) (ending : Char) (step : α → Line → Dealt α) (value : α) :
    Work (Except FileError (α × Bool)) := do
  let whole (state : α × List (List Char)) (piece : List Char) :
      Work ((α × List (List Char)) × Bool) := do
    let (value, held) := state
    if ending ∉ piece then return ((value, piece :: held), false)
    else
      let text := (piece :: held).reverse.flatten
      let lines := linesOf ending text
      let (complete, open?) := lines.partition (·.isEnded)
      let (dealt, left) := dealWithLines step complete value []
      emit (String.ofList dealt.printed)
      let rest := (open?.map (·.text)).flatten
      if dealt.isDone then
        let count := left.foldl (fun count line => count + line.text.length + 1) rest.length
        Steps.call (.rewind descriptor count)
        return ((dealt.value, []), true)
      else return ((dealt.value, if rest.isEmpty then [] else [rest]), false)
  match ← forPieces descriptor whole Steps.manyTimes (value, []) with
  | .error error => return .error error
  | .ok ((value, held), isDone) =>
    if isDone || held.isEmpty then return .ok (value, isDone)
    else
      let dealt := step value { text := held.reverse.flatten, isEnded := false }
      emit (String.ofList dealt.printed)
      return .ok (dealt.value, dealt.isDone)

/-- Deal with the inputs that operands name, one after the other; without operands it is the standard
input. The step is given the name and the descriptor. It fails by itself when it returns `false`. What
cannot be opened is complained about. -/
def forInputs {α : Type} (cannotOpen : String → FileError → String)
    (step : α → String → Nat → Work (α × Bool)) (operands : List String) (value : α) :
    Work (α × Nat) :=
  let rec go : List String → α → Nat → Work (α × Nat)
    | [], value, status => return (value, status)
    | path :: rest, value, status => do
      match ← openInput path with
      | .error error =>
        complain (cannotOpen path error)
        go rest value 1
      | .ok descriptor =>
        let (value, isFine) ← step value path descriptor
        closeInput descriptor
        go rest value (if isFine then status else 1)
  go (if operands.isEmpty then ["-"] else operands) value 0

/-- The complaint about a file that cannot be opened, which tells the name. -/
def nameAndReason (path : String) (error : FileError) : String :=
  shown path ++ ": " ++ error.reason

/-- The complaint about a file that cannot be opened to be read. -/
def cannotOpenToRead (path : String) (error : FileError) : String :=
  "cannot open " ++ quoted path ++ " for reading: " ++ error.reason

/-- The factor that a suffix of a number stands for. -/
def factorOf? (suffix : List Char) : Option Nat :=
  match String.ofList suffix with
  | "" => some 1
  | "b" => some 512
  | "kB" => some 1000
  | "K" | "k" | "KiB" => some 1024
  | "MB" => some 1000000
  | "M" | "m" | "MiB" => some 1048576
  | "GB" => some 1000000000
  | "G" | "GiB" => some 1073741824
  | "T" | "TiB" => some 1099511627776
  | _ => none

/-- The number that digits and a suffix spell. -/
def scaledNumber? (text : String) : Option Nat :=
  let digits := text.toList.takeWhile Char.isDigit
  let suffix := text.toList.dropWhile Char.isDigit
  if digits.isEmpty then none
  else do
    let number ← Text.readDigits? 10 0 digits
    return number * (← factorOf? suffix)

end SketchApk.Utility
