import SketchApk.File.System
import SketchApk.Text.Number

/-!
# Permissions in words

Permission bits are given by octal digits or by symbols. Symbols are clauses with commas between them,
each of which names classes of users and adds, removes or sets permissions for them. They are shown as
a column of letters.

## Main definitions

* `Mode.change?` : the permission bits that a text asks for.
* `Mode.letters` : the letters of permission bits.
-/

namespace SketchApk.Mode

/-- The bits of a class of users. -/
def classBits? (c : Char) : Option Mode :=
  match c with
  | 'u' => some 0o4700
  | 'g' => some 0o2070
  | 'o' => some 0o1007
  | 'a' => some 0o7777
  | _ => none

/-- The bits that a letter stands for in every class, where bits are given as a start. -/
def letterBits? (start : Mode) (isDirectory : Bool) (c : Char) : Option Mode :=
  match c with
  | 'r' => some 0o444
  | 'w' => some 0o222
  | 'x' => some 0o111
  | 'X' => some (if isDirectory || start &&& 0o111 != 0 then 0o111 else 0)
  | 's' => some 0o6000
  | 't' => some 0o1000
  | 'u' => some (((start >>> 6) &&& 7) * 0o111)
  | 'g' => some (((start >>> 3) &&& 7) * 0o111)
  | 'o' => some ((start &&& 7) * 0o111)
  | _ => none

/-- The bits after some actions, each of which is an operator and letters. At most `fuel` characters
are dealt with. -/
def applyActions (classes withheld : Mode) (isDirectory : Bool) :
    (fuel : Nat) → Mode → List Char → Option Mode
  | 0, mode, _ => some mode
  | _ + 1, mode, [] => some mode
  | fuel + 1, mode, operator :: rest => do
    let isOperator (c : Char) : Bool := c ∈ ['+', '-', '=']
    if !isOperator operator then none
    else
      let letters := rest.takeWhile (!isOperator ·)
      let after := rest.dropWhile (!isOperator ·)
      let bits ← letters.foldlM (fun bits c => do
        return bits ||| (← letterBits? mode isDirectory c)) (0 : Mode)
      let meant := bits &&& classes &&& ~~~withheld
      let changed :=
        match operator with
        | '+' => mode ||| meant
        | '-' => mode &&& ~~~meant
        | _ => (mode &&& ~~~(classes &&& if isDirectory then 0o1777 else 0o7777)) ||| meant
      applyActions classes withheld isDirectory fuel changed after

/-- The bits after a clause. Where no class is named, the bits that new files do not get are left as
they are. -/
def applyClause (mask : Mode) (isDirectory : Bool) (mode : Mode) (clause : List Char) :
    Option Mode :=
  let named := clause.takeWhile fun c => (classBits? c).isSome
  let actions := clause.drop named.length
  let classes := named.foldl (fun bits c => bits ||| (classBits? c).getD 0) (0 : Mode)
  if actions.isEmpty then none
  else if named.isEmpty then applyActions 0o7777 mask isDirectory actions.length mode actions
  else applyActions classes 0 isDirectory actions.length mode actions

/-- The pieces of a text between commas. -/
def clauses : List Char → List (List Char)
  | [] => [[]]
  | c :: rest =>
    match clauses rest with
    | [] => [[c]]
    | clause :: more => if c = ',' then [] :: clause :: more else (c :: clause) :: more

/-- The permission bits that a text asks for, where the present ones are given. -/
def change? (mask : Mode) (isDirectory : Bool) (mode : Mode) (text : String) : Option Mode :=
  match Text.readUnsigned? 8 0o7777 text.toList with
  | some bits =>
    let number : Mode := BitVec.ofNat 12 bits
    if isDirectory && text.length ≤ 4 then some (number ||| (mode &&& 0o6000)) else some number
  | none => (clauses text.toList).foldlM (applyClause mask isDirectory) mode

/-- The letters of three permission bits, where a letter of its own may show a further bit. -/
def tripleLetters (bits : Mode) (special : Bool) (shown hidden : Char) : List Char :=
  let executable := bits &&& 1 != 0
  [if bits &&& 4 != 0 then 'r' else '-', if bits &&& 2 != 0 then 'w' else '-',
    if special then (if executable then shown else hidden) else if executable then 'x' else '-']

/-- The letters of permission bits. -/
def letters (mode : Mode) : String :=
  String.ofList (tripleLetters (mode >>> 6) (mode &&& 0o4000 != 0) 's' 'S' ++
    tripleLetters (mode >>> 3) (mode &&& 0o2000 != 0) 's' 'S' ++
    tripleLetters mode (mode &&& 0o1000 != 0) 't' 'T')

/-- The octal digits of permission bits. -/
def octal (mode : Mode) : String :=
  String.ofList (Nat.toDigits 8 mode.toNat)

end SketchApk.Mode
