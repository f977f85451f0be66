import SketchApk.Shell.Arithmetic
import SketchApk.Shell.Pattern
import SketchApk.Shell.State

/-!
# Expansion of words

Expanding a word puts values in place of parameters, statements and arithmetic expressions. The result
is a sequence of *pieces*. Where fields are wanted, the pieces that were not quoted are cut at
separators, and a field that is a pattern is replaced by the names of the files that match it. A field
is kept as a pattern until then, so that quoted characters can be told from others.

Blanks are separators that melt together, at the ends of a value they do not count. Every other
separator ends a field, even an empty one.

How the output of statements comes about is given to the functions of this module by `substitute`.

## Main definitions

* `Shell.Piece`, `Shell.splitFields` : expanded text, and how it is cut into fields.
* `Shell.expandFields`, `Shell.expandText`, `Shell.expandPattern` : the results that words expand to.
-/

namespace SketchApk.Shell

/-- A piece of expanded text. -/
inductive Piece where
  /-- Some text, which may be cut at separators. -/
  | text (content : List Char) (quoted cut : Bool)
  /-- Quotes, because of which a field exists even if nothing is in it. -/
  | mark
  /-- The end of one argument and the beginning of another. -/
  | boundary

/-- The text of some pieces. -/
def Piece.join (pieces : List Piece) : List Char :=
  pieces.flatMap fun piece =>
    match piece with
    | .text content _ _ => content
    | .mark => []
    | .boundary => [' ']

/-- The pattern that some pieces spell. -/
def Piece.toPattern (pieces : List Piece) : Pattern :=
  Pattern.unescape (pieces.flatMap fun piece =>
    match piece with
    | .text content quoted _ => content.map fun c => ⟨c, quoted⟩
    | .mark => []
    | .boundary => [⟨' ', true⟩])

/-- How far pieces have been cut into fields. -/
structure Cutting where
  /-- The complete fields, the last one first. -/
  fields : List Pattern := []
  /-- The characters of the current field, the last one first. -/
  current : Pattern := []
  /-- The current field exists even if it is empty. -/
  isKept : Bool := false
  /-- A blank has ended the last field, and a further separator may follow it. -/
  isBlankBehind : Bool := false

namespace Cutting

/-- The current field ends. -/
def close (cutting : Cutting) : Cutting :=
  { fields := cutting.current.reverse :: cutting.fields }

/-- The current field ends if there is one. -/
def closeIfAny (cutting : Cutting) : Cutting :=
  if cutting.isKept || !cutting.current.isEmpty then cutting.close else cutting

/-- A character is added to the current field. -/
def add (quoted : Bool) (cutting : Cutting) (c : Char) : Cutting :=
  { cutting with current := ⟨c, quoted⟩ :: cutting.current, isBlankBehind := false }

/-- A character of a text that may be cut. -/
def addOrCut (separators : List Char) (cutting : Cutting) (c : Char) : Cutting :=
  if c ∉ separators then cutting.add false c
  else if c ∈ usualSeparators.toList then
    if cutting.isKept || !cutting.current.isEmpty then { cutting.close with isBlankBehind := true }
    else cutting
  else if cutting.isBlankBehind then { cutting with isBlankBehind := false }
  else cutting.close

/-- A piece is cut. -/
def addPiece (separators : List Char) (cutting : Cutting) : Piece → Cutting
  | .text content quoted cut =>
    if cut then content.foldl (addOrCut separators) cutting else content.foldl (add quoted) cutting
  | .mark => { cutting with isKept := true, isBlankBehind := false }
  | .boundary => { cutting.closeIfAny with isBlankBehind := false }

end Cutting

/-- The fields into which pieces are cut. -/
def splitFields (separators : List Char) (pieces : List Piece) : List Pattern :=
  (pieces.foldl (Cutting.addPiece separators) {}).closeIfAny.fields.reverse

/-- The pieces of the list of all arguments. It stays a list where fields are wanted, unless it is
quoted as a whole. -/
def argumentPieces (state : State) (asFields keepsList quoted : Bool) : List Piece :=
  if asFields && (keepsList || !quoted) then
    (state.arguments.map fun argument =>
      if quoted then [.mark, .text argument.toList true false]
      else [.text argument.toList false true]).intersperse [.boundary] |>.flatten
  else
    let joined := state.joint.intercalate state.arguments
    [.text joined.toList quoted (asFields && !quoted)]

/-- The word with the names of home directories in place of tildes. A tilde counts at the front of the
word, and in an assignment also behind a colon. -/
def expandTilde (home : Option String) (assigns : Bool) (word : Word) : Word :=
  let endsName (c : Char) : Bool := c = '/' || (assigns && c = ':')
  let expand (isLast : Bool) (text : List Char) : Word :=
    match text with
    | '~' :: rest =>
      let name := rest.takeWhile (!endsName ·)
      let after := rest.dropWhile (!endsName ·)
      let directory :=
        if name.isEmpty then home else if name = "root".toList then some "/root" else none
      match directory with
      | some directory =>
        if after.isEmpty && !isLast then [.text text false]
        else [.text directory.toList true, .text after false]
      | none => [.text text false]
    | _ => [.text text false]
  let rec expandList (isFirst isLast : Bool) : List (List Char) → Word
    | [] => []
    | [text] => if isFirst then expand isLast text else .text [':'] false :: expand isLast text
    | text :: rest =>
      (if isFirst then expand true text else .text [':'] false :: expand true text) ++
        expandList false isLast rest
  let rec expandParts (isFirst : Bool) : Word → Word
    | [] => []
    | .text content false :: rest =>
      let isLast := rest.isEmpty
      let parts :=
        if assigns then
          let texts := splitAtColons content
          if isFirst then expandList true isLast texts
          else
            match texts with
            | [] => []
            | text :: more => .text text false :: expandList false isLast more
        else if isFirst then expand isLast content
        else [.text content false]
      parts ++ expandParts false rest
    | part :: rest => part :: expandParts false rest
  expandParts true word
where
  /-- The pieces of a text between colons. -/
  splitAtColons : List Char → List (List Char)
    | [] => [[]]
    | c :: rest =>
      match splitAtColons rest with
      | [] => [[c]]
      | text :: more => if c = ':' then [] :: text :: more else (c :: text) :: more

section

variable (substitute : Option Statement → Exec String)

/-- The output of a statement without the line breaks at its end. -/
def substituted (body : Option Statement) : Exec (List Char) := do
  let output ← substitute body
  return ((output.toList.filter (· ≠ '\x00')).reverse.dropWhile (· = '\n')).reverse

/-- Fail because of a parameter that is not set. -/
def failUnset {α : Type} (name : List Char) (strict : Bool) : Exec α :=
  fail (String.ofList name ++ ": parameter not set" ++ if strict then " or null" else "")

/-- The value of an arithmetic expression. -/
def evaluateArithmetic (source : List Char) : Exec (List Char) := do
  let state ← get
  let environment : Arithmetic.Environment :=
    { value := fun name => ((state.lookup? (String.ofList name)).getD "").toList
      isReadOnly := fun name => (state.variableOf (String.ofList name)).isReadOnly }
  match Arithmetic.evaluate environment source with
  | .ok (value, assignments) =>
    for (name, value) in assignments do
      modify (·.assign (String.ofList name) (toString value.toInt))
    return (toString value.toInt).toList
  | .error (.malformed complaint) =>
    fail ("arithmetic expression: " ++ complaint ++ ": \"" ++ String.ofList source ++ "\"")
  | .error (.notNumber text) => failNumber (String.ofList text)
  | .error (.readOnly name) => fail (String.ofList name ++ ": is read only")

mutual

/-- The pieces that a part of a word expands to. Literal text may be cut if it is `nested` in the use
of a parameter, and there a tilde at the `front` counts. -/
def expandPart (asFields nested front : Bool) : WordPart → Exec (List Piece)
  | .text content quoted => do
    if front && !quoted then
      let home := (← get).lookup? "HOME"
      return expandTilde home false [.text content false] |>.map fun part =>
        match part with
        | .text content quoted => .text content quoted (!quoted)
        | _ => .mark
    else return [.text content quoted (nested && !quoted)]
  | .mark => return [.mark]
  | .command body quoted => return [.text (← substituted substitute body) quoted (!quoted)]
  | .arithmetic source quoted => do
    let pieces ← expandParts false false false source
    return [.text (← evaluateArithmetic (Piece.join pieces)) quoted (!quoted)]
  | .parameter name use operand quoted => do
    let state ← get
    let isList := name = ['@'] || name = ['*']
    let value? :=
      if isList then some (state.joint.intercalate state.arguments) else state.parameter? name
    let usual : List Piece :=
      if isList then argumentPieces state asFields (name = ['@']) quoted
      else [.text (value?.getD "").toList quoted (!quoted)]
    let isMissing (strict : Bool) : Bool :=
      match value? with
      | some value => strict && value.isEmpty
      | none => true
    let requireValue : Exec Unit := do
      if value?.isNone && state.has 'u' then failUnset name false
    let dropWith (drop : Pattern → List Char → List Char) : Exec (List Piece) := do
      requireValue
      match value? with
      | none => return []
      | some value =>
        let pattern := Piece.toPattern (← expandParts false true true operand)
        return [.text (drop pattern value.toList) quoted (!quoted)]
    match use with
    | .malformed => fail "Bad substitution"
    | .value =>
      requireValue
      return usual
    | .length =>
      requireValue
      return [.text (toString (value?.getD "").length).toList quoted (!quoted)]
    | .orElse strict =>
      if isMissing strict then expandParts asFields true true operand else return usual
    | .instead strict =>
      if isMissing strict then return [] else expandParts asFields true true operand
    | .orAssign strict =>
      if isMissing strict then
        let text := Piece.join (← expandParts false true true operand)
        if isName name then assignVariable (String.ofList name) (String.ofList text)
        else fail (String.ofList name ++ ": bad variable name")
        return [.text text quoted (!quoted)]
      else return usual
    | .orFail strict =>
      if isMissing strict then
        let text := Piece.join (← expandParts false true true operand)
        if operand.isEmpty then failUnset name strict
        else fail (String.ofList name ++ ": " ++ String.ofList text)
      else return usual
    | .dropFront longest => dropWith (dropFront longest)
    | .dropBack longest => dropWith (dropBack longest)

/-- The pieces that some parts of a word expand to. -/
def expandParts (asFields nested front : Bool) : List WordPart → Exec (List Piece)
  | [] => return []
  | part :: rest => do
    let pieces ← expandPart asFields nested front part
    return pieces ++ (← expandParts asFields nested false rest)

end

/-- The word with the names of home directories in place of tildes. -/
def withHome (assigns : Bool) (word : Word) : Exec Word := do
  return expandTilde ((← get).lookup? "HOME") assigns word

/-- The pattern that a word expands to. -/
def expandPattern (word : Word) : Exec Pattern := do
  return Piece.toPattern (← expandParts substitute false false false (← withHome false word))

/-- The text that a word expands to where it is not cut into fields. -/
def expandText (assigns : Bool) (word : Word) : Exec String := do
  let pieces ← expandParts substitute false false false (← withHome assigns word)
  return String.ofList (Piece.join pieces)

/-- The text that a document expands to. -/
def expandDocument (word : Word) : Exec String := do
  return String.ofList (Piece.join (← expandParts substitute false false false word))

end

/-- The text of a field. -/
def fieldText (field : Pattern) : String :=
  String.ofList (field.map (·.char))

/-- The names in a directory that match a pattern, in order. Names that begin with a dot match only
where the pattern begins with one. -/
def matchingNames (directory : String) (pattern : Pattern) : Exec (List String) := do
  let place := if directory.isEmpty then "." else directory
  match ← Steps.call (.file (.list (Octets.toPath place))) with
  | .error _ => return []
  | .ok names =>
    let isHiddenWanted := (pattern.head?.map (·.char)) = some '.'
    let isWanted (name : String) : Bool :=
      (isHiddenWanted || name.toList.head? ≠ some '.') && pattern.accepts name.toList
    let all := [".", ".."] ++ names.map Octets.ofText
    return (all.filter isWanted).mergeSort (fun a b => a ≤ b)

/-- The pieces of a pattern between slashes. -/
def splitAtSlashes : Pattern → List Pattern
  | [] => [[]]
  | p :: rest =>
    match splitAtSlashes rest with
    | [] => [[p]]
    | part :: more => if p.char = '/' then [] :: part :: more else (p :: part) :: more

/-- The paths to files that begin with a text and go on as some patterns say. -/
def matchingPaths (before : String) : List Pattern → Exec (List String)
  | [] => return []
  | [last] => do
    if last.isSpecial then
      return (← matchingNames before last).map (before ++ ·)
    else
      let path := before ++ fieldText last
      match ← Steps.call (.findNode (Octets.toPath path) false) with
      | .ok _ => return [path]
      | .error _ => return []
  | part :: rest => do
    if part.isSpecial then
      let names ← matchingNames before part
      let paths ← names.mapM fun name => matchingPaths (before ++ name ++ "/") rest
      return paths.flatten
    else matchingPaths (before ++ fieldText part ++ "/") rest

/-- The texts that a field stands for: the paths that match it, or its own text if there are none. -/
def fieldTexts (field : Pattern) : Exec (List String) := do
  if (← get).has 'f' || !field.isSpecial then return [fieldText field]
  else
    let paths ← matchingPaths "" (splitAtSlashes field)
    return if paths.isEmpty then [fieldText field] else paths

/-- The fields that a word expands to. -/
def expandFields (substitute : Option Statement → Exec String) (word : Word) :
    Exec (List String) := do
  let pieces ← expandParts substitute true false false (← withHome false word)
  let fields := splitFields (← get).separators pieces
  return (← fields.mapM fieldTexts).flatten

end SketchApk.Shell
