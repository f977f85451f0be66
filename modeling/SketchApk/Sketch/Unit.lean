import SketchApk.Plan.Attempt
import SketchApk.Text.Character
import SketchApk.Text.Lines

/-!
# Compilation units of sketches

A sketch is a sequence of statements and methods without a class around them. Its compilation unit
has a header and a body. The header holds the first package declaration of the sketch, if any, then
its import declarations in order, then one import that every unit needs. The body is a class that
extends the base class of the runtime and holds the other lines of the sketch, each with a tab in
front. Package declarations after the first are dropped.

Lines end at newlines. Empty lines at the end of a sketch are dropped, except that a sketch without
any character consists of one empty line.

Import and package declarations are recognised line by line. A declaration has to begin at the start
of the line, and nothing may follow its semicolon but one carriage return. Blanks have the property
`White_Space`, and a name is made of ASCII letters, decimal digits of any script, underscores and
dots. An import may be static. An import of everything in a package has an asterisk in its name and
is not recognised.

The class of a sketch file is called by the name of the file without its extension.

## Main definitions

* `Sketch.isImportLine` : the test for an import declaration.
* `Sketch.isPackageLine` : the test for a package declaration.
* `Sketch.sourceLines` : the lines of a sketch.
* `Sketch.CompilationUnit` : the header and the body of a unit.
* `Sketch.CompilationUnit.ofLines` : the parts of the unit of a sketch.
* `Sketch.Preprocessor.preprocess` : the text of the unit of a sketch.
* `Sketch.Preprocessor.preprocessFile` : the text of the unit of a sketch file.
-/

namespace SketchApk.Sketch

/-! ### Declarations that fill a line -/

/-- A character of a declared name. -/
def isNameCharacter (c : Char) : Bool :=
  ('a' ≤ c && c ≤ 'z') || ('A' ≤ c && c ≤ 'Z') || c = '_' || c = '.' || Text.isDecimalDigit c

/-- What follows one or more blanks at the front of a text. -/
def afterBlanks? (text : List Char) : Option (List Char) :=
  match text with
  | c :: rest => if Text.isBlank c then some (rest.dropWhile Text.isBlank) else none
  | [] => none

/-- What follows a word at the front of a text. -/
def afterWord? (word text : List Char) : Option (List Char) :=
  if word.isPrefixOf text then some (text.drop word.length) else none

/-- The text is a name, blanks and a semicolon, with nothing behind it. -/
def isNameEnd (text : List Char) : Bool :=
  let rest := text.dropWhile isNameCharacter
  rest.length < text.length && rest.dropWhile Text.isBlank = [';']

/-- The text is an import declaration. The word `static` may be part of the declaration or its
name. -/
def isImport (text : List Char) : Bool :=
  match (afterWord? "import".toList text).bind afterBlanks? with
  | none => false
  | some rest =>
    isNameEnd rest ||
      match (afterWord? "static".toList rest).bind afterBlanks? with
      | none => false
      | some name => isNameEnd name

/-- The text is a package declaration. -/
def isPackage (text : List Char) : Bool :=
  match (afterWord? "package".toList text).bind afterBlanks? with
  | none => false
  | some rest => isNameEnd rest

/-- The line is an import declaration. -/
def isImportLine (line : List Char) : Bool :=
  isImport (Text.dropReturn line)

/-- The line is a package declaration. -/
def isPackageLine (line : List Char) : Bool :=
  isPackage (Text.dropReturn line)

/-! ### Units -/

/-- The lines of a sketch. -/
def sourceLines (source : List Char) : List (List Char) :=
  if source = [] then [[]]
  else ((Text.split '\n' source).reverse.dropWhile List.isEmpty).reverse

/-- The parts of a compilation unit that come from its sketch. -/
structure CompilationUnit where
  /-- The package declaration. -/
  package? : Option (List Char)
  /-- The import declarations of the sketch. -/
  imports : List (List Char)
  /-- The lines of the class. -/
  body : List (List Char)
  deriving DecidableEq

/-- The parts of the unit of a sketch, given by its lines. -/
def CompilationUnit.ofLines (lines : List (List Char)) : CompilationUnit :=
  let package? := lines.find? isPackageLine
  { package? := package?.map Text.trim
    imports := (lines.filter isImportLine).map Text.trim
    body := lines.filter fun line =>
      !(isImportLine line || package?.isSome && isPackageLine line) }

/-- What a unit adds to its sketch. -/
structure Preprocessor where
  baseClass : String
  implicitImport : String

namespace Preprocessor

/-- The preprocessor for the sketch runtime. -/
def standard : Preprocessor :=
  ⟨"PApplet", "import processing.core.*;"⟩

/-- The text of a unit with a given class name. -/
def render (preprocessor : Preprocessor) (unit : CompilationUnit) (name : String) : List Char :=
  (match unit.package? with
    | some package => package ++ ['\n', '\n']
    | none => []) ++
  (unit.imports ++ [preprocessor.implicitImport.toList]).flatMap (· ++ ['\n']) ++
  '\n' :: "public class ".toList ++ name.toList ++ " extends ".toList ++
  preprocessor.baseClass.toList ++ " \x7b\n".toList ++
  unit.body.flatMap (fun line => '\t' :: line ++ ['\n']) ++ ['}']

/-- The text of the unit of a sketch, whose class has the given name. -/
def preprocess (preprocessor : Preprocessor) (source name : String) : String :=
  String.ofList (preprocessor.render (.ofLines (sourceLines source.toList)) name)

end Preprocessor

/-! ### Sketch files -/

/-- A sketch that has been read, with the name of its class. -/
structure Source where
  text : String
  className : String
  deriving DecidableEq, Repr

/-- Read a sketch file. -/
def readSource (path : Path) : Attempt Source := do
  let text ← (Plan.readText path).during (.readingSketch path)
  match path.stem? with
  | some className => return ⟨text, className⟩
  | none => Attempt.fail (.project (.sketchWithoutName path))

namespace Preprocessor

/-- The text of the unit of a sketch that has been read. -/
def unitText (preprocessor : Preprocessor) (source : Source) : String :=
  preprocessor.preprocess source.text source.className

/-- The text of the unit of a sketch file. -/
def preprocessFile (preprocessor : Preprocessor) (path : Path) : Attempt String :=
  preprocessor.unitText <$> readSource path

end Preprocessor

end SketchApk.Sketch
