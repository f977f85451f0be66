/-!
# Statements and words of shell scripts

A script consists of statements, and statements contain words. A word is a sequence of parts that
stand next to each other: literal text, the value of a parameter, the output of statements, or the
value of an arithmetic expression. Every part remembers whether it is quoted, because the result of a
part that is not quoted is split into fields and matched against the names of files.

Scripts are octet texts.

## Main definitions

* `Shell.WordPart`, `Shell.Word` : words.
* `Shell.Statement` : statements.
* `Shell.Redirection` : where a descriptor leads while a statement is carried out.
-/

namespace SketchApk.Shell

/-- What is done with the value of a parameter. Where a use is strict, an empty value counts like one
that is not set. -/
inductive ParameterUse where
  | value
  /-- The number of characters. -/
  | length
  /-- Another value, if the parameter is not set. -/
  | orElse (strict : Bool)
  /-- Another value, which is also assigned, if the parameter is not set. -/
  | orAssign (strict : Bool)
  /-- A failure, if the parameter is not set. -/
  | orFail (strict : Bool)
  /-- Another value, if the parameter is set. -/
  | instead (strict : Bool)
  /-- The value without a part at its front that matches a pattern. -/
  | dropFront (longest : Bool)
  /-- The value without a part at its end that matches a pattern. -/
  | dropBack (longest : Bool)
  /-- A use that does not exist. -/
  | malformed
  deriving DecidableEq, Repr

/-- How a descriptor is redirected. -/
inductive RedirectionKind where
  /-- Write to a file, which is emptied before. -/
  | write
  /-- Write to a file even when files are protected from being emptied. -/
  | overwrite
  /-- Write behind what a file holds. -/
  | append
  /-- Read from a file. -/
  | read
  /-- Read from a file and write to it. -/
  | update
  /-- Use the place of another descriptor. -/
  | duplicate
  /-- Read a text. -/
  | document
  deriving DecidableEq, Repr

mutual

/-- One part of a word. -/
inductive WordPart where
  /-- Literal text. -/
  | text (content : List Char) (quoted : Bool)
  /-- Quotes, because of which the word is a field even if nothing is in it. -/
  | mark
  /-- The value of a parameter. -/
  | parameter (name : List Char) (use : ParameterUse) (operand : List WordPart) (quoted : Bool)
  /-- The output of a statement. -/
  | command (body : Option Statement) (quoted : Bool)
  /-- The value of an arithmetic expression. -/
  | arithmetic (source : List WordPart) (quoted : Bool)

/-- The redirection of a descriptor. -/
inductive Redirection where
  | mk (descriptor : Nat) (kind : RedirectionKind) (target : List WordPart)

/-- A statement of a script. The number of a line is that of the line where the statement begins. -/
inductive Statement where
  /-- Assign variables and call a command. -/
  | simple (line : Nat) (assignments : List (List Char × List WordPart))
      (words : List (List WordPart)) (redirections : List Redirection)
  /-- Statements that run at the same time, each reading what the one before writes. -/
  | pipeline (stages : List Statement)
  | negated (body : Statement)
  /-- Go on with the second statement if the first succeeds. -/
  | both (first second : Statement)
  /-- Go on with the second statement if the first fails. -/
  | either (first second : Statement)
  /-- Carry out statements one after the other. -/
  | sequence (first second : Statement)
  /-- Start a statement without waiting for it. -/
  | background (body : Statement)
  | branch (condition body : Statement) (otherwise : Option Statement)
  /-- Repeat a statement as long as the condition succeeds, or until it does. -/
  | loop (untilTrue : Bool) (condition body : Statement)
  /-- Repeat a statement for some words, or for the arguments. -/
  | each (line : Nat) (name : List Char) (items : Option (List (List WordPart))) (body : Statement)
  /-- Choose a statement by the first pattern that a word matches. -/
  | choose (line : Nat) (subject : List WordPart)
      (choices : List (List (List WordPart) × Option Statement))
  /-- Carry out a statement in a shell of its own. -/
  | subshell (line : Nat) (body : Statement)
  | redirected (line : Nat) (body : Statement) (redirections : List Redirection)
  | define (name : List Char) (body : Statement)

end

/-- A word, as the sequence of its parts. -/
abbrev Word := List WordPart

instance : Inhabited Statement := ⟨.simple 1 [] [] []⟩

instance : Inhabited WordPart := ⟨.mark⟩

/-- Literal text that is not quoted and makes up a whole word. -/
def bareText? : Word → Option (List Char)
  | [.text content false] => some content
  | _ => none

/-- The first character of the name of a variable. -/
def startsName (c : Char) : Bool :=
  c.isAlpha || c = '_'

/-- A character in the name of a variable. -/
def continuesName (c : Char) : Bool :=
  c.isAlphanum || c = '_'

/-- The text is the name of a variable. -/
def isName (text : List Char) : Bool :=
  match text with
  | first :: rest => startsName first && rest.all continuesName
  | [] => false

/-- A parameter whose name is one character that is not a letter. -/
def isSpecialParameter (c : Char) : Bool :=
  c.isDigit || c ∈ ['@', '*', '#', '?', '-', '$', '!']

/-- The word with neighbouring literal texts joined when they are quoted alike. -/
def joinTexts : Word → Word
  | .text content quoted :: parts =>
    match joinTexts parts with
    | .text more alsoQuoted :: rest =>
      if quoted = alsoQuoted then .text (content ++ more) quoted :: rest
      else .text content quoted :: .text more alsoQuoted :: rest
    | rest => .text content quoted :: rest
  | part :: parts => part :: joinTexts parts
  | [] => []

/-- The name and the value that a word spells when it is an assignment. -/
def assignment? : Word → Option (List Char × Word)
  | .text content false :: parts =>
    let name := content.takeWhile (· ≠ '=')
    match content.dropWhile (· ≠ '=') with
    | _ :: value =>
      if isName name then
        some (name, if value.isEmpty then parts else .text value false :: parts)
      else none
    | [] => none
  | _ => none

end SketchApk.Shell
