import SketchApk.Regex.Basic

/-!
# Commands for editing lines

An editing script is a list of commands, each of which may be limited to some lines by addresses. Its
commands work on the present line and on a text that is held aside.

## Main definitions

* `Editing.Address`, `Editing.Selection` : the lines that a command is limited to.
* `Editing.Command` : commands.
-/

namespace SketchApk.Editing

/-- A regular expression, or the one that was used last, with the way in which it is matched. -/
structure Pattern where
  /-- The expression, unless it is the one that was used last. -/
  regex : Option Regex
  ignoresCase : Bool := false
  isMultiline : Bool := false
  deriving Inhabited

/-- A description of lines. -/
inductive Address where
  | line (number : Nat)
  /-- Every line at a distance from a first one. -/
  | step (first distance : Nat)
  | last
  | pattern (pattern : Pattern)
  deriving Inhabited

/-- Where a range of lines ends. -/
inductive RangeEnd where
  | address (address : Address)
  /-- As many lines follow. -/
  | lines (count : Nat)
  /-- The number of the line is a multiple. -/
  | multiple (number : Nat)
  deriving Inhabited

/-- The lines that a command is limited to. -/
structure Selection where
  first : Option Address := none
  last : Option RangeEnd := none
  isInverted : Bool := false
  deriving Inhabited

/-- How the case of letters is changed. -/
inductive CaseChange where
  | none
  | upper
  | lower
  deriving DecidableEq, Inhabited

/-- A part of a replacement. -/
inductive ReplacementPart where
  | text (text : List Char)
  /-- What a group has matched; zero stands for the whole match. -/
  | group (number : Nat)
  /-- All that follows is changed. -/
  | change (change : CaseChange)
  /-- The next character is changed. -/
  | changeNext (change : CaseChange)
  deriving Inhabited

/-- The replacement of what an expression matches. -/
structure Substitution where
  pattern : Pattern
  parts : List ReplacementPart
  isGlobal : Bool := false
  /-- The number of the first match that is replaced. -/
  number : Nat := 1
  prints : Bool := false
  /-- A file to which changed lines are written. -/
  file : Option String := none
  deriving Inhabited

/-- What a command does. -/
inductive Action where
  | nothing
  /-- The commands up to the one of that number are carried out only for the selected lines. -/
  | opening (closing : Nat)
  | label (name : List Char)
  | append (text : List Char)
  | insert (text : List Char)
  | change (text : List Char)
  /-- Go on at a label, or at the end. -/
  | branch (label : List Char)
  | branchIfReplaced (label : List Char)
  | branchUnlessReplaced (label : List Char)
  | delete
  | deleteFirstLine
  | fileName
  | takeHeld
  | appendHeld
  | hold
  | appendToHeld
  | list (width : Option Nat)
  | next
  | appendNext
  | print
  | printFirstLine
  | quit (status : Nat) (prints : Bool)
  | readFile (name : String)
  | readLine (name : String)
  | substitute (substitution : Substitution)
  | writeLine (name : String)
  | writeFirstLine (name : String)
  | exchange
  | translate (pairs : List (Char × Char))
  | empty
  | number
  deriving Inhabited

/-- A command with the lines that it is limited to. -/
structure Command where
  selection : Selection
  action : Action
  deriving Inhabited

/-- A script. -/
structure Script where
  commands : Array Command
  /-- Lines are printed only on demand. -/
  isQuiet : Bool := false

/-- The number of the command behind a label. -/
def Script.label? (script : Script) (name : List Char) : Option Nat :=
  script.commands.findIdx? fun command =>
    match command.action with
    | .label known => known = name
    | _ => false

end SketchApk.Editing
