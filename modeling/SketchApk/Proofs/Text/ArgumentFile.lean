import SketchApk.Stage.Classes

/-!
# Argument files

A tool can read its arguments from a file. White space separates them, and a number sign begins a
comment that goes on to the end of its line. Both lose their meaning between double quotes, where
nothing but a backslash is special: the character behind it stands for itself, unless it is one of
the four letters that stand for control characters.

A path that is quoted as in a list of sources is read back as it is, whatever characters it has.

## Main definitions

* `ArgumentFile.step` : what reading one character does.
* `ArgumentFile.arguments` : the arguments in a text.

## Main statements

* `ArgumentFile.foldl_line` : the line of a path adds the path to the arguments.
* `ArgumentFile.arguments_text` : the arguments in a list of sources are the listed paths.
-/

namespace SketchApk.ArgumentFile

/-- How the next character is taken. -/
inductive Mode
  /-- Outside quotes. -/
  | bare
  /-- Between double quotes. -/
  | quoted
  /-- Between double quotes, behind a backslash. -/
  | escaped
  /-- In a comment. -/
  | comment
  deriving DecidableEq

/-- What has been read of an argument file. -/
structure State where
  mode : Mode := .bare
  /-- The arguments that have come to their end. -/
  ended : List String := []
  /-- The beginning of another argument. -/
  begun : Option (List Char) := none

/-- The characters that separate arguments. -/
def isSpace (c : Char) : Bool :=
  c = ' ' || c = '\t' || c = '\n' || c = '\r' || c = '\x0c'

/-- The character for which one behind a backslash stands. -/
def unescaped (c : Char) : Char :=
  if c = 'n' then '\n'
  else if c = 't' then '\t'
  else if c = 'r' then '\r'
  else if c = 'f' then '\x0c'
  else c

namespace State

variable (state : State)

/-- The arguments when nothing more belongs to the last one. -/
def arguments : List String :=
  state.ended ++ state.begun.toList.map String.ofList

/-- No more characters belong to the argument. -/
def close (mode : Mode) : State :=
  { mode, ended := state.arguments }

/-- Some more characters belong to the argument. -/
def push (mode : Mode) (chars : List Char) : State :=
  { state with mode, begun := some (state.begun.getD [] ++ chars) }

end State

/-- What reading one character does. -/
def step (state : State) (c : Char) : State :=
  match state.mode with
  | .bare =>
    if isSpace c then state.close .bare
    else if c = '#' then state.close .comment
    else if c = '"' then state.push .quoted []
    else state.push .bare [c]
  | .quoted =>
    if c = '"' then state.push .bare []
    else if c = '\\' then state.push .escaped []
    else state.push .quoted [c]
  | .escaped => state.push .quoted [unescaped c]
  | .comment => if c = '\n' || c = '\r' then state.close .bare else state

/-- The arguments in a text. -/
def arguments (text : String) : List String :=
  (text.toList.foldl step {}).arguments

variable {ended : List String} {chars : List Char}

/-- The spelling of a character is read as the character. -/
theorem foldl_spelling (c : Char) : (SourceList.spelling c).foldl step ⟨.quoted, ended, some chars⟩ =
    ⟨.quoted, ended, some (chars ++ [c])⟩ := by
  rw [SourceList.spelling]
  by_cases hspecial : c = '"' ∨ c = '\\'
  · have hself : unescaped c = c := by
      rcases hspecial with rfl | rfl <;> rfl
    rw [if_pos (by simpa using hspecial)]
    simp [step, State.push, hself]
  · obtain ⟨hquote, hbackslash⟩ := not_or.mp hspecial
    rw [if_neg (by simpa using hspecial)]
    simp [step, State.push, hquote, hbackslash]

/-- The spellings of some characters are read as the characters. -/
theorem foldl_flatMap_spelling (path : List Char) :
    (path.flatMap SourceList.spelling).foldl step ⟨.quoted, ended, some chars⟩ =
      ⟨.quoted, ended, some (chars ++ path)⟩ := by
  induction path generalizing chars with
  | nil => simp
  | cons c rest ih =>
    rw [List.flatMap_cons, List.foldl_append, foldl_spelling, ih, List.append_assoc,
      List.singleton_append]

/-- The line of a path adds the path to the arguments. -/
theorem foldl_line (path : List Char) : (SourceList.line path).foldl step ⟨.bare, ended, none⟩ =
    ⟨.bare, ended ++ [String.ofList path], none⟩ := by
  have hopen : step ⟨.bare, ended, none⟩ '"' = ⟨.quoted, ended, some []⟩ := rfl
  have hclose : ['"', '\n'].foldl step ⟨.quoted, ended, some path⟩ =
      ⟨.bare, ended ++ [String.ofList path], none⟩ := by
    simp [step, State.push, State.close, State.arguments, isSpace]
  rw [SourceList.line, List.cons_append, List.foldl_cons, hopen, List.foldl_append,
    foldl_flatMap_spelling, List.nil_append, hclose]

/-- The lines of some paths add the paths to the arguments. -/
theorem foldl_flatMap_line (paths : List Path) :
    (paths.flatMap fun path => SourceList.line path.text.toList).foldl step ⟨.bare, ended, none⟩ =
      ⟨.bare, ended ++ paths.map Path.text, none⟩ := by
  induction paths generalizing ended with
  | nil => simp
  | cons path rest ih =>
    rw [List.flatMap_cons, List.foldl_append, foldl_line, ih, String.ofList_toList,
      List.append_assoc, List.singleton_append, List.map_cons]

/-- The arguments in a list of sources are the paths that are listed. -/
theorem arguments_text (paths : List Path) :
    arguments (SourceList.text paths) = paths.map Path.text := by
  rw [arguments, SourceList.text, String.toList_ofList, foldl_flatMap_line]
  simp [State.arguments]

/-- Outside quotes white space and comments are skipped, and parts without white space between them
belong together. -/
example : arguments "a\"b \\\"#\\n\" # \"c\n\td" = ["ab \"#\n", "d"] := by decide +kernel

end SketchApk.ArgumentFile
