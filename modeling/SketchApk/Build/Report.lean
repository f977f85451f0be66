import SketchApk.Build.Statistics
import SketchApk.Bytes.Sha256
import SketchApk.Plan.Attempt
import SketchApk.Text.Lines
import SketchApk.Text.Number

/-!
# Reports about builds

A report tells when a build ran, how it and its stages ended, and which package it has produced,
with the size and the digest of the package. It is written as JSON, one field on a line with two
blanks for each level, and without a newline at the end. A string is quoted by double quotes.
Inside, the quote, the backslash and the control characters below `U+0020` are escaped: five of the
latter by a letter, the others by four hexadecimal digits. All other characters stand for
themselves.

A report is written to a temporary file first, which then takes the place of an older report. So at
any moment there is either the older report or the complete new one.

## Main definitions

* `RunReport` : what a report tells; `RunReport.text` is its JSON form.
* `RunReport.of` : the report about a build.
* `RunReport.write` : writing a report.
-/

namespace SketchApk.Text

/-! ### JSON string literals -/

/-- The spelling of one character inside a JSON string literal. -/
def jsonCharacter (c : Char) : List Char :=
  match c with
  | '"' => ['\\', '"']
  | '\\' => ['\\', '\\']
  | '\n' => ['\\', 'n']
  | '\r' => ['\\', 'r']
  | '\t' => ['\\', 't']
  | _ =>
    if c.toNat = 0x8 then ['\\', 'b']
    else if c.toNat = 0xc then ['\\', 'f']
    else if c.toNat < 0x20 then ['\\', 'u'] ++ hexadecimal 4 c.toNat
    else [c]

/-- The JSON string literal of a string. -/
def jsonString (text : String) : String :=
  String.ofList ('"' :: text.toList.flatMap jsonCharacter ++ ['"'])

end SketchApk.Text

namespace SketchApk

namespace Moment

/-! ### Reports -/

/-- The moment to the second, with the time of day behind a letter. -/
def stamp (moment : Moment) : String :=
  String.ofList (Text.decimalPadded 4 moment.year ++ Text.decimalPadded 2 moment.month ++
    Text.decimalPadded 2 moment.day ++ 'T' :: Text.decimalPadded 2 moment.hour ++
    Text.decimalPadded 2 moment.minute ++ Text.decimalPadded 2 moment.second ++ ['Z'])

/-- The text has the form of a moment to the second. -/
def isStamp (text : String) : Bool :=
  let digits := text.toList.filter Char.isDigit
  digits.length = 14 && text.toList = digits.take 8 ++ 'T' :: digits.drop 8 ++ ['Z']

end Moment

/-- A name for a build that starts at a moment in a process. Names sort by time. -/
def runId (moment : Moment) (process : Nat) : String :=
  moment.stamp ++ "-" ++ String.ofList (Text.hexadecimal 1 process) ++ "-" ++
    String.ofList (Text.hexadecimal 8 moment.nanosecond)

/-- The text has the form of a name for a build. -/
def isRunId (text : String) : Bool :=
  let isHexadecimal (digits : List Char) : Bool :=
    !digits.isEmpty && digits.all fun c => c.isDigit || ('a' ≤ c && c ≤ 'f')
  match Text.split '-' text.toList with
  | [stamp, process, nanos] =>
    Moment.isStamp (String.ofList stamp) && isHexadecimal process && isHexadecimal nanos &&
      nanos.length = 8
  | _ => false

/-- What a report tells about a package. -/
structure PackageReport where
  path : Path
  digest : String
  size : Nat
  deriving DecidableEq

/-- What a report tells. -/
structure RunReport where
  runId : String
  startedAt : String
  finishedAt : String
  outcome : BuildOutcome
  stages : Statistics
  package : Option PackageReport
  deriving DecidableEq

namespace RunReport

/-- The digest of some bytes in hexadecimal. -/
def hexDigest (data : ByteArray) : String :=
  Text.hexText ⟨(Bytes.Sha256.digest data.data.toList).toArray⟩

/-- What a report tells about the package at a path. A directory can be opened, so only reading it
fails. -/
def describePackage (path : Path) : Attempt PackageReport :=
  ExceptT.mk do
    match ← Plan.ask (.file (.read path)) with
    | .ok content => return .ok ⟨path, hexDigest content.toBytes, content.toBytes.size⟩
    | .error .isADirectory => return .error { cause := .file .isADirectory }
    | .error error => return .error { activities := [.digesting path], cause := .file error }

/-- The report about a build that has just ended. -/
def of (runId startedAt : String) (run : BuildRun) : Attempt RunReport := do
  let package ←
    match run.outcome.package? with
    | some path => some <$> describePackage path
    | none => pure none
  let finished ← Attempt.always (Plan.ask .calendar)
  return ⟨runId, startedAt, Moment.stamp finished, run.outcome, run.statistics, package⟩

/-- The word for the outcome of a build. -/
def status : BuildOutcome → String
  | .success _ => "success"
  | .failed _ => "failed"
  | .stopped => "stopped"

/-- The blanks at the front of a line of a level. -/
def indent (level : Nat) : String :=
  String.ofList (List.replicate (2 * level) ' ')

/-- A list of texts between brackets, each on a line of its own. An empty list stays on one line. -/
def bracketed (level : Nat) (opening closing : String) (items : List String) : String :=
  if items.isEmpty then opening ++ closing
  else
    opening ++ "\n" ++ ",\n".intercalate (items.map (indent (level + 1) ++ ·)) ++ "\n" ++
      indent level ++ closing

/-- A JSON object, given by its keys and the JSON forms of their values. -/
def object (level : Nat) (fields : List (String × String)) : String :=
  bracketed level "\x7b" "\x7d" (fields.map fun field =>
    Text.jsonString field.1 ++ ": " ++ field.2)

/-- A number in JSON. -/
def number (n : Nat) : String :=
  String.ofList (Text.decimal n)

/-- The JSON form of a record, with its time in milliseconds. -/
def stageText (record : StageRecord) : String :=
  object 2 [("name", Text.jsonString record.name),
    ("outcome", Text.jsonString record.outcome.name),
    ("elapsed_ms", number (record.elapsed / 1000000))]

/-- The JSON form of what a report tells about a package. -/
def packageText (package : PackageReport) : String :=
  object 1 [("path", Text.jsonString package.path.text),
    ("sha256", Text.jsonString package.digest),
    ("size_bytes", number package.size)]

/-- The JSON form of a report. -/
def text (report : RunReport) : String :=
  object 0 <|
    [("run_id", Text.jsonString report.runId),
      ("status", Text.jsonString (status report.outcome)),
      ("started_at_utc", Text.jsonString report.startedAt),
      ("finished_at_utc", Text.jsonString report.finishedAt),
      ("stages", bracketed 1 "[" "]" (report.stages.map stageText))] ++
    report.package.toList.map (fun package => ("package", packageText package)) ++
    report.outcome.error?.toList.map (fun error => ("error", Text.jsonString error.message))

/-- The name under which a report is written first, in place of its extension. -/
def temporaryExtension (process : Nat) : String :=
  "tmp-" ++ number process

/-- Replace a file by a text. -/
def replaceFile (path : Path) (text : String) : Attempt Unit := do
  match path.parent? with
  | none => Attempt.fail (.reportWithoutParent path)
  | some parent =>
    (Plan.makeDirectories parent).during (.creatingParent parent)
    let process ← Attempt.always (Plan.ask .processId)
    let temporary := path.withExtension (temporaryExtension process)
    (Attempt.file (.write temporary (.ofText text))).during (.writingTemporary temporary)
    (Attempt.file (.rename temporary path)).during (.renamingTemporary temporary path)

/-- Write a report. -/
def write (report : RunReport) (path : Path) : Attempt Unit :=
  (replaceFile path report.text).during (.writingReport path)

end RunReport

end SketchApk
