import SketchApk.Proofs.Plan.Directories
import SketchApk.Proofs.Project.Confinement

/-!
# The generation of one source

A sketch and a plain source have a target among the generated sources. The directories above the
target are created, the source is read, and what results from it is written to the target. Other
files have no target, and nothing is done about them.

## Main definitions

* `Project.generatedNames?`, `Project.generatedContent?` : the target of a source, and what is
  generated from it.
* `Project.sketchClass?` : the class of a sketch.
* `Project.Generation` : the files between the steps of a generation.

## Main statements

* `Project.cases_of_run_generateSource` : what generating a source consists of.
-/

namespace SketchApk.Project

open Plan

/-- The names that lead to what is generated from a source, given by the names that lead to the
source: a sketch gets another extension, and a plain source keeps its name. -/
def generatedNames? (names : List String) : Option (List String) :=
  match names.getLast?.map Path.splitName with
  | some (stem, some "pde") => some (names.dropLast ++ [stem ++ "." ++ "java"])
  | some (_, some "java") => some names
  | _ => none

/-- What is generated from a source with some content: the unit of a sketch, or the source as it
is. -/
def generatedContent? (appPackage : String) (names : List String) (content : Content) :
    Option Content :=
  match names.getLast?.map Path.splitName with
  | some (stem, some "pde") =>
    content.text?.map fun text => .ofText (unitOf appPackage ⟨text, stem⟩)
  | some (_, some "java") => some content
  | _ => none

/-- The class of a sketch, given by the names that lead to it. -/
def sketchClass? (names : List String) : Option String :=
  match names.getLast?.map Path.splitName with
  | some (stem, some "pde") => some stem
  | _ => none

variable {project : Project} {world : World} {stop : Bool} {appPackage : String}
  {files last : FileSystem} {names : List String}

/-- A sketch has been read from the file to which its path leads. -/
theorem exists_of_run_readSource {path : Path} {source : Sketch.Source}
    (h : (Sketch.readSource path).run.run (world.answer stop) files = (.ok source, last)) :
    last = files ∧ ∃ there mode content text stem,
      files.find world.place path = .ok (there, .file mode content) ∧
        content.text? = some text ∧ path.stem? = some stem ∧ source = ⟨text, stem⟩ := by
  obtain ⟨text, between, hread, hstem⟩ := Attempt.exists_of_run_bind h
  obtain ⟨rfl, there, mode, content, hfind, htext⟩ :=
    exists_of_run_readText (Attempt.of_run_during hread)
  split at hstem
  · obtain ⟨hvalue, hfiles⟩ := Prod.mk.inj hstem
    obtain rfl := Except.ok.inj hvalue
    exact ⟨hfiles.symm, there, mode, content, text, _, hfind, htext, ‹_›, rfl⟩
  · cases (Prod.mk.inj hstem).1

/-- A source has been generated from the files it was found in, and the files that were left. -/
structure Generation (project : Project) (world : World) (stop : Bool) (appPackage : String)
    (files : FileSystem) (names : List String) (last : FileSystem) where
  /-- The names that lead to the directory of the target. -/
  front : List String
  /-- The name of the target. -/
  name : String
  isName : ∀ other ∈ front ++ [name], Path.IsName other
  names_eq : generatedNames? names = some (front ++ [name])
  /-- With the directory of the target. -/
  between : FileSystem
  run_makeDirectories : (makeDirectories (project.generatedDir.descend front)).run.run
    (world.answer stop) files = (.ok (), between)
  place : Location
  mode : Mode
  content : Content
  find_source : between.find world.place (project.sourceDir.descend names) =
    .ok (place, .file mode content)
  /-- A plain source hands its permission bits down to the target. -/
  written : Content
  overwrite : between.overwrite world.place (project.generatedDir.descend (front ++ [name])) written
    (if (sketchClass? names).isSome then none else some mode) = .ok last
  /-- The source is not copied onto itself. -/
  written_eq (h : sketchClass? names = none → ∀ target, between.resolve world.place .created
    (project.generatedDir.descend (front ++ [name])) = .ok target → place ≠ target.place) :
      generatedContent? appPackage names content = some written

/-! ### The kinds of sources -/

theorem sketchClass?_concat (front : List String) (name : String) :
    sketchClass? (front ++ [name]) =
      if (Path.splitName name).2 = some "pde" then some (Path.splitName name).1 else none := by
  rw [sketchClass?, List.getLast?_concat, Option.map_some]
  obtain ⟨stem, extension⟩ := Path.splitName name
  split <;> simp_all

theorem generatedNames?_concat (front : List String) (name : String) :
    generatedNames? (front ++ [name]) =
      if (Path.splitName name).2 = some "pde" then
        some (front ++ [(Path.splitName name).1 ++ "." ++ "java"])
      else if (Path.splitName name).2 = some "java" then some (front ++ [name]) else none := by
  rw [generatedNames?, List.getLast?_concat, Option.map_some, List.dropLast_concat]
  obtain ⟨stem, extension⟩ := Path.splitName name
  split <;> simp_all

theorem generatedContent?_concat (appPackage : String) (front : List String) (name : String)
    (content : Content) :
    generatedContent? appPackage (front ++ [name]) content =
      if (Path.splitName name).2 = some "pde" then
        content.text?.map fun text => .ofText (unitOf appPackage ⟨text, (Path.splitName name).1⟩)
      else if (Path.splitName name).2 = some "java" then some content else none := by
  rw [generatedContent?, List.getLast?_concat, Option.map_some]
  obtain ⟨stem, extension⟩ := Path.splitName name
  split <;> simp_all

section Kinds

variable {front : List String} {name : String} {value : Option String}
  (hnames : ∀ one ∈ front ++ [name], Path.IsName one)
  (h : (project.generateSource appPackage (front ++ [name])).run.run (world.answer stop) files =
    (.ok value, last))
include hnames

theorem extension?_source :
    (project.sourceDir.descend (front ++ [name])).extension? = (Path.splitName name).2 := by
  rw [Path.descend_concat, Path.extension?_div _ (hnames name List.mem_concat_self)]

theorem parent?_target {other : String} (hother : Path.IsName other) :
    (project.generatedDir.descend (front ++ [other])).parent? =
      some (project.generatedDir.descend front) := by
  rw [Path.descend_concat]
  exact project.buildDir.parent?_descend (by decide) (List.forall_mem_append.mp hnames).1 hother

include h

/-- The unit of a sketch is written to the target. -/
theorem generation_of_sketch (hpde : (Path.splitName name).2 = some "pde") :
    value = some (Path.splitName name).1 ∧
      Nonempty (project.Generation world stop appPackage files (front ++ [name]) last) := by
  obtain ⟨hfront, hsingle⟩ := List.forall_mem_append.mp hnames
  have hname : Path.IsName name := hsingle name (List.mem_singleton_self name)
  have hjava : Path.IsName ((Path.splitName name).1 ++ "." ++ "java") :=
    hname.withExtension (by decide) (by decide) (by decide)
  simp only [generateSource, extension?_source hnames, hpde] at h
  obtain ⟨source, _, hread, hrest⟩ := Attempt.exists_of_run_bind h
  obtain ⟨rfl, there, mode, content, text, stem, hfind, htext, hstem, rfl⟩ :=
    exists_of_run_readSource hread
  obtain ⟨_, _, hwrite, hpure⟩ := Attempt.exists_of_run_bind hrest
  obtain ⟨hvalue, rfl⟩ := Prod.mk.inj hpure
  rw [Path.descend_concat, Path.stem?_div _ hname] at hstem
  obtain rfl := Option.some.inj hstem
  rw [Path.descend_concat, Path.withExtension_div _ hname hjava, ← Path.descend_concat] at hwrite
  obtain ⟨between, hmake, hoverwrite⟩ :=
    exists_of_run_writeTextFile_of_parent? (parent?_target hnames hjava) hwrite
  refine ⟨(Except.ok.inj hvalue).symm, ⟨front, _,
    List.forall_mem_append.mpr ⟨hfront, List.forall_mem_singleton.mpr hjava⟩, ?_, between, hmake,
    there, mode, content, (sameFiles_of_run_makeDirectories hmake).keeps.find hfind,
    .ofText (unitOf appPackage ⟨text, (Path.splitName name).1⟩), ?_, fun _ => ?_⟩⟩
  · rw [generatedNames?_concat, if_pos hpde]
  · rw [sketchClass?_concat, if_pos hpde]
    exact hoverwrite
  · rw [generatedContent?_concat, if_pos hpde, htext, Option.map_some]

/-- A plain source is copied to the target. -/
theorem generation_of_plain (hjava : (Path.splitName name).2 = some "java") :
    value = none ∧
      Nonempty (project.Generation world stop appPackage files (front ++ [name]) last) := by
  have hpde : ¬(Path.splitName name).2 = some "pde" := by
    rw [hjava]
    decide
  simp only [generateSource, extension?_source hnames, hjava,
    parent?_target hnames (hnames name List.mem_concat_self)] at h
  obtain ⟨_, between, hmake, hrest⟩ := Attempt.exists_of_run_bind h
  obtain ⟨_, _, hcopy, hpure⟩ := Attempt.exists_of_run_bind hrest
  obtain ⟨hvalue, rfl⟩ := Prod.mk.inj hpure
  obtain ⟨hresult, hlast⟩ := Prod.mk.inj (Attempt.of_run_file (Attempt.of_run_during hcopy))
  obtain ⟨changed, hchanged, hsettle⟩ := FileOperation.exists_of_settle hresult
  obtain ⟨there, mode, content, written, hfind, hoverwrite, hwritten⟩ :=
    FileSystem.exists_of_copy hchanged
  obtain ⟨target, -, hresolve, -⟩ := FileSystem.exists_of_overwrite hoverwrite
  obtain rfl := hlast.symm.trans hsettle
  have hclass : sketchClass? (front ++ [name]) = none := by rw [sketchClass?_concat, if_neg hpde]
  refine ⟨(Except.ok.inj hvalue).symm, ⟨front, name, hnames, ?_, between, hmake, there, mode, content,
    hfind, written, ?_, fun happart => ?_⟩⟩
  · rw [generatedNames?_concat, if_neg hpde, if_pos hjava]
  · rw [hclass]
    exact hoverwrite
  · rw [generatedContent?_concat, if_neg hpde, if_pos hjava]
    exact congrArg some (hwritten _ hresolve (happart hclass _ hresolve)).symm

/-- Nothing is done about any other file. -/
theorem of_run_generateSource_of_other (hpde : ¬(Path.splitName name).2 = some "pde")
    (hjava : ¬(Path.splitName name).2 = some "java") : value = none ∧ last = files := by
  simp only [generateSource, extension?_source hnames] at h
  obtain ⟨hvalue, rfl⟩ := Prod.mk.inj h
  exact ⟨(Except.ok.inj hvalue).symm, rfl⟩

end Kinds

/-- A source is generated, or it has no target and nothing happens. -/
theorem cases_of_run_generateSource (hne : names ≠ []) (hnames : ∀ name ∈ names, Path.IsName name)
    {value : Option String}
    (h : (project.generateSource appPackage names).run.run (world.answer stop) files =
      (.ok value, last)) :
    value = sketchClass? names ∧ (generatedNames? names = none ∧ last = files ∨
      Nonempty (project.Generation world stop appPackage files names last)) := by
  obtain ⟨front, name, rfl⟩ : ∃ front name, names = front ++ [name] := by
    obtain ⟨front, name, hconcat⟩ := (List.eq_nil_or_concat names).resolve_left hne
    exact ⟨front, name, by rw [hconcat, List.concat_eq_append]⟩
  rw [sketchClass?_concat, generatedNames?_concat]
  by_cases hpde : (Path.splitName name).2 = some "pde"
  · obtain ⟨rfl, hgeneration⟩ := generation_of_sketch hnames h hpde
    exact ⟨(if_pos hpde).symm, .inr hgeneration⟩
  · rw [if_neg hpde, if_neg hpde]
    by_cases hjava : (Path.splitName name).2 = some "java"
    · obtain ⟨rfl, hgeneration⟩ := generation_of_plain hnames h hjava
      exact ⟨rfl, .inr hgeneration⟩
    · obtain ⟨rfl, rfl⟩ := of_run_generateSource_of_other hnames h hpde hjava
      exact ⟨rfl, .inl ⟨if_neg hjava, rfl⟩⟩

end SketchApk.Project
