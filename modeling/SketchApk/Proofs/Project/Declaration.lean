import SketchApk.Proofs.Project.Generation
import SketchApk.Proofs.Sketch.Grammar
import SketchApk.Proofs.Sketch.Package

/-!
# The package declaration of a unit

The unit of a sketch declares its package on its first line, and an empty line follows. The
declaration is the first one of the sketch, or else one for the package of the application. Whether
the sketch has one is asked twice, once for the lines of the unit and once for what is put in front
of it, and the answers agree: the empty lines at the end of a sketch, which only the second question
takes into account, declare nothing.

## Main definitions

* `Sketch.declarationLine` : the package declaration that belongs to a sketch.
* `Sketch.DeclaresOnce` : a text that declares a package on its first line alone.

## Main statements

* `Project.declaresOnce_unitOf` : a unit declares its package on its first line alone.
* `Project.exists_of_mem_write` : a source that is written is the unit of a sketch that was read.
-/

namespace SketchApk

namespace Sketch

open Text

/-- The package declaration that belongs to a sketch: its own first one, without a carriage return at
the end, or else that of the application. -/
def declarationLine (appPackage sketch : String) : List Char :=
  match (split '\n' sketch.toList).find? isPackageLine with
  | some line => dropReturn line
  | none => ("package " ++ appPackage ++ ";").toList

/-- The text declares a package on its first line, behind which there is an empty one, and on no
other line. -/
structure DeclaresOnce (declaration : List Char) (text : String) : Prop where
  lines : (split '\n' text.toList).filter isPackageLine = [declaration]
  front : ∃ rest, split '\n' text.toList = declaration :: [] :: rest

/-- A name makes a package declaration. -/
theorem isPackageLine_of_isDottedName {name : String} (h : IsDottedName name.toList) :
    isPackageLine ("package " ++ name ++ ";").toList = true := by
  have htext : ("package " ++ name ++ ";").toList =
      "package".toList ++ [' '] ++ ([] ++ (name.toList ++ [] ++ [';'])) := by
    simp [String.toList_append]
  rw [htext]
  refine isPackage_iff.mpr (isDeclaration_dropReturn_iff.mpr ⟨_, [], (List.append_nil _).symm, ?_,
    .inl rfl⟩)
  exact ⟨[' '], [], name.toList, [], rfl, ⟨by simp, by simp; decide⟩, rfl, h, by simp⟩

/-! ### The lines of a unit -/

/-- The lines of the unit of a sketch behind its package declaration. -/
def linesBehind (sketch name : String) : List (List Char) :=
  ((sourceLines sketch.toList).filter isImportLine).map dropReturn ++
    ([Preprocessor.standard.implicitImport.toList, []] ++ Preprocessor.standard.opening name ::
      (((sourceLines sketch.toList).filter isPlainLine).map ('\t' :: ·) ++ [['}']]))

variable {name : String}

theorem split_preprocess_standard (hname : '\n' ∉ name.toList) (sketch : String) :
    split '\n' (Preprocessor.standard.preprocess sketch name).toList =
      (((split '\n' sketch.toList).find? isPackageLine).toList.flatMap fun line =>
        [dropReturn line, []]) ++ linesBehind sketch name := by
  rw [Preprocessor.standard.split_preprocess hname (by decide) (by decide), Preprocessor.header,
    CompilationUnit.package?_ofLines, CompilationUnit.imports_ofLines,
    find?_isPackageLine_sourceLines, List.append_assoc, List.append_assoc]
  cases (split '\n' sketch.toList).find? isPackageLine <;> rfl

/-- None of these lines declares a package: the imports of the sketch are no package declarations,
its other lines have a tab in front, and what the unit adds begins with other words. -/
theorem isPackageLine_of_mem_linesBehind (sketch name : String) :
    ∀ line ∈ linesBehind sketch name, isPackageLine line = false := by
  have himports : ∀ line ∈ ((sourceLines sketch.toList).filter isImportLine).map dropReturn,
      isPackageLine line = false :=
    List.forall_mem_map.mpr fun line hline =>
      isPackageLine_dropReturn_of_isImportLine (List.mem_filter.mp hline).2
  rw [linesBehind, ← CompilationUnit.body_ofLines]
  refine List.forall_mem_append.mpr ⟨himports, fun line hline => ?_⟩
  have hplain := isPlainLine_of_mem_linesAfterImports (.ofText sketch) name line hline
  simp only [isPlainLine, Bool.and_eq_true, Bool.not_eq_true'] at hplain
  exact hplain.1

end Sketch

namespace Project

open Plan Sketch Text

theorem declaresPackage_eq (sketch : String) : declaresPackage sketch =
    ((split '\n' sketch.toList).find? isPackageLine).isSome :=
  List.isSome_find?.symm

/-- A unit declares its package on its first line alone. -/
theorem declaresOnce_unitOf {appPackage name : String} (hpackage : IsDottedName appPackage.toList)
    (hname : '\n' ∉ name.toList) (sketch : String) :
    DeclaresOnce (declarationLine appPackage sketch) (unitOf appPackage ⟨sketch, name⟩) := by
  obtain ⟨hsplit, hdeclares⟩ : split '\n' (unitOf appPackage ⟨sketch, name⟩).toList =
      declarationLine appPackage sketch :: [] :: linesBehind sketch name ∧
      isPackageLine (declarationLine appPackage sketch) = true := by
    have hunit := split_preprocess_standard hname sketch
    rw [unitOf, declaresPackage_eq, declarationLine]
    cases hfirst : (split '\n' sketch.toList).find? isPackageLine with
    | some line =>
      rw [hfirst] at hunit
      have hdeclares := List.find?_some hfirst
      exact ⟨hunit, isPackageLine_of_isPackage hdeclares⟩
    | none =>
      rw [hfirst] at hunit
      refine ⟨?_, isPackageLine_of_isDottedName hpackage⟩
      have htext : ("package " ++ appPackage ++ ";\n\n" ++
          Preprocessor.standard.preprocess sketch name).toList =
            ("package " ++ appPackage ++ ";").toList ++
              '\n' :: ([] ++ '\n' :: (Preprocessor.standard.preprocess sketch name).toList) := by
        simp [String.toList_append]
      have hline : '\n' ∉ ("package " ++ appPackage ++ ";").toList := by
        have hnewline : '\n' ∉ appPackage.toList := fun hmem =>
          Bool.false_ne_true ((isBlank_of_isNameCharacter (hpackage.isNameCharacter _ hmem)).symm)
        simp [String.toList_append, hnewline]
      change split '\n' ("package " ++ appPackage ++ ";\n\n" ++
        Preprocessor.standard.preprocess sketch name).toList = _
      rw [htext, split_append_cons hline, split_append_cons List.not_mem_nil, hunit]
      rfl
  have hempty : isPackageLine [] = false := by decide
  refine ⟨?_, _, hsplit⟩
  rw [hsplit, List.filter_cons_of_pos hdeclares, List.filter_cons_of_neg (by simp [hempty]),
    List.filter_eq_nil_iff.mpr fun line hline => ?_]
  rw [isPackageLine_of_mem_linesBehind sketch name line hline]
  exact Bool.false_ne_true

/-! ### Units that are written -/

variable {project : Project} {names : List String} {history : History}

/-- A sketch that has been read comes from its file. -/
theorem exists_of_ends_readSource {path : Path} {source : Source}
    (h : (readSource path).run.Ends history (.ok source)) : ∃ content,
      history = [⟨.file (.read path), .ok content⟩] ∧ content.text? = some source.text ∧
        path.stem? = some source.className := by
  obtain ⟨_, -, hfault⟩ | ⟨_, text, _, rfl, hread, hstem⟩ := Attempt.ends_bind.mp h
  · cases hfault
  obtain ⟨_, -, hfault⟩ | ⟨_, content, _, rfl, hfile, htext⟩ :=
    Attempt.ends_bind.mp (Attempt.ends_during_ok.mp hread)
  · cases hfault
  obtain rfl := Attempt.ends_file_ok.mp hfile
  split at hstem
  · split at htext
    · obtain ⟨rfl, hvalue⟩ := htext
      obtain ⟨rfl, hsource⟩ := hstem
      obtain rfl := Except.ok.inj hvalue
      obtain rfl := Except.ok.inj hsource
      exact ⟨content, rfl, ‹_›, ‹_›⟩
    · cases htext.2
  · cases hstem.2

/-- The request writes nothing but a text. -/
def writesOnly (text : String) (request : Request) : Prop :=
  ∀ path content, request = .file (.write path content) → content = .ofText text

theorem only_writesOnly_writeTextFile (path : Path) (text : String) :
    (writeTextFile path text).run.Only (writesOnly text) := by
  refine only_writeTextFile ?_ ?_ ?_
  · rintro _ _ _ ⟨⟩
  · rintro _ _ _ _ _ _ _ ⟨⟩
  · rintro _ _ ⟨⟩
    rfl

/-- A source that is written is the unit of the sketch that was read. -/
theorem exists_of_mem_write {appPackage : String} {result : Except Fault (Option String)}
    (hends : (project.generateSource appPackage names).run.Ends history result) {entry : Exchange}
    (hmem : entry ∈ history) {path : Path} {written : Content}
    (hwrite : entry.request = .file (.write path written)) :
    ∃ content sketch stem,
      ⟨.file (.read (project.sourceDir.descend names)), .ok content⟩ ∈ history ∧
      content.text? = some sketch ∧ (project.sourceDir.descend names).stem? = some stem ∧
      written = .ofText (unitOf appPackage ⟨sketch, stem⟩) := by
  have hwriteless {α : Type} {plan : Plan α} {value : α} {part : History}
      (h : plan.Only Request.IsWriteless) (hplan : plan.Ends part value) : entry ∉ part := by
    intro hpart
    have hentry := h.request_of_mem hplan hpart
    rw [hwrite] at hentry
    exact hentry
  rw [generateSource] at hends
  split at hends
  · obtain ⟨_, hread, -⟩ | ⟨first, source, second, rfl, hread, hrest⟩ := Attempt.ends_bind.mp hends
    · exact absurd hmem (hwriteless (only_readSource trivial) hread)
    have hsecond : entry ∈ second :=
      (List.mem_append.mp hmem).resolve_left (hwriteless (only_readSource trivial) hread)
    obtain ⟨content, rfl, htext, hstem⟩ := exists_of_ends_readSource hread
    refine ⟨content, _, _, List.mem_append_left _ List.mem_cons_self, htext, hstem, ?_⟩
    have hunit {plan : Plan (Except Fault (Option String))} (hplan : plan.Ends second result)
        (h : plan.Only (writesOnly (unitOf appPackage source))) :
        written = .ofText (unitOf appPackage source) :=
      h.request_of_mem hplan hsecond path written hwrite
    exact hunit hrest ((only_writesOnly_writeTextFile _ _).attemptBind fun _ => Only.of_pure _)
  · refine absurd hmem (hwriteless ?_ hends)
    refine (Only.attemptForM? _ fun parent => ?_).attemptBind fun _ => ?_
    · exact only_makeDirectories (fun _ => trivial) (fun _ => trivial) parent
    · exact ((only_attemptFile trivial).during _).attemptBind fun _ => Only.of_pure _
  · exact absurd hmem (hwriteless (Only.of_pure _) hends)

/-- Both questions for a package declaration have one answer. -/
theorem declaresPackage_eq_isSome_package? (sketch : String) : declaresPackage sketch =
    (CompilationUnit.ofLines (sourceLines sketch.toList)).package?.isSome := by
  rw [declaresPackage_eq, CompilationUnit.package?_ofLines, find?_isPackageLine_sourceLines,
    Option.isSome_map]

/-- The unit of a sketch declares its package on its first line, with an empty line behind it, and on
no other line. Generating a source from a sketch writes nothing but the unit of the sketch that was
read. -/
theorem unit_declaresOnce {appPackage stem : String} (hpackage : IsDottedName appPackage.toList)
    (hstem : '\n' ∉ stem.toList) :
    (∀ sketch, DeclaresOnce (declarationLine appPackage sketch) (unitOf appPackage ⟨sketch, stem⟩) ∧
      declaresPackage sketch =
        (CompilationUnit.ofLines (sourceLines sketch.toList)).package?.isSome) ∧
    ∀ (project : Project) (names : List String),
      (project.sourceDir.descend names).stem? = some stem →
      ∀ history result, (project.generateSource appPackage names).run.Ends history result →
      ∀ entry ∈ history, ∀ path written, entry.request = .file (.write path written) →
      ∃ content sketch,
        ⟨.file (.read (project.sourceDir.descend names)), .ok content⟩ ∈ history ∧
        content.text? = some sketch ∧ written = .ofText (unitOf appPackage ⟨sketch, stem⟩) := by
  refine ⟨fun sketch => ⟨declaresOnce_unitOf hpackage hstem sketch,
    declaresPackage_eq_isSome_package? sketch⟩, ?_⟩
  intro project names hname history result hends entry hmem path written hwrite
  obtain ⟨content, sketch, other, hread, htext, hother, hwritten⟩ :=
    exists_of_mem_write hends hmem hwrite
  obtain rfl := Option.some.inj (hname.symm.trans hother)
  exact ⟨content, sketch, hread, htext, hwritten⟩

/-- The later of two declarations is dropped, and so is the carriage return of the first one. -/
theorem declaresOnce_sample : IsDottedName "com.example.app".toList ∧ '\n' ∉ "main".toList ∧
    DeclaresOnce "package org.a ;".toList
      (unitOf "com.example.app" ⟨"int x;\npackage org.a ;\r\npackage b;\n\n", "main"⟩) := by
  have hpackage : IsDottedName "com.example.app".toList := by decide
  have hstem : '\n' ∉ "main".toList := by decide
  have hline : declarationLine "com.example.app" "int x;\npackage org.a ;\r\npackage b;\n\n" =
      "package org.a ;".toList := by decide +kernel
  refine ⟨hpackage, hstem, ?_⟩
  rw [← hline]
  exact ((unit_declaresOnce hpackage hstem).1 _).1

end Project

end SketchApk
