import SketchApk.Proofs.Sketch.Unit

/-!
# Units of units

A unit can be taken for a sketch. Its package declaration and its imports are recognised again, for
they stand at the beginning of their lines, and become the header of the new unit. Nothing else is:
the import of the runtime has an asterisk, the lines of the body have a tab in front, and the lines
of the class itself begin with other words. So all passes yield the same header, each puts the class
of the one before, a tab further to the right, at the end of a new class, and each adds one import of
the runtime.

## Main definitions

* `Sketch.unitLines` : the lines of a unit.
* `Sketch.linesBesides` : the lines of a unit besides its package declaration and its imports.
* `Sketch.runtimeImports` : the number of imports of the runtime, whatever their indentation.
* `Sketch.IsRewrapped` : what one pass makes of a unit.
* `Sketch.passes` : the text after some passes.

## Main statements

* `Sketch.isRewrapped_preprocess` : a pass over a unit.
* `Sketch.areNested` : every pass but the first one is a pass over a unit.
-/

namespace SketchApk.Sketch

open Text

variable {name : String} {line : List Char} {unit : CompilationUnit}

/-! ### The lines of a unit -/

/-- The declarations of a unit are declarations without carriage returns. -/
structure CompilationUnit.IsDeclared (unit : CompilationUnit) : Prop where
  package? : ∀ line ∈ unit.package?, isPackage line = true
  imports : ∀ line ∈ unit.imports, isImport line = true

theorem CompilationUnit.isDeclared_ofText (source : String) : (ofText source).IsDeclared := by
  constructor
  · rw [ofText, package?_ofLines]
    intro line hline
    obtain ⟨first, hfirst, rfl⟩ := Option.map_eq_some_iff.mp hline
    have hpackage := List.find?_some hfirst
    exact hpackage
  · rw [ofText, imports_ofLines]
    exact List.forall_mem_map.mpr fun line hline => (List.mem_filter.mp hline).2

/-- The lines of a standard unit. -/
def unitLines (unit : CompilationUnit) (name : String) : List (List Char) :=
  unit.package?.toList.flatMap (fun line => [line, []]) ++
    (unit.imports ++ linesAfterImports unit name)

theorem split_preprocess_ofText (hname : '\n' ∉ name.toList) (source : String) :
    split '\n' (Preprocessor.standard.preprocess source name).toList =
      unitLines (.ofText source) name := by
  rw [Preprocessor.split_preprocess hname (by decide) (by decide), Preprocessor.header, unitLines,
    linesAfterImports, CompilationUnit.ofText, CompilationUnit.body_ofLines]
  simp only [List.append_assoc, List.cons_append, List.nil_append]

section Declared

variable (h : unit.IsDeclared) (name)
include h

/-- The package declaration of a unit is its only one. -/
theorem filter_isPackageLine_unitLines :
    (unitLines unit name).filter isPackageLine = unit.package?.toList := by
  have hpackage : (unit.package?.toList.flatMap fun line => [line, []]).filter isPackageLine =
      unit.package?.toList := by
    cases hunit : unit.package? with
    | none => rfl
    | some line =>
      have hline := isPackageLine_of_isPackage (h.package? line hunit)
      simpa [List.filter_cons, hline] using (by decide : isPackageLine [] = false)
  have himports : unit.imports.filter isPackageLine = [] :=
    List.filter_eq_nil_iff.mpr fun line hline => by
      simp [isPackageLine_of_isImportLine (isImportLine_of_isImport (h.imports line hline))]
  have hbehind : (linesAfterImports unit name).filter isPackageLine = [] :=
    List.filter_eq_nil_iff.mpr fun line hline hmem => by
      simpa [isPlainLine, hmem] using isPlainLine_of_mem_linesAfterImports unit name line hline
  rw [unitLines, List.filter_append, List.filter_append, hpackage, himports, hbehind]
  simp

/-- The imports of a unit are its only import declarations. -/
theorem filter_isImportLine_unitLines :
    (unitLines unit name).filter isImportLine = unit.imports := by
  have hpackage : (unit.package?.toList.flatMap fun line => [line, []]).filter isImportLine = [] := by
    cases hunit : unit.package? with
    | none => rfl
    | some line =>
      have hline : isImportLine line = false := by
        refine Bool.eq_false_iff.mpr fun himport => Bool.false_ne_true ?_
        exact (isPackageLine_of_isImportLine himport).symm.trans
          (isPackageLine_of_isPackage (h.package? line hunit))
      simpa [List.filter_cons, hline] using (by decide : isImportLine [] = false)
  have himports : unit.imports.filter isImportLine = unit.imports :=
    List.filter_eq_self.mpr fun line hline => isImportLine_of_isImport (h.imports line hline)
  have hbehind : (linesAfterImports unit name).filter isImportLine = [] :=
    List.filter_eq_nil_iff.mpr fun line hline hmem => by
      simpa [isPlainLine, hmem] using isPlainLine_of_mem_linesAfterImports unit name line hline
  rw [unitLines, List.filter_append, List.filter_append, hpackage, himports, hbehind]
  simp

/-- All other lines of a unit declare nothing. -/
theorem filter_isPlainLine_unitLines : (unitLines unit name).filter isPlainLine =
    unit.package?.toList.map (fun _ => []) ++ linesAfterImports unit name := by
  have hpackage : (unit.package?.toList.flatMap fun line => [line, []]).filter isPlainLine =
      unit.package?.toList.map fun _ => [] := by
    cases hunit : unit.package? with
    | none => rfl
    | some line =>
      have hline : isPlainLine line = false := by
        simp [isPlainLine, isPackageLine_of_isPackage (h.package? line hunit)]
      simpa [List.filter_cons, hline] using (by decide : isPlainLine [] = true)
  have himports : unit.imports.filter isPlainLine = [] :=
    List.filter_eq_nil_iff.mpr fun line hline => by
      simp [isPlainLine, isImportLine_of_isImport (h.imports line hline)]
  have hbehind : (linesAfterImports unit name).filter isPlainLine = linesAfterImports unit name :=
    List.filter_eq_self.mpr (isPlainLine_of_mem_linesAfterImports unit name)
  rw [unitLines, List.filter_append, List.filter_append, hpackage, himports, hbehind,
    List.nil_append]

end Declared

/-! ### One pass -/

/-- No line of a unit is dropped at its end. -/
theorem sourceLines_preprocess (hname : '\n' ∉ name.toList) (source : String) :
    sourceLines (Preprocessor.standard.preprocess source name).toList =
      unitLines (.ofText source) name := by
  have hsplit := split_preprocess_ofText hname source
  have hlast : (unitLines (.ofText source) name).getLast? = some ['}'] := by
    rw [unitLines, linesAfterImports, ← List.cons_append, ← List.append_assoc, ← List.append_assoc,
      ← List.append_assoc, List.getLast?_concat]
  refine sourceLines_eq 0 ?_ (hsplit.trans (List.append_nil _).symm) (by simp [hlast])
  intro hempty
  rw [hempty, split_nil] at hsplit
  simp [← hsplit] at hlast

section Preprocess

variable (hname : '\n' ∉ name.toList) (source : String)
include hname

/-- The package declaration of a unit is found again. -/
theorem package?_ofText_preprocess :
    (CompilationUnit.ofText (Preprocessor.standard.preprocess source name)).package? =
      (CompilationUnit.ofText source).package? := by
  have h := CompilationUnit.isDeclared_ofText source
  rw [CompilationUnit.ofText, CompilationUnit.package?_ofLines, sourceLines_preprocess hname,
    ← List.head?_filter, filter_isPackageLine_unitLines name h]
  cases hunit : (CompilationUnit.ofText source).package? with
  | none => rfl
  | some line =>
    exact congrArg some (isFramed_of_isPackage (h.package? line hunit)).dropReturn_eq_self

/-- The imports of a unit are found again, and no others. -/
theorem imports_ofText_preprocess :
    (CompilationUnit.ofText (Preprocessor.standard.preprocess source name)).imports =
      (CompilationUnit.ofText source).imports := by
  have h := CompilationUnit.isDeclared_ofText source
  rw [CompilationUnit.ofText, CompilationUnit.imports_ofLines, sourceLines_preprocess hname,
    filter_isImportLine_unitLines name h]
  refine (List.map_congr_left fun line hline => ?_).trans (List.map_id _)
  exact (isFramed_of_isImport (h.imports line hline)).dropReturn_eq_self

end Preprocess

/-- The lines of a unit besides its package declaration and its imports. From its class on these are
all lines. -/
def linesBesides (text : String) : List (List Char) :=
  (linesAbove text).filter isPlainLine ++ linesFrom text

/-- The line is an import of the runtime behind any number of tabs. -/
def isRuntimeImport (line : List Char) : Bool :=
  line.dropWhile (· = '\t') = Preprocessor.standard.implicitImport.toList

/-- The number of imports of the runtime in a text. -/
def runtimeImports (text : String) : Nat :=
  (split '\n' text.toList).countP isRuntimeImport

/-- A unit whose sketch is another unit. -/
structure IsRewrapped (name text next : String) : Prop where
  /-- The package declaration and the imports are those of the other unit. -/
  above : linesAbove next = linesAbove text
  /-- The class has all other lines of the other unit in order, each behind a tab. -/
  below : linesFrom next =
    Preprocessor.standard.opening name :: ((linesBesides text).map ('\t' :: ·) ++ [['}']])
  /-- There is one more import of the runtime. -/
  runtimeImports : runtimeImports next = runtimeImports text + 1

theorem eq_of_isRuntimeImport (h : isRuntimeImport line = true) (htab : ¬ ['\t'] <+: line) :
    line = Preprocessor.standard.implicitImport.toList := by
  rw [isRuntimeImport, decide_eq_true_iff] at h
  cases line with
  | nil => cases h
  | cons c rest =>
    rwa [List.dropWhile_cons_of_neg (by simpa using Ne.symm (by simpa using htab))] at h

/-- The import of the runtime is not an import declaration, for its name has an asterisk. -/
theorem isPlainLine_of_isRuntimeImport (h : isRuntimeImport line = true) :
    isPlainLine line = true := by
  by_cases htab : ['\t'] <+: line
  · obtain ⟨rest, rfl⟩ := htab
    exact isPlainLine_tab rest
  · rw [eq_of_isRuntimeImport h htab]
    decide

theorem countP_isRuntimeImport_filter (lines : List (List Char)) :
    (lines.filter isPlainLine).countP isRuntimeImport = lines.countP isRuntimeImport := by
  rw [List.countP_filter]
  refine List.countP_congr fun line _ => ?_
  simpa using isPlainLine_of_isRuntimeImport

/-- The lines that are dropped at the end of a sketch import nothing. -/
theorem countP_isRuntimeImport_sourceLines (source : String) :
    (sourceLines source.toList).countP isRuntimeImport = runtimeImports source := by
  rw [runtimeImports]
  rcases eq_or_ne source.toList [] with hempty | hne
  · rw [hempty]
    rfl
  · obtain ⟨count, hsplit⟩ := exists_split_eq hne
    have hnone : (List.replicate count []).countP isRuntimeImport = 0 :=
      List.countP_eq_zero.mpr fun line hline => by
        rw [List.eq_of_mem_replicate hline]
        decide
    rw [hsplit, List.countP_append, hnone, Nat.add_zero]

theorem isRuntimeImport_opening (name : String) :
    isRuntimeImport (Preprocessor.standard.opening name) = false := by
  have hbegins := isPrefix_opening name
  refine Bool.eq_false_iff.mpr fun h => ?_
  have himport := eq_of_isRuntimeImport h
    (not_isPrefix_of_isPrefix hbegins (by decide) (by decide))
  rw [himport] at hbegins
  exact absurd hbegins (by decide)

/-- Every pass adds one import of the runtime. -/
theorem runtimeImports_preprocess (hname : '\n' ∉ name.toList) (source : String) :
    runtimeImports (Preprocessor.standard.preprocess source name) = runtimeImports source + 1 := by
  have hempty : ((CompilationUnit.ofText source).package?.toList.map fun _ => []).countP
      isRuntimeImport = 0 :=
    List.countP_eq_zero.mpr (List.forall_mem_map.mpr fun _ _ => by decide)
  have hadded : [Preprocessor.standard.implicitImport.toList, []].countP isRuntimeImport = 1 := by
    decide
  have hbody : ((CompilationUnit.ofText source).body.map ('\t' :: ·)).countP isRuntimeImport =
      runtimeImports source := by
    rw [List.countP_map, CompilationUnit.ofText, CompilationUnit.body_ofLines,
      ← countP_isRuntimeImport_sourceLines, ← countP_isRuntimeImport_filter (sourceLines _)]
    exact List.countP_congr fun line _ => Iff.rfl
  have hopening : ¬ isRuntimeImport (Preprocessor.standard.opening name) = true := by
    simp [isRuntimeImport_opening]
  have hbrace : [['}']].countP isRuntimeImport = 0 := by decide
  rw [runtimeImports, split_preprocess_ofText hname, ← countP_isRuntimeImport_filter,
    filter_isPlainLine_unitLines name (CompilationUnit.isDeclared_ofText source), linesAfterImports,
    List.countP_append, List.countP_append, List.countP_cons_of_neg hopening, List.countP_append,
    hempty, hadded, hbody, hbrace]
  omega

/-- The body of the unit of a unit has all lines of the unit that declare nothing. -/
theorem body_ofText_preprocess (hname : '\n' ∉ name.toList) (source : String) :
    (CompilationUnit.ofText (Preprocessor.standard.preprocess source name)).body =
      linesBesides (Preprocessor.standard.preprocess source name) := by
  have hclass : ∀ line ∈ linesFrom (Preprocessor.standard.preprocess source name),
      isPlainLine line = true := by
    rw [Preprocessor.linesFrom_preprocess hname (by decide) (by decide) (by decide)]
    intro line hline
    exact isPlainLine_of_mem_linesAfterImports (.ofText source) name line
      (List.mem_append_right _ hline)
  have hparts : split '\n' (Preprocessor.standard.preprocess source name).toList =
      linesAbove (Preprocessor.standard.preprocess source name) ++
        linesFrom (Preprocessor.standard.preprocess source name) :=
    List.takeWhile_append_dropWhile.symm
  rw [CompilationUnit.ofText, CompilationUnit.body_ofLines, sourceLines_preprocess hname,
    ← split_preprocess_ofText hname, hparts, List.filter_append, List.filter_eq_self.mpr hclass,
    linesBesides]

/-- A pass over a unit. -/
theorem isRewrapped_preprocess (hname : '\n' ∉ name.toList) (source : String) :
    IsRewrapped name (Preprocessor.standard.preprocess source name)
      (Preprocessor.standard.preprocess (Preprocessor.standard.preprocess source name) name) := by
  constructor
  case above =>
    rw [Preprocessor.linesAbove_preprocess hname (by decide) (by decide) (by decide),
      Preprocessor.linesAbove_preprocess hname (by decide) (by decide) (by decide),
      Preprocessor.header, package?_ofText_preprocess hname, imports_ofText_preprocess hname,
      Preprocessor.header]
  case below =>
    rw [Preprocessor.linesFrom_preprocess hname (by decide) (by decide) (by decide),
      body_ofText_preprocess hname]
  case runtimeImports => exact runtimeImports_preprocess hname _

/-! ### All passes -/

/-- The text after some passes. -/
def passes (name : String) : Nat → String → String
  | 0, source => source
  | count + 1, source => Preprocessor.standard.preprocess (passes name count source) name

/-- What is in the class of a unit stays in the class of a unit made of it. -/
theorem IsRewrapped.isInfix {text next : String} (h : IsRewrapped name text next) :
    (linesFrom text).map ('\t' :: ·) <:+: linesFrom next := by
  rw [h.below, linesBesides, List.map_append]
  exact ⟨Preprocessor.standard.opening name :: ((linesAbove text).filter isPlainLine).map ('\t' :: ·),
    [['}']], by simp⟩

/-- Each of the units that passes make of a sketch is in the class of the next one. -/
structure AreNested (name source : String) : Prop where
  /-- Every unit has the header of the first one. -/
  above : ∀ count, linesAbove (passes name (count + 1) source) =
    Preprocessor.standard.header (.ofText source)
  /-- Every unit but the first one is made of the one before. -/
  step : ∀ count,
    IsRewrapped name (passes name (count + 1) source) (passes name (count + 2) source)
  /-- The class of a unit remains in the classes of all later ones, and moves to the right. -/
  kept : ∀ count further,
    (linesFrom (passes name (count + 1) source)).map (List.replicate further '\t' ++ ·) <:+:
      linesFrom (passes name (count + 1 + further) source)
  /-- There is one import of the runtime for each pass. -/
  runtimeImports : ∀ count,
    runtimeImports (passes name count source) = runtimeImports source + count

/-- Passes hoist nothing but the declarations of the sketch. -/
theorem areNested (hname : '\n' ∉ name.toList) (source : String) : AreNested name source := by
  have hstep : ∀ count,
      IsRewrapped name (passes name (count + 1) source) (passes name (count + 2) source) :=
    fun count => isRewrapped_preprocess hname (passes name count source)
  constructor
  case step => exact hstep
  case above =>
    intro count
    induction count with
    | zero => exact Preprocessor.linesAbove_preprocess hname (by decide) (by decide) (by decide) source
    | succ count ih => exact (hstep count).above.trans ih
  case kept =>
    intro count further
    induction further with
    | zero => simp
    | succ further ih =>
      have hmove : (linesFrom (passes name (count + 1) source)).map
          (List.replicate (further + 1) '\t' ++ ·) =
            ((linesFrom (passes name (count + 1) source)).map (List.replicate further '\t' ++ ·)).map
              ('\t' :: ·) := by
        rw [List.map_map]
        exact List.map_congr_left fun line _ => by rw [List.replicate_succ]; rfl
      rw [hmove]
      refine (ih.map _).trans ?_
      have hnext := (hstep (count + further)).isInfix
      rwa [(by omega : count + further + 1 = count + 1 + further),
        (by omega : count + further + 2 = count + 1 + (further + 1))] at hnext
  case runtimeImports =>
    intro count
    induction count with
    | zero => rfl
    | succ count ih => rw [passes, runtimeImports_preprocess hname, ih, Nat.add_assoc]

/-- The import of this sketch is hoisted in every pass. -/
theorem areNested_sample : '\n' ∉ "Main".toList ∧ AreNested "Main" "import a.B;\nint x;\n" :=
  ⟨by decide, areNested (by decide) _⟩

example : passes "Main" 2 "import a.B;\nint x;\n" =
    "import a.B;\nimport processing.core.*;\n\npublic class Main extends PApplet \x7b\n" ++
      "\timport processing.core.*;\n\t\n\tpublic class Main extends PApplet \x7b\n" ++
      "\t\tint x;\n\t\x7d\n\x7d" := by
  decide +kernel

end SketchApk.Sketch
