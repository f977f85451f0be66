import SketchApk.Proofs.Sketch.Declaration
import SketchApk.Sketch.Unit

/-!
# Lines of compilation units

The unit of a sketch is taken apart again. Its text is split at newlines and cut in front of the
first line that begins like a class. Above the cut are the declarations of the sketch, below it is
the class with all other lines, so each line of the sketch is found in one place, and only package
declarations after the first are lost.

## Main definitions

* `Sketch.CompilationUnit.ofText` : the unit of a sketch.
* `Sketch.opensClass` : the test for a line that begins like a class.
* `Sketch.linesAbove`, `Sketch.linesFrom` : the two parts of a text.
* `Sketch.Preprocessor.IsFaithful` : a unit that keeps the lines of its sketch.

## Main statements

* `Sketch.sourceLines_eq` : the lines of a sketch, given by its pieces.
* `Sketch.Preprocessor.split_render` : the lines of a unit.
* `Sketch.Preprocessor.linesAbove_preprocess`, `Sketch.Preprocessor.linesFrom_preprocess` : the two
  parts of a unit.
* `Sketch.Preprocessor.isFaithful` : units keep the lines of their sketches.
-/

namespace SketchApk.Sketch

open Text

/-! ### Lines of a sketch -/

/-- Empty pieces at the end of a sketch are no lines of it. -/
theorem exists_split_eq {source : List Char} (h : source ≠ []) :
    ∃ count, split '\n' source = sourceLines source ++ List.replicate count [] := by
  have hempty : ((split '\n' source).reverse.takeWhile List.isEmpty).reverse =
      List.replicate ((split '\n' source).reverse.takeWhile List.isEmpty).length [] := by
    refine List.eq_replicate_iff.mpr ⟨List.length_reverse, fun piece hpiece => ?_⟩
    exact List.isEmpty_iff.mp (List.mem_takeWhile_imp (List.mem_reverse.mp hpiece))
  refine ⟨((split '\n' source).reverse.takeWhile List.isEmpty).length, ?_⟩
  rw [← hempty, sourceLines, if_neg h, ← List.reverse_append, List.takeWhile_append_dropWhile,
    List.reverse_reverse]

/-- The lines of a sketch are its pieces up to the last one that is not empty. -/
theorem sourceLines_eq (count : Nat) {source : List Char} {lines : List (List Char)}
    (h : source ≠ [])
    (hsplit : split '\n' source = lines ++ List.replicate count [])
    (hlast : lines.getLast? ≠ some []) : sourceLines source = lines := by
  have hkeep : lines.reverse.dropWhile List.isEmpty = lines.reverse := by
    rw [← List.head?_reverse] at hlast
    cases hlines : lines.reverse with
    | nil => rfl
    | cons last rest =>
      rw [hlines] at hlast
      exact List.dropWhile_cons_of_neg (by simpa using hlast)
  rw [sourceLines, if_neg h, hsplit, List.reverse_append, List.reverse_replicate,
    List.dropWhile_append_of_pos (by simp), hkeep, List.reverse_reverse]

theorem sourceLines_subset (source : List Char) : sourceLines source ⊆ split '\n' source := by
  rcases eq_or_ne source [] with rfl | hsource
  · exact List.Subset.refl _
  · obtain ⟨count, hsplit⟩ := exists_split_eq hsource
    rw [hsplit]
    exact List.subset_append_left _ _

theorem not_mem_of_mem_sourceLines {source line : List Char} (h : line ∈ sourceLines source) :
    '\n' ∉ line :=
  not_mem_of_mem_split (sourceLines_subset source h)

/-- The last line of a sketch is not empty. -/
theorem getLast?_sourceLines_ne {source : List Char} (h : source ≠ []) :
    (sourceLines source).getLast? ≠ some [] := by
  rw [sourceLines, if_neg h, List.getLast?_reverse]
  intro hlast
  have hhead := List.head?_dropWhile_not List.isEmpty (split '\n' source).reverse
  rw [hlast] at hhead
  cases hhead

/-- Newlines behind a sketch add no lines. -/
theorem sourceLines_append_replicate {source : List Char} (h : source ≠ []) (count : Nat) :
    sourceLines (source ++ List.replicate count '\n') = sourceLines source := by
  have hne : source ++ List.replicate count '\n' ≠ [] := List.append_ne_nil_of_left_ne_nil h _
  rw [sourceLines, if_neg hne, sourceLines, if_neg h, split_append_replicate, List.reverse_append,
    List.reverse_replicate, List.dropWhile_append_of_pos]
  simp

/-! ### Kinds of lines -/

/-- A line of a sketch that declares nothing. -/
def isPlainLine (line : List Char) : Bool :=
  !isPackageLine line && !isImportLine line

/-- Every line is of one kind. -/
theorem perm_filter (lines : List (List Char)) :
    lines.Perm (lines.filter isPackageLine ++
      (lines.filter isImportLine ++ lines.filter isPlainLine)) := by
  have himports : (lines.filter (!isPackageLine ·)).filter isImportLine =
      lines.filter isImportLine := by
    rw [List.filter_filter]
    refine List.filter_congr fun line _ => ?_
    cases himport : isImportLine line with
    | false => rfl
    | true => rw [isPackageLine_of_isImportLine himport]; rfl
  have hplain : (lines.filter (!isPackageLine ·)).filter (!isImportLine ·) =
      lines.filter isPlainLine := by
    rw [List.filter_filter]
    exact List.filter_congr fun line _ => Bool.and_comm _ _
  have hrest := List.filter_append_perm isImportLine (lines.filter (!isPackageLine ·))
  rw [himports, hplain] at hrest
  exact (List.filter_append_perm isPackageLine lines).symm.trans (hrest.symm.append_left _)

/-- The package declarations of a sketch are the first one and the later ones. -/
theorem filter_isPackageLine (lines : List (List Char)) :
    lines.filter isPackageLine =
      (lines.find? isPackageLine).toList ++ (lines.filter isPackageLine).tail := by
  rw [← List.head?_filter]
  cases lines.filter isPackageLine <;> rfl

namespace CompilationUnit

/-- The body of a unit has the lines that declare nothing. -/
theorem body_ofLines (lines : List (List Char)) : (ofLines lines).body = lines.filter isPlainLine := by
  refine List.filter_congr fun line hline => ?_
  cases hpackage : isPackageLine line with
  | false => simp [isPlainLine, hpackage]
  | true =>
    have hfirst : (lines.find? isPackageLine).isSome = true :=
      List.find?_isSome.mpr ⟨line, hline, hpackage⟩
    simp [isPlainLine, hpackage, hfirst]

theorem imports_ofLines (lines : List (List Char)) :
    (ofLines lines).imports = (lines.filter isImportLine).map dropReturn :=
  List.map_congr_left fun _ hline => trim_of_isImportLine (List.mem_filter.mp hline).2

theorem package?_ofLines (lines : List (List Char)) :
    (ofLines lines).package? = (lines.find? isPackageLine).map dropReturn := by
  rw [ofLines]
  cases hfirst : lines.find? isPackageLine with
  | none => rfl
  | some line => exact congrArg some (trim_of_isPackageLine (List.find?_some hfirst))

/-- The unit of a sketch. -/
def ofText (source : String) : CompilationUnit :=
  .ofLines (sourceLines source.toList)

end CompilationUnit

/-! ### Lines of a unit -/

/-- The line begins like a class. -/
def opensClass (line : List Char) : Bool :=
  "public class ".toList.isPrefixOf line

/-- The lines of a text above its first class. -/
def linesAbove (text : String) : List (List Char) :=
  (split '\n' text.toList).takeWhile fun line => !opensClass line

/-- The lines of a text from its first class on. -/
def linesFrom (text : String) : List (List Char) :=
  (split '\n' text.toList).dropWhile fun line => !opensClass line

theorem opensClass_of_isImportLine {line : List Char} (h : isImportLine line = true) :
    opensClass (dropReturn line) = false := by
  rw [Bool.eq_false_iff, opensClass, ne_eq, List.isPrefixOf_iff_prefix]
  exact not_isPrefix_of_isPrefix (isFramed_of_isImport h).1 (by decide) (by decide)

theorem opensClass_of_isPackageLine {line : List Char} (h : isPackageLine line = true) :
    opensClass (dropReturn line) = false := by
  rw [Bool.eq_false_iff, opensClass, ne_eq, List.isPrefixOf_iff_prefix]
  exact not_isPrefix_of_isPrefix (isFramed_of_isPackage h).1 (by decide) (by decide)

namespace Preprocessor

variable (preprocessor : Preprocessor)

/-- The lines of a unit above its class. -/
def header (unit : CompilationUnit) : List (List Char) :=
  (unit.package?.toList.flatMap fun package => [package, []]) ++ unit.imports ++
    [preprocessor.implicitImport.toList, []]

/-- The line with which the class of a unit begins. -/
def opening (name : String) : List Char :=
  "public class ".toList ++ name.toList ++ " extends ".toList ++ preprocessor.baseClass.toList ++
    [' ', '\x7b']

/-- A unit consists of lines and a closing brace. -/
theorem render_eq (unit : CompilationUnit) (name : String) :
    preprocessor.render unit name =
      (preprocessor.header unit ++ preprocessor.opening name ::
        unit.body.map ('\t' :: ·)).flatMap (· ++ ['\n']) ++ ['}'] := by
  unfold render header opening
  cases unit.package? <;> simp [List.flatMap_map]

variable {preprocessor} {source name : String}

/-- The lines of a unit. -/
theorem split_render {unit : CompilationUnit}
    (hheader : ∀ line ∈ preprocessor.header unit, '\n' ∉ line)
    (hopening : '\n' ∉ preprocessor.opening name) (hbody : ∀ line ∈ unit.body, '\n' ∉ line) :
    split '\n' (preprocessor.render unit name) =
      preprocessor.header unit ++ preprocessor.opening name ::
        (unit.body.map ('\t' :: ·) ++ [['}']]) := by
  have hlines : ∀ line ∈ preprocessor.header unit ++ preprocessor.opening name ::
      unit.body.map ('\t' :: ·), '\n' ∉ line := by
    intro line hline
    rcases List.mem_append.mp hline with hline | hline
    · exact hheader line hline
    · rcases List.mem_cons.mp hline with rfl | hline
      · exact hopening
      · obtain ⟨other, hother, rfl⟩ := List.mem_map.mp hline
        simpa using hbody other hother
  rw [render_eq, split_flatMap_append hlines, split_eq_singleton (by decide), List.append_assoc,
    List.cons_append]

/-- A unit keeps the lines of its sketch. -/
structure IsFaithful (preprocessor : Preprocessor) (source name : String)
    (lines : List (List Char)) : Prop where
  /-- The lines are those of the sketch, up to empty ones at its end. -/
  pieces : ∃ count, split '\n' source.toList = lines ++ List.replicate count []
  /-- No more lines can be dropped at the end of a sketch that is not empty. -/
  last : source ≠ "" → lines.getLast? ≠ some []
  /-- Above the class are the first package declaration, if any, and an empty line, the imports of
  the sketch in order, the implicit import, and an empty line. -/
  above : linesAbove (preprocessor.preprocess source name) =
    ((lines.find? isPackageLine).toList.flatMap fun line => [dropReturn line, []]) ++
      (lines.filter isImportLine).map dropReturn ++ [preprocessor.implicitImport.toList, []]
  /-- The class has the other lines in order, each behind a tab. -/
  below : linesFrom (preprocessor.preprocess source name) =
    preprocessor.opening name :: ((lines.filter isPlainLine).map ('\t' :: ·) ++ [['}']])
  /-- Each line has one place, except for later package declarations. -/
  places : lines.Perm ((lines.find? isPackageLine).toList ++ (lines.filter isPackageLine).tail ++
    (lines.filter isImportLine ++ lines.filter isPlainLine))
  /-- No line is an import and a package declaration. -/
  disjoint : ∀ line ∈ lines, isImportLine line = true → isPackageLine line = false
  /-- A declaration loses a carriage return at most. -/
  returns : ∀ line ∈ lines, line = dropReturn line ∨ line = dropReturn line ++ ['\r']
  /-- Newlines at the end of a sketch that is not empty make no difference. -/
  newlines : ∀ count, source ≠ "" →
    preprocessor.preprocess (source ++ String.ofList (List.replicate count '\n')) name =
      preprocessor.preprocess source name

/-- The lines of a header contain no newline. -/
theorem not_mem_of_mem_header (himport : '\n' ∉ preprocessor.implicitImport.toList)
    {lines : List (List Char)} (h : ∀ line ∈ lines, '\n' ∉ line) :
    ∀ line ∈ preprocessor.header (.ofLines lines), '\n' ∉ line := by
  have hdrop (line : List Char) (hline : line ∈ lines) : '\n' ∉ dropReturn line :=
    fun hmem => h line hline (dropReturn_subset line hmem)
  rw [header, CompilationUnit.package?_ofLines, CompilationUnit.imports_ofLines]
  intro line hline
  simp only [List.mem_append, List.mem_flatMap, Option.mem_toList, Option.map_eq_some_iff,
    List.mem_map, List.mem_cons, List.not_mem_nil, or_false] at hline
  rcases hline with (⟨_, ⟨first, hfirst, rfl⟩, rfl | rfl⟩ | ⟨other, hother, rfl⟩) | rfl | rfl
  · exact hdrop first (List.mem_of_find?_eq_some hfirst)
  · exact List.not_mem_nil
  · exact hdrop other (List.mem_filter.mp hother).1
  · exact himport
  · exact List.not_mem_nil

/-- No line of a header begins like a class. -/
theorem opensClass_of_mem_header (h : opensClass preprocessor.implicitImport.toList = false)
    (lines : List (List Char)) :
    ∀ line ∈ preprocessor.header (.ofLines lines), opensClass line = false := by
  rw [header, CompilationUnit.package?_ofLines, CompilationUnit.imports_ofLines]
  intro line hline
  simp only [List.mem_append, List.mem_flatMap, Option.mem_toList, Option.map_eq_some_iff,
    List.mem_map, List.mem_cons, List.not_mem_nil, or_false] at hline
  rcases hline with (⟨_, ⟨first, hfirst, rfl⟩, rfl | rfl⟩ | ⟨other, hother, rfl⟩) | rfl | rfl
  · exact opensClass_of_isPackageLine (List.find?_some hfirst)
  · rfl
  · exact opensClass_of_isImportLine (List.mem_filter.mp hother).2
  · exact h
  · rfl

theorem not_mem_opening (hname : '\n' ∉ name.toList) (hbase : '\n' ∉ preprocessor.baseClass.toList) :
    '\n' ∉ preprocessor.opening name := by
  unfold opening
  simp only [List.mem_append, not_or]
  exact ⟨⟨⟨⟨by decide, hname⟩, by decide⟩, hbase⟩, by decide⟩

theorem opensClass_opening : opensClass (preprocessor.opening name) = true := by
  rw [opensClass, List.isPrefixOf_iff_prefix]
  unfold opening
  simp only [List.append_assoc]
  exact List.prefix_append _ _

/-- The lines of a text that preprocessing yields. -/
theorem split_preprocess (hname : '\n' ∉ name.toList)
    (hbase : '\n' ∉ preprocessor.baseClass.toList)
    (himport : '\n' ∉ preprocessor.implicitImport.toList) (source : String) :
    split '\n' (preprocessor.preprocess source name).toList =
      preprocessor.header (.ofLines (sourceLines source.toList)) ++ preprocessor.opening name ::
        (((sourceLines source.toList).filter isPlainLine).map ('\t' :: ·) ++ [['}']]) := by
  have hlines : ∀ line ∈ sourceLines source.toList, '\n' ∉ line :=
    fun line => not_mem_of_mem_sourceLines
  rw [preprocess, String.toList_ofList, split_render (not_mem_of_mem_header himport hlines)
    (not_mem_opening hname hbase) (fun line hline => hlines line (List.mem_filter.mp hline).1),
    CompilationUnit.body_ofLines]

section Parts

variable (hname : '\n' ∉ name.toList) (hbase : '\n' ∉ preprocessor.baseClass.toList)
  (himport : '\n' ∉ preprocessor.implicitImport.toList)
  (hopens : opensClass preprocessor.implicitImport.toList = false) (source : String)
include hname hbase himport hopens

/-- Above the class of a unit is its header. -/
theorem linesAbove_preprocess : linesAbove (preprocessor.preprocess source name) =
    preprocessor.header (.ofText source) := by
  rw [linesAbove, split_preprocess hname hbase himport, List.takeWhile_append_of_pos (by
      simpa using opensClass_of_mem_header hopens (sourceLines source.toList)),
    List.takeWhile_cons_of_neg (by simp [opensClass_opening]), List.append_nil,
    CompilationUnit.ofText]

/-- The class of a unit has its body. -/
theorem linesFrom_preprocess : linesFrom (preprocessor.preprocess source name) =
    preprocessor.opening name :: ((CompilationUnit.ofText source).body.map ('\t' :: ·) ++
      [['}']]) := by
  rw [linesFrom, split_preprocess hname hbase himport, List.dropWhile_append_of_pos (by
      simpa using opensClass_of_mem_header hopens (sourceLines source.toList)),
    List.dropWhile_cons_of_neg (by simp [opensClass_opening]), CompilationUnit.ofText,
    CompilationUnit.body_ofLines]

end Parts

/-- Units keep the lines of their sketches. -/
theorem isFaithful (hname : '\n' ∉ name.toList) (hbase : '\n' ∉ preprocessor.baseClass.toList)
    (himport : '\n' ∉ preprocessor.implicitImport.toList)
    (hopens : opensClass preprocessor.implicitImport.toList = false) (source : String) :
    preprocessor.IsFaithful source name (sourceLines source.toList) := by
  have hsource (h : source ≠ "") : source.toList ≠ [] :=
    fun hempty => h (String.toList_eq_nil_iff.mp hempty)
  constructor
  case pieces =>
    rcases eq_or_ne source.toList [] with hempty | hne
    · exact ⟨0, by rw [hempty]; rfl⟩
    · exact exists_split_eq hne
  case last => exact fun h => getLast?_sourceLines_ne (hsource h)
  case above =>
    rw [linesAbove_preprocess hname hbase himport hopens, CompilationUnit.ofText, header,
      CompilationUnit.package?_ofLines, CompilationUnit.imports_ofLines]
    cases (sourceLines source.toList).find? isPackageLine <;> rfl
  case below =>
    rw [linesFrom_preprocess hname hbase himport hopens, CompilationUnit.ofText,
      CompilationUnit.body_ofLines]
  case places =>
    rw [← filter_isPackageLine]
    exact perm_filter _
  case disjoint => exact fun line _ => isPackageLine_of_isImportLine
  case returns => exact fun line _ => eq_dropReturn_or line
  case newlines =>
    intro count h
    rw [preprocess, preprocess, String.toList_append, String.toList_ofList,
      sourceLines_append_replicate (hsource h)]

/-- The standard preprocessor keeps the lines of a sketch with declarations and a method. -/
theorem isFaithful_standard :
    standard.IsFaithful "package a;\r\nimport b.C;\nvoid setup() \x7b\x7d\npackage d;\n\n" "Main"
      ["package a;\r".toList, "import b.C;".toList, "void setup() \x7b\x7d".toList,
        "package d;".toList] := by
  have hlines : sourceLines
      "package a;\r\nimport b.C;\nvoid setup() \x7b\x7d\npackage d;\n\n".toList =
        ["package a;\r".toList, "import b.C;".toList, "void setup() \x7b\x7d".toList,
          "package d;".toList] := by decide +kernel
  rw [← hlines]
  exact isFaithful (by decide) (by decide) (by decide) (by decide) _

end Preprocessor

/-! ### Lines behind the imports of a unit -/

/-- A line that does not begin with the words of declarations declares nothing. -/
theorem isPlainLine_of_not_isPrefix {line : List Char}
    (hpackage : ¬ "package".toList <+: line) (himport : ¬ "import".toList <+: line) :
    isPlainLine line = true := by
  rw [isPlainLine, isPackageLine_of_not_isPrefix hpackage, isImportLine_of_not_isPrefix himport]
  rfl

/-- The lines of a standard unit behind its package declaration and its imports. -/
def linesAfterImports (unit : CompilationUnit) (name : String) : List (List Char) :=
  [Preprocessor.standard.implicitImport.toList, []] ++ Preprocessor.standard.opening name ::
    (unit.body.map ('\t' :: ·) ++ [['}']])

theorem isPrefix_opening (name : String) :
    "public class ".toList <+: Preprocessor.standard.opening name :=
  List.isPrefixOf_iff_prefix.mp Preprocessor.opensClass_opening

theorem isPlainLine_opening (name : String) :
    isPlainLine (Preprocessor.standard.opening name) = true :=
  isPlainLine_of_not_isPrefix
    (not_isPrefix_of_isPrefix (isPrefix_opening name) (by decide) (by decide))
    (not_isPrefix_of_isPrefix (isPrefix_opening name) (by decide) (by decide))

theorem isPlainLine_tab (line : List Char) : isPlainLine ('\t' :: line) = true :=
  isPlainLine_of_not_isPrefix (by simp) (by simp)

theorem isPlainLine_of_mem_linesAfterImports (unit : CompilationUnit) (name : String) :
    ∀ line ∈ linesAfterImports unit name, isPlainLine line = true := by
  have hbody : ∀ line ∈ unit.body.map ('\t' :: ·), isPlainLine line = true :=
    List.forall_mem_map.mpr fun line _ => isPlainLine_tab line
  refine List.forall_mem_append.mpr ⟨by decide, List.forall_mem_cons.mpr ⟨isPlainLine_opening name, ?_⟩⟩
  exact List.forall_mem_append.mpr ⟨hbody, by decide⟩

end SketchApk.Sketch
