import SketchApk.Project.Prepare
import SketchApk.Proofs.Sketch.Unit

/-!
# The package of a unit

A source declares its package at its beginning, and the name ends at the first semicolon. The unit of
a sketch that declares packages begins with the first of these declarations. The unit of a sketch
that declares none is given the package of the application.

## Main definitions

* `Sketch.declaredPackage?` : the package that is declared at the beginning of a text.
* `Sketch.ownPackage?` : the first package that a sketch declares.

## Main statements

* `Sketch.declaredPackage?_append` : what follows the semicolon does not matter.
* `Project.declaredPackage?_unitOf` : the package of a unit.
-/

namespace SketchApk

namespace Sketch

open Text

/-- The package that is declared at the beginning of a text. -/
def declaredPackage? (text : List Char) : Option (List Char) :=
  ((afterWord? "package".toList text).bind afterBlanks?).map fun rest =>
    trimEnd (rest.takeWhile (· ≠ ';'))

/-- The package that a sketch declares on the first line that is a package declaration. -/
def ownPackage? (text : String) : Option (List Char) :=
  ((split '\n' text.toList).find? isPackageLine).bind declaredPackage?

variable {front rest word line : List Char}

theorem dropWhile_append_cons {p : Char → Bool} {c : Char} (hc : p c = false) (front rest : List Char) :
    (front ++ c :: rest).dropWhile p = front.dropWhile p ++ c :: rest := by
  induction front with
  | nil => exact List.dropWhile_cons_of_neg (by simp [hc])
  | cons first front ih =>
    rw [List.cons_append, List.dropWhile_cons, List.dropWhile_cons, ih]
    split <;> rfl

theorem takeWhile_append_cons {p : Char → Bool} {c : Char} (hc : p c = false) (front rest : List Char) :
    (front ++ c :: rest).takeWhile p = front.takeWhile p := by
  induction front with
  | nil => exact List.takeWhile_cons_of_neg (by simp [hc])
  | cons first front ih => rw [List.cons_append, List.takeWhile_cons, List.takeWhile_cons, ih]

theorem afterWord?_append_cons {c : Char} (hc : c ∉ word) (front rest : List Char) :
    afterWord? word (front ++ c :: rest) = (afterWord? word front).map (· ++ c :: rest) := by
  have hsame : word.isPrefixOf (front ++ c :: rest) = word.isPrefixOf front := by
    rw [Bool.eq_iff_iff, List.isPrefixOf_iff_prefix, List.isPrefixOf_iff_prefix]
    refine ⟨fun hword => ?_, fun hword => hword.trans (List.prefix_append _ _)⟩
    rcases List.prefix_or_prefix_of_prefix hword (List.prefix_append front _) with
      hfront | ⟨behind, rfl⟩
    · exact hfront
    · cases behind with
      | nil => simp
      | cons other behind =>
        rw [List.prefix_append_right_inj] at hword
        obtain ⟨rfl, -⟩ := List.cons_prefix_cons.mp hword
        exact absurd (List.mem_append_right _ List.mem_cons_self) hc
  rw [afterWord?, afterWord?, hsame]
  split
  · rename_i hword
    rw [Option.map_some, List.drop_append_of_le_length
      (List.isPrefixOf_iff_prefix.mp hword).length_le]
  · rfl

theorem afterBlanks?_append_cons {c : Char} (hc : isBlank c = false) (front rest : List Char) :
    afterBlanks? (front ++ c :: rest) = (afterBlanks? front).map (· ++ c :: rest) := by
  cases front with
  | nil => rw [List.nil_append, afterBlanks?, if_neg (by simp [hc])]; rfl
  | cons first front =>
    rw [List.cons_append, afterBlanks?, afterBlanks?, dropWhile_append_cons hc]
    split <;> rfl

/-- What follows the semicolon of a package declaration does not matter. -/
theorem declaredPackage?_append (front rest : List Char) :
    declaredPackage? (front ++ ';' :: rest) = declaredPackage? front := by
  rw [declaredPackage?, declaredPackage?, afterWord?_append_cons (by decide), Option.bind_map]
  cases afterWord? "package".toList front with
  | none => rfl
  | some behind =>
    rw [Option.bind_some, Option.bind_some, Function.comp_apply,
      afterBlanks?_append_cons (by decide), Option.map_map]
    congr 1
    funext name
    rw [Function.comp_apply, takeWhile_append_cons (by decide)]

/-- A name without blanks at its ends is declared as it is. -/
theorem declaredPackage?_of_trim_eq_self {name : String} (hname : ';' ∉ name.toList)
    (htrim : trim name.toList = name.toList) :
    declaredPackage? ("package " ++ name).toList = some name.toList := by
  obtain ⟨hstart, hend⟩ := trim_eq_self_iff.mp htrim
  have hword : afterWord? "package".toList ("package " ++ name).toList = some (' ' :: name.toList) := by
    rw [String.toList_append]
    rfl
  have hall : name.toList.takeWhile (· ≠ ';') = name.toList :=
    List.takeWhile_eq_self_iff.mpr fun c hc => decide_eq_true (ne_of_mem_of_not_mem hc hname)
  rw [declaredPackage?, hword, Option.bind_some, afterBlanks?, if_pos (by decide),
    dropWhile_eq_self_iff.mpr hstart, Option.map_some, hall, trimEnd_eq_self_iff.mpr hend]

/-- A package line declares a package, and the carriage return at its end does not matter. -/
theorem exists_of_isPackageLine (h : isPackageLine line = true) :
    ∃ front name, dropReturn line = front ++ [';'] ∧ declaredPackage? front = some name ∧
      declaredPackage? line = some name := by
  obtain ⟨front, hfront⟩ := (isFramed_of_isPackage h).2
  have hsame : declaredPackage? line = declaredPackage? front := by
    rcases eq_dropReturn_or line with hline | hline
    · rw [hline, ← hfront, declaredPackage?_append]
    · rw [hline, ← hfront, List.append_assoc, List.singleton_append, declaredPackage?_append]
  have hsome : (declaredPackage? (dropReturn line)).isSome = true := by
    rw [isPackageLine, isPackage] at h
    split at h
    · cases h
    · rename_i rest hrest
      rw [declaredPackage?, hrest]
      rfl
  rw [← hfront, declaredPackage?_append] at hsome
  obtain ⟨name, hname⟩ := Option.isSome_iff_exists.mp hsome
  exact ⟨front, name, hfront.symm, hname, hsame.trans hname⟩

/-- Empty pieces at the end of a sketch declare nothing. -/
theorem find?_isPackageLine_sourceLines (source : List Char) :
    (sourceLines source).find? isPackageLine = (split '\n' source).find? isPackageLine := by
  rcases eq_or_ne source [] with rfl | hne
  · rfl
  · obtain ⟨count, hsplit⟩ := exists_split_eq hne
    have hempty : (List.replicate count []).find? isPackageLine = none :=
      List.find?_eq_none.mpr fun piece hpiece => by
        rw [List.eq_of_mem_replicate hpiece]
        decide
    rw [hsplit, List.find?_append, hempty, Option.or_none]

end Sketch

namespace Project

open Sketch Text

/-- A unit belongs to the first package that its sketch declares, or to that of the application. -/
theorem declaredPackage?_unitOf (appPackage : String) (source : Source) :
    declaredPackage? (unitOf appPackage source).toList =
      (ownPackage? source.text).or (declaredPackage? ("package " ++ appPackage).toList) := by
  have hlines : ";\n\n" = ";" ++ "\n\n" := by decide
  have hsemicolon : ";".toList = [';'] := by decide
  cases hfirst : (split '\n' source.text.toList).find? isPackageLine with
  | none =>
    have hnone : declaresPackage source.text = false := by
      rw [declaresPackage, List.any_eq_false]
      exact fun line hline => List.find?_eq_none.mp hfirst line hline
    rw [ownPackage?, hfirst, unitOf, hnone, if_neg Bool.false_ne_true, hlines, Option.bind_none,
      Option.none_or]
    simp only [String.toList_append, List.append_assoc, hsemicolon]
    rw [← List.append_assoc]
    exact declaredPackage?_append _ _
  | some line =>
    have hdeclares : declaresPackage source.text = true := by
      rw [declaresPackage, List.any_eq_true]
      exact ⟨line, List.mem_of_find?_eq_some hfirst, List.find?_some hfirst⟩
    obtain ⟨front, name, hdrop, hname, hline⟩ := exists_of_isPackageLine (List.find?_some hfirst)
    have hpackage : (CompilationUnit.ofLines (sourceLines source.text.toList)).package? =
        some (front ++ [';']) := by
      rw [CompilationUnit.package?_ofLines, find?_isPackageLine_sourceLines, hfirst, Option.map_some,
        hdrop]
    rw [ownPackage?, hfirst, unitOf, hdeclares, if_pos rfl, Option.bind_some, hline, Option.some_or,
      Preprocessor.unitText, Preprocessor.preprocess, String.toList_ofList, Preprocessor.render,
      hpackage]
    simp only [List.append_assoc]
    exact (declaredPackage?_append front _).trans hname

end Project

end SketchApk
