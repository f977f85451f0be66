import SketchApk.Proofs.Sketch.Unit
import SketchApk.Proofs.Text.Substitution

/-!
# Sketches with carriage returns

A sketch may have a carriage return in front of every newline. Its declarations are recognised as
they are without the carriage returns, and nothing is left of these in the header of the unit. The
body keeps them. At the end of a sketch empty lines are dropped, but a line that consists of a carriage
return is not empty, so a sketch with carriage returns keeps lines there that would be dropped without
them: all but the last one, which no newline follows.

## Main definitions

* `Text.addReturns` : pieces with a carriage return behind each but the last one.
* `Sketch.keptAtEnd` : the number of lines that carriage returns keep at the end of a sketch.
* `Sketch.SameButReturns` : two sketches whose units are the same but for carriage returns.

## Main statements

* `Sketch.map_dropReturn_sourceLines` : the lines of a sketch with carriage returns.
* `Sketch.sameButReturns` : carriage returns make no other difference.
-/

namespace SketchApk

namespace Text

/-- Pieces with a carriage return behind each but the last one. -/
def addReturns : List (List Char) → List (List Char)
  | [] => []
  | [last] => [last]
  | piece :: rest => (piece ++ ['\r']) :: addReturns rest

theorem addReturns_cons {pieces : List (List Char)} (piece : List Char) (h : pieces ≠ []) :
    addReturns (piece :: pieces) = (piece ++ ['\r']) :: addReturns pieces := by
  cases pieces with
  | nil => exact absurd rfl h
  | cons next rest => rfl

theorem addReturns_append {pieces : List (List Char)} (front : List (List Char)) (h : pieces ≠ []) :
    addReturns (front ++ pieces) = front.map (· ++ ['\r']) ++ addReturns pieces := by
  induction front with
  | nil => rfl
  | cons piece front ih =>
    rw [List.cons_append, addReturns_cons _ (List.append_ne_nil_of_right_ne_nil _ h), ih,
      List.map_cons, List.cons_append]

/-- The pieces of a text in which a carriage return has been put in front of every newline. -/
theorem split_withReturns (text : List Char) :
    split '\n' (substitute ['\n'] ['\r', '\n'] text) = addReturns (split '\n' text) := by
  rw [substitute_singleton]
  induction text with
  | nil => rfl
  | cons c rest ih =>
    rw [List.flatMap_cons]
    by_cases hc : c = '\n'
    · subst hc
      rw [if_pos rfl, split_cons_self, addReturns_cons _ (split_ne_nil _ _), ← ih]
      exact split_append_cons (by decide : '\n' ∉ ['\r']) _
    · rw [if_neg hc, List.singleton_append, split, if_neg hc, ih, split, if_neg hc]
      rcases hsplit : split '\n' rest with _ | ⟨first, _ | ⟨second, others⟩⟩
      · rfl
      · rfl
      · rfl

theorem dropReturn_concat (line : List Char) : dropReturn (line ++ ['\r']) = line := by
  rw [dropReturn, List.getLast?_concat, if_pos rfl, List.dropLast_concat]

theorem dropReturn_of_not_mem {line : List Char} (h : '\r' ∉ line) : dropReturn line = line :=
  if_neg fun hlast => h (List.mem_of_getLast? hlast)

end Text

namespace Sketch

open Text

variable {source : List Char}

/-- The number of newlines at the end of a text. -/
def newlinesAtEnd (text : List Char) : Nat :=
  (text.reverse.takeWhile (· = '\n')).length

/-- The number of lines that carriage returns keep at the end of a sketch. -/
def keptAtEnd (source : List Char) : Nat :=
  if source = [] then 0
  else if source.all (· = '\n') then newlinesAtEnd source
  else newlinesAtEnd source - 1

/-- A text is what stands in front of the newlines at its end, and these. -/
theorem exists_eq_append_newlines (text : List Char) : ∃ front,
    text = front ++ List.replicate (newlinesAtEnd text) '\n' ∧ front.getLast? ≠ some '\n' := by
  refine ⟨(text.reverse.dropWhile (· = '\n')).reverse, ?_, ?_⟩
  · have hnewlines : text.reverse.takeWhile (· = '\n') =
        List.replicate (newlinesAtEnd text) '\n' :=
      List.eq_replicate_iff.mpr ⟨rfl, fun c hc => by simpa using List.mem_takeWhile_imp hc⟩
    rw [← List.reverse_replicate, ← hnewlines, ← List.reverse_append,
      List.takeWhile_append_dropWhile, List.reverse_reverse]
  · rw [List.getLast?_reverse]
    intro hhead
    simpa [hhead] using List.head?_dropWhile_not (fun c => decide (c = '\n')) text.reverse

/-- The last piece of a text is empty only behind a newline. -/
theorem getLast?_split_ne {text : List Char} (h : text ≠ []) (hlast : text.getLast? ≠ some '\n') :
    (split '\n' text).getLast? ≠ some [] := by
  induction text with
  | nil => exact absurd rfl h
  | cons c rest ih =>
    obtain ⟨first, others, hsplit⟩ := List.exists_cons_of_ne_nil (split_ne_nil '\n' rest)
    by_cases hrest : rest = []
    · subst hrest
      have hc : c ≠ '\n' := by simpa using hlast
      rw [split_eq_singleton (by simpa using hc.symm)]
      simp
    · have hbehind : (first :: others).getLast? ≠ some [] := by
        rw [← hsplit]
        refine ih hrest ?_
        rwa [List.getLast?_cons, List.getLast?_eq_some_getLast hrest, Option.getD_some,
          ← List.getLast?_eq_some_getLast hrest] at hlast
      rw [split]
      split_ifs
      · rw [hsplit, List.getLast?_cons_cons]
        exact hbehind
      · rw [hsplit]
        cases others with
        | nil => simp
        | cons second others => simpa using hbehind

theorem map_dropReturn_addReturns {pieces : List (List Char)} (h : ∀ piece ∈ pieces, '\r' ∉ piece) :
    (addReturns pieces).map dropReturn = pieces := by
  fun_induction addReturns pieces with
  | case1 => rfl
  | case2 last => rw [List.map_singleton, dropReturn_of_not_mem (h last List.mem_cons_self)]
  | case3 piece rest hrest ih =>
    rw [List.map_cons, dropReturn_concat, ih fun other hother => h other (List.mem_cons_of_mem _ hother)]

theorem getLast?_addReturns (pieces : List (List Char)) :
    (addReturns pieces).getLast? = pieces.getLast? := by
  rcases List.eq_nil_or_concat' pieces with rfl | ⟨front, last, rfl⟩
  · rfl
  · rw [addReturns_append front (List.cons_ne_nil last []), addReturns, List.getLast?_concat,
      List.getLast?_concat]

theorem withReturns_ne_nil (h : source ≠ []) : substitute ['\n'] ['\r', '\n'] source ≠ [] := by
  obtain ⟨c, rest, rfl⟩ := List.exists_cons_of_ne_nil h
  rw [substitute_singleton, List.flatMap_cons]
  split_ifs <;> simp

/-- No line of a sketch with carriage returns is dropped if there is no newline at the end. -/
theorem sourceLines_withReturns (h : source ≠ []) (hlast : source.getLast? ≠ some '\n') :
    sourceLines (substitute ['\n'] ['\r', '\n'] source) = addReturns (split '\n' source) := by
  refine sourceLines_eq 0 (withReturns_ne_nil h) ?_ ?_
  · rw [split_withReturns, List.replicate_zero, List.append_nil]
  · rw [getLast?_addReturns]
    exact getLast?_split_ne h hlast

/-- One line of a sketch with carriage returns is dropped if there are newlines at the end. -/
theorem sourceLines_withReturns_concat (text : List Char) :
    sourceLines (substitute ['\n'] ['\r', '\n'] (text ++ ['\n'])) =
      (split '\n' text).map (· ++ ['\r']) := by
  refine sourceLines_eq 1 (withReturns_ne_nil (by simp)) ?_ ?_
  · rw [split_withReturns, split_append_separator, split_nil,
      addReturns_append _ (List.cons_ne_nil _ _)]
    rfl
  · rw [List.getLast?_map]
    simp

/-- The lines of a sketch with carriage returns are those of the sketch, and the empty ones that are
kept at its end. -/
theorem map_dropReturn_sourceLines (h : '\r' ∉ source) :
    (sourceLines (substitute ['\n'] ['\r', '\n'] source)).map dropReturn =
      sourceLines source ++ List.replicate (keptAtEnd source) [] := by
  obtain ⟨front, hsource, hlast⟩ := exists_eq_append_newlines source
  have hfront (hne : front ≠ []) : sourceLines front = split '\n' front :=
    sourceLines_eq 0 hne (List.append_nil _).symm (getLast?_split_ne hne hlast)
  rw [keptAtEnd]
  generalize newlinesAtEnd source = count at hsource
  subst hsource
  cases count with
  | zero =>
    rw [List.replicate_zero, List.append_nil] at h ⊢
    by_cases hne : front = []
    · subst hne
      rfl
    · have hpieces : ∀ piece ∈ split '\n' front, '\r' ∉ piece :=
        fun piece hpiece hmem => h (subset_of_mem_split hpiece hmem)
      rw [sourceLines_withReturns hne hlast, map_dropReturn_addReturns hpieces, hfront hne]
      simp
  | succ count =>
    have hmap : (split '\n' (front ++ List.replicate count '\n')).map
        (dropReturn ∘ (· ++ ['\r'])) = split '\n' front ++ List.replicate count [] := by
      rw [split_append_replicate]
      exact (List.map_congr_left fun line _ => dropReturn_concat line).trans (List.map_id _)
    rw [List.replicate_succ', ← List.append_assoc, sourceLines_withReturns_concat, List.map_map, hmap,
      List.append_assoc, ← List.replicate_succ', if_neg (by simp)]
    by_cases hne : front = []
    · subst hne
      have hnone : sourceLines (List.replicate (count + 1) '\n') = [] := by
        refine sourceLines_eq (count + 2) (by simp) ?_ (by simp)
        exact split_append_replicate '\n' [] (count + 1)
      rw [List.nil_append, hnone, if_pos (by simp), List.replicate_succ]
      rfl
    · have hall : (front ++ List.replicate (count + 1) '\n').all (· = '\n') = false := by
        obtain ⟨before, last, rfl⟩ := (List.eq_nil_or_concat' front).resolve_left hne
        have hne' : last ≠ '\n' := by simpa using hlast
        simp [hne']
      rw [sourceLines_append_replicate hne, hfront hne, hall, if_neg Bool.false_ne_true,
        Nat.add_sub_cancel]

/-! ### Parts of a unit -/

section Filter

variable {lines others : List (List Char)} {p q : List Char → Bool} {count : Nat}

/-- Lines that are told apart without their carriage returns. -/
theorem map_dropReturn_filter (hq : ∀ line, q line = p (dropReturn line))
    (h : lines.map dropReturn = others ++ List.replicate count [])
    (hothers : ∀ line ∈ others, '\r' ∉ line) :
    (lines.filter q).map dropReturn =
      others.filter q ++ (List.replicate count []).filter p := by
  have hsame : others.filter p = others.filter q := List.filter_congr fun line hline => by
    rw [hq, dropReturn_of_not_mem (hothers line hline)]
  obtain rfl : q = p ∘ dropReturn := funext hq
  rw [← List.filter_map, h, List.filter_append, hsame]

theorem map_dropReturn_find? (hq : ∀ line, q line = p (dropReturn line))
    (h : lines.map dropReturn = others ++ List.replicate count [])
    (hothers : ∀ line ∈ others, '\r' ∉ line) (hp : p [] = false) :
    (lines.find? q).map dropReturn = (others.find? q).map dropReturn := by
  rw [← List.head?_filter, ← List.head?_map, map_dropReturn_filter hq h hothers,
    List.filter_replicate_of_neg (by simp [hp]), List.append_nil, List.head?_filter]
  cases hfind : others.find? q with
  | none => rfl
  | some line =>
    rw [Option.map_some, dropReturn_of_not_mem (hothers line (List.mem_of_find?_eq_some hfind))]

end Filter

namespace Preprocessor

variable (preprocessor : Preprocessor)

/-- The text of a unit up to the line with which its class begins. -/
def head (unit : CompilationUnit) (name : String) : List Char :=
  (preprocessor.header unit).flatMap (· ++ ['\n']) ++ preprocessor.opening name

/-- The lines of a unit are those of its head, those of its body, and a closing brace. -/
theorem split_preprocess_eq_head (source name : String) :
    split '\n' (preprocessor.preprocess source name).toList =
      split '\n' (preprocessor.head (.ofText source) name) ++
        ((CompilationUnit.ofText source).body.map ('\t' :: ·) ++ [['}']]) := by
  have hbody : ∀ line ∈ (CompilationUnit.ofText source).body.map ('\t' :: ·), '\n' ∉ line := by
    refine List.forall_mem_map.mpr fun line hline => ?_
    rw [CompilationUnit.ofText, CompilationUnit.body_ofLines] at hline
    simpa using not_mem_of_mem_sourceLines (List.mem_filter.mp hline).1
  have htext : (preprocessor.preprocess source name).toList =
      preprocessor.head (.ofText source) name ++ '\n' ::
        (((CompilationUnit.ofText source).body.map ('\t' :: ·)).flatMap (· ++ ['\n']) ++ ['}']) := by
    rw [preprocess, String.toList_ofList, render_eq, head]
    simp [CompilationUnit.ofText]
  rw [htext, split_append_separator, split_flatMap_append hbody]
  rfl

end Preprocessor

/-- Two sketches whose units are the same but for carriage returns, and for some empty lines at the
end of the second one. -/
structure SameButReturns (preprocessor : Preprocessor) (name source other : String) (count : Nat) :
    Prop where
  package? : (CompilationUnit.ofText other).package? = (CompilationUnit.ofText source).package?
  imports : (CompilationUnit.ofText other).imports = (CompilationUnit.ofText source).imports
  body : (CompilationUnit.ofText other).body.map dropReturn =
    (CompilationUnit.ofText source).body ++ List.replicate count []
  /-- The text of the first unit. -/
  lines : split '\n' (preprocessor.preprocess source name).toList =
    split '\n' (preprocessor.head (.ofText source) name) ++
      ((CompilationUnit.ofText source).body.map ('\t' :: ·) ++ [['}']])
  /-- The text of the second unit has the same head. -/
  otherLines : split '\n' (preprocessor.preprocess other name).toList =
    split '\n' (preprocessor.head (.ofText source) name) ++
      ((CompilationUnit.ofText other).body.map ('\t' :: ·) ++ [['}']])

/-- A carriage return in front of every newline of a sketch makes no difference to the header of its
unit. It remains in the body, where it keeps lines at the end of the sketch. -/
theorem sameButReturns (preprocessor : Preprocessor) {source : String} (h : '\r' ∉ source.toList)
    (name : String) : SameButReturns preprocessor name source (substituted "\n" "\r\n" source)
      (keptAtEnd source.toList) := by
  have hlines : (sourceLines (substituted "\n" "\r\n" source).toList).map dropReturn =
      sourceLines source.toList ++ List.replicate (keptAtEnd source.toList) [] := by
    rw [substituted, String.toList_ofList]
    exact map_dropReturn_sourceLines h
  have hreturn : ∀ line ∈ sourceLines source.toList, '\r' ∉ line := fun line hline hmem =>
    h (subset_of_mem_split (sourceLines_subset _ hline) hmem)
  have hpackage : (CompilationUnit.ofText (substituted "\n" "\r\n" source)).package? =
      (CompilationUnit.ofText source).package? := by
    rw [CompilationUnit.ofText, CompilationUnit.ofText, CompilationUnit.package?_ofLines,
      CompilationUnit.package?_ofLines]
    exact map_dropReturn_find? (fun _ => rfl) hlines hreturn (by decide : isPackage [] = false)
  have himports : (CompilationUnit.ofText (substituted "\n" "\r\n" source)).imports =
      (CompilationUnit.ofText source).imports := by
    have hsame : ((sourceLines source.toList).filter isImportLine).map dropReturn =
        (sourceLines source.toList).filter isImportLine :=
      (List.map_congr_left fun line hline =>
        dropReturn_of_not_mem (hreturn line (List.mem_filter.mp hline).1)).trans (List.map_id _)
    have hnone : ¬isImport [] = true := by decide
    rw [CompilationUnit.ofText, CompilationUnit.ofText, CompilationUnit.imports_ofLines,
      CompilationUnit.imports_ofLines, hsame,
      map_dropReturn_filter (fun _ => rfl : ∀ line, isImportLine line = isImport (dropReturn line))
        hlines hreturn, List.filter_replicate_of_neg hnone, List.append_nil]
  have hhead : preprocessor.head (.ofText (substituted "\n" "\r\n" source)) name =
      preprocessor.head (.ofText source) name := by
    rw [Preprocessor.head, Preprocessor.header, hpackage, himports, ← Preprocessor.header,
      ← Preprocessor.head]
  constructor
  case package? => exact hpackage
  case imports => exact himports
  case body =>
    have hplain : ∀ line, isPlainLine line =
        (!isPackage (dropReturn line) && !isImport (dropReturn line)) := fun _ => rfl
    have hempty : (List.replicate (keptAtEnd source.toList) []).filter
        (fun text => !isPackage text && !isImport text) =
          List.replicate (keptAtEnd source.toList) [] := by
      refine List.filter_eq_self.mpr fun line hline => ?_
      rw [List.eq_of_mem_replicate hline]
      decide
    rw [CompilationUnit.ofText, CompilationUnit.ofText, CompilationUnit.body_ofLines,
      CompilationUnit.body_ofLines,
      map_dropReturn_filter (p := fun text => !isPackage text && !isImport text) hplain hlines
        hreturn, hempty]
  case lines => exact preprocessor.split_preprocess_eq_head source name
  case otherLines =>
    rw [preprocessor.split_preprocess_eq_head, hhead]

/-- The two empty lines at the end of this sketch are dropped, and one of them is kept if they have
carriage returns. -/
theorem sameButReturns_sample :
    '\r' ∉ "package a;\nimport b.C;\nint x;\n\n".toList ∧
    SameButReturns .standard "Main" "package a;\nimport b.C;\nint x;\n\n"
      "package a;\r\nimport b.C;\r\nint x;\r\n\r\n" 1 := by
  have hreturn : '\r' ∉ "package a;\nimport b.C;\nint x;\n\n".toList := by decide
  have hother : "package a;\r\nimport b.C;\r\nint x;\r\n\r\n" =
      substituted "\n" "\r\n" "package a;\nimport b.C;\nint x;\n\n" := by decide +kernel
  have hkept : 1 = keptAtEnd "package a;\nimport b.C;\nint x;\n\n".toList := by decide +kernel
  refine ⟨hreturn, ?_⟩
  rw [hother, hkept]
  exact sameButReturns .standard hreturn "Main"

end Sketch

end SketchApk
