import Mathlib.Data.String.Basic
import SketchApk.Project.Prepare
import SketchApk.Proofs.Path.Name
import SketchApk.Proofs.Project.Filling

/-!
# What is generated for a new project

The package of a project is `com.example` with one more name, which is made of the name of the project
and consists of lower-case letters and digits. So the package contains no percent sign, and the
activity that is generated from the template declares it and creates an instance of the sketch.

## Main statements

* `Project.exists_packageFor` : the form of the package.
* `Template.exists_activity` : the text of the activity.
* `Project.exists_unitOf` : the first line of a unit whose sketch declares no package.
-/

namespace SketchApk

namespace Template

/-- The activity declares the package and creates an instance of the sketch, if the package does not
contain the placeholder of the sketch. -/
theorem exists_activity {appPackage : String} (h : ¬"%sketch%".toList <:+: appPackage.toList)
    (className : String) : ∃ middle back, activity appPackage className =
      "package " ++ appPackage ++ ";\n" ++ middle ++ "sketch = new " ++ className ++ "();\n" ++ back := by
  obtain ⟨middle, back, hpieces⟩ := exists_split_activityTemplate
  have hunmixed : IsUnmixed [("%package%", appPackage), ("%sketch%", className)] := by
    simpa [IsUnmixed] using h
  have hpackage : textOfName [("%package%", appPackage), ("%sketch%", className)] "package".toList =
      appPackage.toList := rfl
  have hsketch : textOfName [("%package%", appPackage), ("%sketch%", className)] "sketch".toList =
      className.toList := rfl
  refine ⟨String.ofList middle, String.ofList back, String.toList_inj.mp ?_⟩
  rw [activity, (isFilled_fill isSound_activityTemplate).verbatim hunmixed, fillAtOnce, hpieces]
  simp only [weave, hpackage, hsketch, String.toList_append, String.toList_ofList, List.append_assoc]

end Template

namespace Project

/-! ### Packages -/

theorem toNat_le_of_isAlphanum {c : Char} (h : c.isAlphanum = true) : c.toNat ≤ 122 := by
  unfold Char.isAlphanum Char.isAlpha Char.isUpper Char.isLower Char.isDigit at h
  simp only [Bool.or_eq_true, Bool.and_eq_true, decide_eq_true_eq, ge_iff_le,
    UInt32.le_iff_toNat_le] at h
  rcases h with (h | h) | h
  · exact Nat.le_trans h.2 (by decide)
  · exact h.2
  · exact Nat.le_trans h.2 (by decide)

/-- A letter or digit in lower case is a lower-case letter or a digit. -/
theorem isLower_or_isDigit_toLower {c : Char} (h : c.isAlphanum = true) :
    (c.toLower.isLower = true ∨ c.toLower.isDigit = true) ∧ c.toLower.utf8Size = 1 := by
  have hall : ∀ n ≤ 122, (Char.ofNat n).isAlphanum = true →
      ((Char.ofNat n).toLower.isLower = true ∨ (Char.ofNat n).toLower.isDigit = true) ∧
        (Char.ofNat n).toLower.utf8Size = 1 := by decide +kernel
  have hc := hall c.toNat (toNat_le_of_isAlphanum h)
  rw [Char.ofNat_toNat] at hc
  exact hc h

theorem isLower_of_isAlpha {c : Char} (h : c.isLower = true ∨ c.isDigit = true)
    (halpha : c.isAlpha = true) : c.isLower = true := by
  refine h.resolve_right fun hdigit => ?_
  unfold Char.isAlpha Char.isUpper Char.isLower at halpha
  unfold Char.isDigit at hdigit
  simp only [Bool.or_eq_true, Bool.and_eq_true, decide_eq_true_eq, ge_iff_le,
    UInt32.le_iff_toNat_le] at halpha hdigit
  have hle : c.val.toNat ≤ 57 := hdigit.2
  rcases halpha with halpha | halpha
  · exact absurd (Nat.le_trans (show 65 ≤ c.val.toNat from halpha.1) hle) (by decide)
  · exact absurd (Nat.le_trans (show 97 ≤ c.val.toNat from halpha.1) hle) (by decide)

theorem of_mem_packageSegment {name : String} {c : Char} (h : c ∈ packageSegment name) :
    (c.isLower = true ∨ c.isDigit = true) ∧ c.utf8Size = 1 := by
  obtain ⟨other, hother, rfl⟩ := List.mem_map.mp h
  exact isLower_or_isDigit_toLower (List.mem_filter.mp hother).2

theorem length_le_utf8Len (text : List Char) : text.length ≤ String.utf8Len text := by
  induction text with
  | nil => exact Nat.le_refl _
  | cons c rest ih =>
    have hc := c.utf8Size_pos
    rw [List.length_cons, String.utf8Len_cons]
    omega

theorem utf8Len_eq_length {text : List Char} (h : ∀ c ∈ text, c.utf8Size = 1) :
    String.utf8Len text = text.length := by
  induction text with
  | nil => rfl
  | cons c rest ih =>
    obtain ⟨hc, hrest⟩ := List.forall_mem_cons.mp h
    rw [List.length_cons, String.utf8Len_cons, ih hrest, hc]

theorem length_packageSegment_le (name : String) :
    (packageSegment name).length ≤ name.utf8ByteSize := by
  rw [packageSegment, List.length_map, ← String.utf8Len_toList]
  exact (List.length_filter_le _ _).trans (length_le_utf8Len _)

/-- A lower-case letter with lower-case letters and digits behind it. -/
structure IsPackageSegment (segment : List Char) : Prop where
  head : ∃ first rest, segment = first :: rest ∧ first.isLower = true
  mem : ∀ c ∈ segment, c.isLower = true ∨ c.isDigit = true

/-- The package of a project consists of `com.example` and one more name. -/
theorem exists_packageFor (name : String) : ∃ segment, IsPackageSegment segment ∧
    packageFor name = "com.example." ++ String.ofList segment ∧
    (String.ofList segment).utf8ByteSize ≤ max 3 name.utf8ByteSize := by
  have hdefault : IsPackageSegment "app".toList ∧
      defaultAppPackage = "com.example." ++ String.ofList "app".toList ∧
      (String.ofList "app".toList).utf8ByteSize ≤ max 3 name.utf8ByteSize :=
    ⟨⟨⟨'a', ['p', 'p'], by decide, by decide⟩, by simp⟩, by decide, Nat.le_max_left _ _⟩
  rw [packageFor]
  split
  · rename_i first rest hsegment
    split
    · rename_i halpha
      have hmem (c : Char) (hc : c ∈ first :: rest) := of_mem_packageSegment (hsegment ▸ hc)
      have hsize : (String.ofList (first :: rest)).utf8ByteSize = (packageSegment name).length := by
        rw [String.utf8ByteSize_ofList, utf8Len_eq_length fun c hc => (hmem c hc).2, hsegment]
      refine ⟨first :: rest, ⟨⟨first, rest, rfl, ?_⟩, fun c hc => (hmem c hc).1⟩, rfl, ?_⟩
      · exact isLower_of_isAlpha (hmem first List.mem_cons_self).1 halpha
      · rw [hsize]
        exact (length_packageSegment_le name).trans (Nat.le_max_right _ _)
    · exact ⟨_, hdefault⟩
  · exact ⟨_, hdefault⟩

namespace IsPackageSegment

variable {segment : List Char}

theorem not_mem (h : IsPackageSegment segment) {c : Char} (hlower : c.isLower = false)
    (hdigit : c.isDigit = false) : c ∉ segment := by
  intro hmem
  have hc := h.mem c hmem
  rw [hlower, hdigit] at hc
  simp at hc

/-- The last name of a package can be the name of a directory. -/
theorem isName (h : IsPackageSegment segment) : Path.IsName (String.ofList segment) := by
  obtain ⟨first, rest, hsegment, hfirst⟩ := h.head
  have hne (text : String) (htext : ∀ c ∈ text.toList.head?, c.isLower = false) :
      String.ofList segment ≠ text := by
    rintro rfl
    rw [String.toList_ofList, hsegment] at htext
    rw [htext first (by simp)] at hfirst
    cases hfirst
  refine ⟨?_, hne "" (by simp), hne "." (by simp), hne ".." (by simp)⟩
  rw [String.toList_ofList]
  exact h.not_mem (by decide) (by decide)

/-- The path of a package. -/
theorem substituted_eq (h : IsPackageSegment segment) :
    Text.substituted "." "/" ("com.example." ++ String.ofList segment) =
      "com" ++ "/" ++ ("example" ++ "/" ++ String.ofList segment) := by
  have hdot : '.' ∉ segment := h.not_mem (by decide) (by decide)
  have hsegment : (segment.map fun c => if c = '.' then '/' else c) = segment := by
    conv_rhs => rw [← List.map_id segment]
    exact List.map_congr_left fun c hc => if_neg (ne_of_mem_of_not_mem hc hdot)
  refine String.toList_inj.mp ?_
  rw [Text.toList_substituted (show ".".toList = ['.'] from rfl) (show "/".toList = ['/'] from rfl),
    String.toList_append, List.map_append, @String.toList_ofList segment, hsegment]
  simp

theorem not_isInfix_package (h : IsPackageSegment segment) :
    ¬"%sketch%".toList <:+: ("com.example." ++ String.ofList segment).toList := by
  have hpercent : '%' ∉ segment := h.not_mem (by decide) (by decide)
  intro hwithin
  have hmem := hwithin.subset (by decide : '%' ∈ "%sketch%".toList)
  rw [String.toList_append, List.mem_append, @String.toList_ofList segment] at hmem
  exact hmem.elim (by decide) hpercent

end IsPackageSegment

/-- A sketch that declares no package becomes part of the package of the application. -/
theorem exists_unitOf (appPackage : String) {source : Sketch.Source}
    (h : declaresPackage source.text = false) :
    ∃ rest, unitOf appPackage source = "package " ++ appPackage ++ ";\n" ++ rest := by
  refine ⟨"\n" ++ Sketch.Preprocessor.standard.unitText source, ?_⟩
  have hlines : ";\n\n" = ";\n" ++ "\n" := by decide
  rw [unitOf, h, if_neg Bool.false_ne_true, hlines]
  simp only [String.append_assoc]

end Project

end SketchApk
