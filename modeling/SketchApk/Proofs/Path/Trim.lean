import Mathlib.Data.List.Induction
import SketchApk.Path
import SketchApk.Proofs.Text.Trim

/-!
# Paths and trimming

A blank is part of a name, wherever it stands in a path. So a path that loses blanks at an end does
not have the same components any more: the characters of its names are fewer.

## Main definitions

* `Path.letters` : the characters in the segments that are not silent.

## Main statements

* `Path.flatMap_componentLetters` : components determine the letters of a path.
* `Path.dropWhile_eq_self_of_components_eq`, `Path.trimmed_eq_self_of_components_eq` : a path that
  has the same components without some blanks has lost none.
-/

namespace SketchApk.Path

open Text

/-! ### Segments -/

/-- The characters of a segment, unless it is silent. -/
def segmentLetters (segment : List Char) : List Char :=
  if isSilent (String.ofList segment) then [] else segment

/-- The characters in the segments of a text that are not silent. -/
def letters (text : List Char) : List Char :=
  (split '/' text).flatMap segmentLetters

theorem length_segmentLetters_le (segment : List Char) :
    (segmentLetters segment).length ≤ segment.length := by
  rw [segmentLetters]
  split
  · exact Nat.zero_le _
  · exact Nat.le_refl _

/-- A segment with a blank in it is not silent. -/
theorem segmentLetters_of_isBlank {segment : List Char} {c : Char} (hmem : c ∈ segment)
    (hc : isBlank c = true) : segmentLetters segment = segment := by
  rw [segmentLetters, if_neg]
  intro hsilent
  rcases (by simpa [isSilent] using hsilent : segment = [] ∨ String.ofList segment = ".") with
    rfl | hdot
  · cases hmem
  · have hsegment : segment = ['.'] := by
      rw [← String.toList_ofList (l := segment), hdot]
      rfl
    rw [hsegment] at hmem
    rw [List.mem_singleton.mp hmem] at hc
    exact absurd hc (by decide)

theorem ne_slash_of_isBlank {c : Char} (hc : isBlank c = true) : c ≠ '/' := by
  rintro rfl
  exact absurd hc (by decide)

/-- A character in front that is no separator joins the first piece. -/
theorem exists_split_cons {separator c : Char} (hc : c ≠ separator) (text : List Char) :
    ∃ first rest, split separator text = first :: rest ∧
      split separator (c :: text) = (c :: first) :: rest := by
  cases hsplit : split separator text with
  | nil => exact absurd hsplit (split_ne_nil separator text)
  | cons first rest => exact ⟨first, rest, rfl, by rw [split, if_neg hc, hsplit]⟩

/-- A character at the end that is no separator joins the last piece. -/
theorem exists_split_concat {separator c : Char} (hc : c ≠ separator) (text : List Char) :
    ∃ front last, split separator text = front ++ [last] ∧
      split separator (text ++ [c]) = front ++ [last ++ [c]] := by
  induction text with
  | nil => exact ⟨[], [], rfl, by simp [split, hc]⟩
  | cons d text ih =>
    obtain ⟨front, last, htext, hconcat⟩ := ih
    rw [List.cons_append]
    by_cases hd : d = separator
    · subst hd
      rw [split_cons_self, split_cons_self, htext, hconcat]
      exact ⟨[] :: front, last, rfl, rfl⟩
    · rw [split, if_neg hd, split, if_neg hd, htext, hconcat]
      cases front with
      | nil => exact ⟨[], d :: last, rfl, rfl⟩
      | cons first front => exact ⟨(d :: first) :: front, last, rfl, rfl⟩

/-! ### Blanks at the ends -/

theorem length_letters_lt_cons {c : Char} (hc : isBlank c = true) (text : List Char) :
    (letters text).length < (letters (c :: text)).length := by
  obtain ⟨first, rest, htext, hcons⟩ := exists_split_cons (ne_slash_of_isBlank hc) text
  have hfirst := length_segmentLetters_le first
  have hblank := segmentLetters_of_isBlank (List.mem_cons_self (a := c) (l := first)) hc
  rw [letters, letters, htext, hcons, List.flatMap_cons, List.flatMap_cons, hblank,
    List.length_append, List.length_append, List.length_cons]
  omega

theorem length_letters_lt_concat {c : Char} (hc : isBlank c = true) (text : List Char) :
    (letters text).length < (letters (text ++ [c])).length := by
  obtain ⟨front, last, htext, hconcat⟩ := exists_split_concat (ne_slash_of_isBlank hc) text
  have hlast := length_segmentLetters_le last
  have hmem := List.mem_append_right last (List.mem_singleton_self c)
  have hblank := segmentLetters_of_isBlank hmem hc
  rw [letters, letters, htext, hconcat, List.flatMap_append, List.flatMap_append,
    List.flatMap_singleton, List.flatMap_singleton, hblank]
  simp only [List.length_append, List.length_singleton]
  omega

/-- Dropping blanks at the start leaves fewer letters. -/
theorem dropWhile_eq_self_or_length_lt {p : Char → Bool} (hp : ∀ c, p c = true → isBlank c = true)
    (text : List Char) :
    text.dropWhile p = text ∨ (letters (text.dropWhile p)).length < (letters text).length := by
  induction text with
  | nil => exact .inl rfl
  | cons c text ih =>
    cases hc : p c with
    | false => exact .inl (List.dropWhile_cons_of_neg (by simp [hc]))
    | true =>
      have hlt := length_letters_lt_cons (hp c hc) text
      rw [List.dropWhile_cons_of_pos hc]
      rcases ih with heq | hless
      · exact .inr (heq.symm ▸ hlt)
      · exact .inr (hless.trans hlt)

/-- Dropping blanks at the end leaves fewer letters. -/
theorem trimEnd_eq_self_or_length_lt (text : List Char) :
    trimEnd text = text ∨ (letters (trimEnd text)).length < (letters text).length := by
  induction text using List.reverseRecOn with
  | nil => exact .inl rfl
  | append_singleton text c ih =>
    cases hc : isBlank c with
    | false => exact .inl (trimEnd_eq_self_iff.mpr (by simp [hc]))
    | true =>
      have hlt := length_letters_lt_concat hc text
      have htrim : trimEnd (text ++ [c]) = trimEnd text := by simp [trimEnd, hc]
      rw [htrim]
      rcases ih with heq | hless
      · exact .inr (heq.symm ▸ hlt)
      · exact .inr (hless.trans hlt)

/-- Trimming leaves fewer letters. -/
theorem trim_eq_self_or_length_lt (text : List Char) :
    trim text = text ∨ (letters (trim text)).length < (letters text).length := by
  rcases dropWhile_eq_self_or_length_lt (fun _ h => h) text with hstart | hstart
  · rw [trim, trimStart, hstart]
    exact trimEnd_eq_self_or_length_lt text
  · rcases trimEnd_eq_self_or_length_lt (trimStart text) with hend | hend
    · rw [trim, hend]
      exact .inr hstart
    · exact .inr (hend.trans hstart)

/-! ### Components -/

/-- The characters of a component, unless its segment is silent. -/
def componentLetters : Component → List Char
  | .root | .here => []
  | .up => ['.', '.']
  | .name text => text.toList

theorem componentLetters_segmentComponent {segment : List Char}
    (h : isSilent (String.ofList segment) = false) :
    componentLetters (segmentComponent (String.ofList segment)) = segmentLetters segment := by
  rw [segmentLetters, h, segmentComponent]
  split
  · next hup =>
    have hsegment : segment = ['.', '.'] := by
      rw [← String.toList_ofList (l := segment), hup]
      rfl
    rw [hsegment]
    rfl
  · rw [componentLetters, String.toList_ofList]
    rfl

/-- Silent segments have no letters. -/
theorem flatMap_componentLetters_of_segments (segments : List (List Char)) :
    (((segments.map String.ofList).filter (!isSilent ·)).map segmentComponent).flatMap
      componentLetters = segments.flatMap segmentLetters := by
  induction segments with
  | nil => rfl
  | cons segment segments ih =>
    rw [List.map_cons, List.flatMap_cons, ← ih]
    cases h : isSilent (String.ofList segment) with
    | true => simp [h, segmentLetters]
    | false => simp [h, componentLetters_segmentComponent h]

/-- The components of a path determine its letters. -/
theorem flatMap_componentLetters (path : Path) :
    path.components.flatMap componentLetters = letters path.text.toList := by
  cases hsplit : split '/' path.text.toList with
  | nil => exact absurd hsplit (split_ne_nil '/' path.text.toList)
  | cons first rest =>
    have hsegments : path.segments = String.ofList first :: rest.map String.ofList := by
      rw [segments, hsplit, List.map_cons]
    have hrest := flatMap_componentLetters_of_segments rest
    rw [components, hsegments, letters, hsplit, List.flatMap_cons]
    dsimp only
    split
    · next habsolute =>
      -- The segment in front of the first slash is empty.
      obtain ⟨tail, htail⟩ := List.head?_eq_some_iff.mp (of_decide_eq_true habsolute)
      rw [htail, split_cons_self, List.cons.injEq] at hsplit
      rw [← hsplit.1, List.flatMap_cons, hrest]
      rfl
    · split
      · next hdot =>
        rw [segmentLetters, hdot, List.flatMap_cons, hrest]
        rfl
      · rw [← List.map_cons, flatMap_componentLetters_of_segments, List.flatMap_cons]

/-- A path that has the same components without some blanks at its start has lost none. -/
theorem dropWhile_eq_self_of_components_eq {p : Char → Bool}
    (hp : ∀ c, p c = true → isBlank c = true) {text : String}
    (h : (Path.mk (String.ofList (text.toList.dropWhile p))).components =
      (Path.mk text).components) :
    text.toList.dropWhile p = text.toList := by
  have hletters := congrArg (fun components => (components.flatMap componentLetters).length) h
  simp only [flatMap_componentLetters, String.toList_ofList] at hletters
  rcases dropWhile_eq_self_or_length_lt hp text.toList with heq | hlt
  · exact heq
  · exact absurd hletters hlt.ne

/-- A path that has the same components when it is trimmed has no blank at either end. -/
theorem trimmed_eq_self_of_components_eq {text : String}
    (h : (Path.mk (trimmed text)).components = (Path.mk text).components) :
    trimmed text = text := by
  have hletters := congrArg (fun components => (components.flatMap componentLetters).length) h
  simp only [flatMap_componentLetters, trimmed, String.toList_ofList] at hletters
  rcases trim_eq_self_or_length_lt text.toList with heq | hlt
  · rw [trimmed, heq, String.ofList_toList]
  · exact absurd hletters hlt.ne

end SketchApk.Path
