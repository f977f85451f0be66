import Mathlib.Data.List.Basic
import Mathlib.Data.List.TakeWhile
import SketchApk.Text.Character
import SketchApk.Text.Lines

/-!
# Trimming and splitting

A text is as it was after trimming if and only if neither its first nor its last character is blank.
Lines that are put one behind the other, each with a newline at its end, are the lines of the text.

## Main statements

* `Text.trim_eq_self_iff` : the texts that trimming leaves as they are.
* `Text.lines_flatMap` : the lines of a text that consists of lines.
-/

namespace SketchApk.Text

/-! ### Trimming -/

/-- Dropping characters at the start makes no difference if the first one is not among them. -/
theorem dropWhile_eq_self_iff {p : Char → Bool} {text : List Char} :
    text.dropWhile p = text ↔ ∀ c ∈ text.head?, p c = false := by
  rw [List.dropWhile_eq_self_iff]
  cases text <;> simp

/-- What is dropped at the start of a text is known from the first character behind it. -/
theorem dropWhile_append_of_forall {p : Char → Bool} {front rest : List Char}
    (hfront : ∀ c ∈ front, p c = true) (hrest : ∀ c ∈ rest.head?, p c = false) :
    (front ++ rest).dropWhile p = rest := by
  rw [List.dropWhile_append_of_pos hfront, dropWhile_eq_self_iff.mpr hrest]

theorem eq_false_of_mem_head?_dropWhile {p : Char → Bool} {text : List Char} :
    ∀ c ∈ (text.dropWhile p).head?, p c = false := by
  intro c hc
  have hhead := List.head?_dropWhile_not p text
  rwa [hc] at hhead

theorem trimStart_eq_self_iff {text : List Char} :
    trimStart text = text ↔ ∀ c ∈ text.head?, isBlank c = false :=
  dropWhile_eq_self_iff

theorem trimEnd_eq_self_iff {text : List Char} :
    trimEnd text = text ↔ ∀ c ∈ text.getLast?, isBlank c = false := by
  rw [trimEnd, List.reverse_eq_iff, dropWhile_eq_self_iff, List.head?_reverse]

theorem length_trimEnd_le (text : List Char) : (trimEnd text).length ≤ text.length := by
  rw [trimEnd, List.length_reverse, ← text.length_reverse]
  exact (List.dropWhile_suffix isBlank).length_le

/-- Trimming leaves a text as it is if and only if it has no blank at either end. -/
theorem trim_eq_self_iff {text : List Char} :
    trim text = text ↔
      (∀ c ∈ text.head?, isBlank c = false) ∧ ∀ c ∈ text.getLast?, isBlank c = false := by
  rw [← trimStart_eq_self_iff, ← trimEnd_eq_self_iff, trim]
  constructor
  · intro h
    have hstart : trimStart text = text := by
      refine (List.dropWhile_suffix isBlank).eq_of_length_le ?_
      calc text.length = (trimEnd (trimStart text)).length := by rw [h]
        _ ≤ (trimStart text).length := length_trimEnd_le _
    exact ⟨hstart, by rwa [hstart] at h⟩
  · rintro ⟨hstart, hend⟩
    rw [hstart, hend]

/-- A text without blanks is left as it is. -/
theorem trim_eq_self_of_forall {text : List Char} (h : ∀ c ∈ text, isBlank c = false) :
    trim text = text :=
  trim_eq_self_iff.mpr
    ⟨fun c hc => h c (List.mem_of_mem_head? hc), fun c hc => h c (List.mem_of_mem_getLast? hc)⟩

/-- Nothing is left to be trimmed after trimming. -/
theorem trim_trim (text : List Char) : trim (trim text) = trim text := by
  refine trim_eq_self_iff.mpr ⟨fun c hc => ?_, fun c hc => ?_⟩
  · obtain ⟨rest, hrest⟩ : trim text <+: trimStart text := by
      rw [trim, trimEnd, ← List.reverse_suffix, List.reverse_reverse]
      exact List.dropWhile_suffix isBlank
    have hmem : c ∈ (trimStart text).head? := by
      rw [← hrest, List.head?_append, Option.mem_def.mp hc]
      rfl
    exact eq_false_of_mem_head?_dropWhile c hmem
  · rw [trim, trimEnd, List.getLast?_reverse] at hc
    exact eq_false_of_mem_head?_dropWhile c hc

/-! ### Splitting -/

/-- Pieces are put together as lists are. -/
theorem intercalate_eq_join (separator : Char) (pieces : List (List Char)) :
    [separator].intercalate pieces = join separator pieces := by
  induction pieces with
  | nil => rfl
  | cons piece rest ih =>
    cases rest with
    | nil => simp [join, List.intercalate]
    | cons next rest =>
      rw [join, ← ih]
      · simp [List.intercalate]
      · simp

/-- A separator separates the pieces of the texts around it. -/
theorem split_append_separator (separator : Char) (front text : List Char) :
    split separator (front ++ separator :: text) = split separator front ++ split separator text := by
  induction front with
  | nil => exact split_cons_self separator text
  | cons c front ih =>
    by_cases hc : c = separator
    · subst hc
      rw [List.cons_append, split_cons_self, split_cons_self, ih, List.cons_append]
    · obtain ⟨first, rest, hsplit⟩ := List.exists_cons_of_ne_nil (split_ne_nil separator front)
      rw [List.cons_append, split, if_neg hc, ih, split, if_neg hc, hsplit]
      rfl

/-- Separators at the end of a text are followed by empty pieces. -/
theorem split_append_replicate (separator : Char) (text : List Char) (count : Nat) :
    split separator (text ++ List.replicate count separator) =
      split separator text ++ List.replicate count [] := by
  induction count generalizing text with
  | zero => simp
  | succ count ih =>
    have hrest := ih []
    rw [List.nil_append] at hrest
    rw [List.replicate_succ, split_append_separator, hrest]
    rfl

/-- A text without separators is one piece. -/
theorem split_eq_singleton {separator : Char} {text : List Char} (h : separator ∉ text) :
    split separator text = [text] := by
  induction text with
  | nil => rfl
  | cons c rest ih =>
    rw [List.mem_cons, not_or] at h
    rw [split, if_neg (Ne.symm h.1), ih h.2]

/-- A piece in front of a separator is split off. -/
theorem split_append_cons {separator : Char} {piece : List Char} (h : separator ∉ piece)
    (rest : List Char) : split separator (piece ++ separator :: rest) =
      piece :: split separator rest := by
  rw [split_append_separator, split_eq_singleton h, List.singleton_append]

/-- The pieces of a text consist of its characters. -/
theorem subset_of_mem_split {separator : Char} {text piece : List Char}
    (h : piece ∈ split separator text) : piece ⊆ text := by
  induction text generalizing piece with
  | nil =>
    rw [split_nil, List.mem_singleton] at h
    exact h ▸ List.Subset.refl []
  | cons c rest ih =>
    rw [split] at h
    split at h
    · rcases List.mem_cons.mp h with rfl | h
      · exact List.nil_subset _
      · exact List.subset_cons_of_subset c (ih h)
    · split at h
      · exact absurd ‹_› (split_ne_nil separator rest)
      · rename_i first others hsplit
        rcases List.mem_cons.mp h with rfl | h
        · exact List.cons_subset_cons c (ih (hsplit ▸ List.mem_cons_self))
        · exact List.subset_cons_of_subset c (ih (hsplit ▸ List.mem_cons_of_mem _ h))

/-- Lines that are put one behind the other are pieces of the text, whatever follows them. -/
theorem split_flatMap_append {pieces : List (List Char)} (h : ∀ piece ∈ pieces, '\n' ∉ piece)
    (rest : List Char) :
    split '\n' (pieces.flatMap (· ++ ['\n']) ++ rest) = pieces ++ split '\n' rest := by
  induction pieces with
  | nil => rfl
  | cons piece pieces ih =>
    obtain ⟨hpiece, hpieces⟩ := List.forall_mem_cons.mp h
    rw [List.flatMap_cons, List.append_assoc, List.append_assoc, List.singleton_append,
      split_append_cons hpiece, ih hpieces, List.cons_append]

/-- The pieces of lines that are put one behind the other. -/
theorem split_flatMap {pieces : List (List Char)} (h : ∀ piece ∈ pieces, '\n' ∉ piece) :
    split '\n' (pieces.flatMap (· ++ ['\n'])) = pieces ++ [[]] := by
  simpa using split_flatMap_append h []

/-- A newline ends the lines of what stands before it. -/
theorem lines_append {front : List Char} (h : front = [] ∨ front.getLast? = some '\n')
    (rest : List Char) : lines (front ++ rest) = lines front ++ lines rest := by
  rcases h with rfl | hlast
  · rfl
  · obtain ⟨text, rfl⟩ := List.getLast?_eq_some_iff.mp hlast
    have hrest := split_ne_nil '\n' rest
    have hfront : lines (text ++ ['\n']) = (split '\n' text).map dropReturn := by
      rw [lines, split_append_separator, split_nil]
      simp
    rw [hfront, lines, List.append_assoc, List.singleton_append, split_append_separator,
      List.dropLast_append_of_ne_nil hrest, List.getLast?_append_of_ne_nil _ hrest,
      List.map_append, List.append_assoc]
    rfl

/-- The lines of a text that consists of lines without a carriage return at their end. -/
theorem lines_flatMap {pieces : List (List Char)}
    (h : ∀ piece ∈ pieces, '\n' ∉ piece ∧ piece.getLast? ≠ some '\r') :
    lines (pieces.flatMap (· ++ ['\n'])) = pieces := by
  have hreturn : pieces.map dropReturn = pieces :=
    (List.map_congr_left fun piece hpiece => if_neg (h piece hpiece).2).trans pieces.map_id
  rw [lines, split_flatMap fun piece hpiece => (h piece hpiece).1]
  simp [hreturn]

end SketchApk.Text
