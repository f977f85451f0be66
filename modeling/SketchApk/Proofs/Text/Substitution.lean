import SketchApk.Text.Substitution

/-!
# Substitution in parts of a text

A pattern of one character is replaced wherever the character stands. A text with a longer pattern is
taken part by part: a part without the first character of the pattern stays as it is, and the pattern
itself is replaced.

## Main statements

* `Text.substitute_append`, `Text.substitute_pattern_append` : a part that stays, and one that is
  replaced.
* `Text.substitute_append_cons` : a part that is searched on its own.
* `Text.toList_substituted` : one character in place of another one.
-/

namespace SketchApk.Text

/-- A single character is replaced wherever it stands. -/
theorem substitute_singleton (c : Char) (replacement text : List Char) :
    substitute [c] replacement text =
      text.flatMap fun other => if other = c then replacement else [other] := by
  rw [substitute]
  induction text with
  | nil => rfl
  | cons first rest ih =>
    rw [substituteFrom, List.flatMap_cons, ← ih]
    by_cases hfirst : first = c
    · subst hfirst
      simp
    · simp [hfirst, Ne.symm hfirst]

/-- A character with which the pattern does not begin stays as it is. -/
theorem substitute_cons {pattern : List Char} {c : Char} {rest : List Char}
    (h : ¬pattern <+: c :: rest) (replacement : List Char) :
    substitute pattern replacement (c :: rest) = c :: substitute pattern replacement rest := by
  rw [substitute, substituteFrom, if_neg (mt List.isPrefixOf_iff_prefix.mp h)]
  rfl

/-- A part without the first character of the pattern stays as it is. -/
theorem substitute_append {c : Char} {front : List Char} (h : c ∉ front)
    (pattern replacement rest : List Char) :
    substitute (c :: pattern) replacement (front ++ rest) =
      front ++ substitute (c :: pattern) replacement rest := by
  induction front with
  | nil => rfl
  | cons first front ih =>
    rw [List.mem_cons, not_or] at h
    have hfirst : ¬c :: pattern <+: first :: (front ++ rest) := by simp [List.cons_prefix_cons, h.1]
    rw [List.cons_append, List.cons_append, substitute_cons hfirst, ih h.2]

/-- A pattern is replaced. -/
theorem substitute_pattern_append {pattern : List Char} (h : pattern ≠ [])
    (replacement rest : List Char) : substitute pattern replacement (pattern ++ rest) =
      replacement ++ substitute pattern replacement rest := by
  obtain ⟨c, behind, rfl⟩ := List.exists_cons_of_ne_nil h
  have hwhole : (c :: behind).isPrefixOf (c :: (behind ++ rest)) = true := by
    simp [List.isPrefixOf_iff_prefix]
  rw [List.cons_append, substitute, substituteFrom, hwhole, if_pos rfl]
  exact congrArg (replacement ++ ·) (substituteFrom_length_append _ _ behind rest)

/-- A text without the pattern stays as it is. -/
theorem substitute_of_not_isInfix {pattern text : List Char} (h : ¬pattern <:+: text)
    (replacement : List Char) : substitute pattern replacement text = text := by
  induction text with
  | nil => exact substitute_nil _ _
  | cons first rest ih =>
    rw [substitute_cons fun hpattern => h hpattern.isInfix,
      ih fun hrest => h (hrest.trans (List.suffix_cons _ _).isInfix)]

theorem not_isPrefix_append_cons {pattern front : List Char} {c : Char} (h : ¬pattern <+: front)
    (hc : c ∉ pattern) (rest : List Char) : ¬pattern <+: front ++ c :: rest := by
  intro hpattern
  rcases List.prefix_or_prefix_of_prefix hpattern (List.prefix_append front _) with
    hfront | ⟨behind, rfl⟩
  · exact h hfront
  · cases behind with
    | nil => exact h (by simp)
    | cons other behind =>
      rw [List.prefix_append_right_inj] at hpattern
      obtain ⟨rfl, -⟩ := List.cons_prefix_cons.mp hpattern
      exact hc (List.mem_append_right _ List.mem_cons_self)

/-- A part is searched on its own if what follows it begins with no character of the pattern. -/
theorem substitute_append_cons {pattern : List Char} {c : Char} (hne : pattern ≠ [])
    (hc : c ∉ pattern) (replacement front rest : List Char) :
    substitute pattern replacement (front ++ c :: rest) =
      substitute pattern replacement front ++ substitute pattern replacement (c :: rest) := by
  -- Where the pattern begins in the part it also ends there, and the search goes on behind it.
  induction hlength : front.length using Nat.strongRecOn generalizing front with
  | _ length ih =>
    cases front with
    | nil => simp
    | cons first front =>
      by_cases hpattern : pattern <+: first :: front
      · obtain ⟨behind, hbehind⟩ := hpattern
        have hshorter : behind.length < length := by
          have hpos := List.length_pos_iff.mpr hne
          rw [← hlength, ← hbehind, List.length_append]
          omega
        rw [← hbehind, List.append_assoc, substitute_pattern_append hne,
          substitute_pattern_append hne, ih _ hshorter behind rfl, List.append_assoc]
      · have hcons := not_isPrefix_append_cons hpattern hc rest
        rw [List.cons_append] at hcons ⊢
        rw [substitute_cons hcons, substitute_cons hpattern, ih _ (by simp [← hlength]) front rfl,
          List.cons_append]

theorem substitute_eq_self {c : Char} {text : List Char} (h : c ∉ text)
    (pattern replacement : List Char) : substitute (c :: pattern) replacement text = text := by
  have hpart := substitute_append h pattern replacement []
  rwa [substitute_nil, List.append_nil] at hpart

/-- One character in place of another one. -/
theorem toList_substituted {pattern replacement : String} {c other : Char}
    (hpattern : pattern.toList = [c]) (hreplacement : replacement.toList = [other])
    (text : String) : (substituted pattern replacement text).toList =
      text.toList.map fun found => if found = c then other else found := by
  rw [substituted, String.toList_ofList, hpattern, hreplacement, substitute_singleton,
    List.map_eq_flatMap]
  congr 1
  funext found
  split <;> rfl

end SketchApk.Text
