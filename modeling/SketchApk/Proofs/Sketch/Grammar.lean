import SketchApk.Proofs.Sketch.Declaration

/-!
# The grammar of declarations

A declaration consists of a word, blanks, in an import perhaps the word `static` with blanks behind
it, a name, perhaps more blanks, and a semicolon. It fills a line, but for a carriage return at the
end. Recognising passes over all blanks at once, and over all characters of a name. Nothing is missed
that way: no character of a name is blank, and a semicolon is neither.

## Main definitions

* `Sketch.IsGap`, `Sketch.IsDottedName` : the blanks and the names of declarations.
* `Sketch.IsDeclaration`, `Sketch.FillsLine` : the texts that declare something, and their lines.

## Main statements

* `Sketch.isImport_iff`, `Sketch.isPackage_iff` : the texts that are recognised.
* `Sketch.recognizes_declarations` : the lines that are recognised.
-/

namespace SketchApk

namespace Text

/-- Ranges that are disjoint from each other have no character in common. -/
theorem inRanges_eq_false_of_disjoint {ranges others : List (Nat × Nat)}
    (h : ∀ range ∈ ranges, ∀ other ∈ others, range.2 < other.1 ∨ other.2 < range.1) {c : Char}
    (hc : inRanges ranges c = true) : inRanges others c = false := by
  obtain ⟨range, hrange, hin⟩ := List.any_eq_true.mp hc
  refine List.any_eq_false.mpr fun other hother hout => ?_
  simp only [Bool.and_eq_true, decide_eq_true_eq] at hin hout
  have hapart := h range hrange other hother
  omega

end Text

namespace Sketch

open Text

variable {text rest word line : List Char}

/-! ### Characters -/

theorem isNameCharacter_iff {c : Char} : isNameCharacter c = true ↔
    c.isAlpha = true ∨ isDecimalDigit c = true ∨ c = '_' ∨ c = '.' := by
  unfold Char.isAlpha Char.isUpper Char.isLower
  simp only [isNameCharacter, Bool.or_eq_true, Bool.and_eq_true, decide_eq_true_eq, Char.le_def,
    ge_iff_le]
  grind

/-- A blank does not belong to a name. -/
theorem isBlank_of_isNameCharacter {c : Char} (h : isNameCharacter c = true) :
    isBlank c = false := by
  have hranges : inRanges ((0x61, 0x7a) :: (0x41, 0x5a) :: (0x5f, 0x5f) :: (0x2e, 0x2e) ::
      digitRanges) c = true := by
    simp only [inRanges, List.any_cons, Bool.or_eq_true, Bool.and_eq_true, decide_eq_true_eq]
    simp only [isNameCharacter, isDecimalDigit, Bool.or_eq_true, Bool.and_eq_true,
      decide_eq_true_eq] at h
    rcases h with (((h | h) | rfl) | rfl) | h
    · exact .inl h
    · exact .inr (.inl h)
    · exact .inr (.inr (.inl (by decide)))
    · exact .inr (.inr (.inr (.inl (by decide))))
    · exact .inr (.inr (.inr (.inr h)))
  exact inRanges_eq_false_of_disjoint (by decide) hranges

/-! ### Parts of a declaration -/

/-- One or more blanks. -/
structure IsGap (text : List Char) : Prop where
  ne_nil : text ≠ []
  isBlank : ∀ c ∈ text, isBlank c = true

/-- One or more ASCII letters, decimal digits of any script, underscores and dots. -/
structure IsDottedName (text : List Char) : Prop where
  ne_nil : text ≠ []
  characters : ∀ c ∈ text, c.isAlpha = true ∨ isDecimalDigit c = true ∨ c = '_' ∨ c = '.'

theorem IsDottedName.isNameCharacter (h : IsDottedName text) :
    ∀ c ∈ text, isNameCharacter c = true :=
  fun c hc => isNameCharacter_iff.mpr (h.characters c hc)

theorem isDottedName_iff : IsDottedName text ↔ text ≠ [] ∧ text.all isNameCharacter = true := by
  rw [List.all_eq_true]
  exact ⟨fun h => ⟨h.ne_nil, h.isNameCharacter⟩,
    fun h => ⟨h.1, fun c hc => isNameCharacter_iff.mp (h.2 c hc)⟩⟩

instance : DecidablePred IsDottedName := fun _ => decidable_of_iff' _ isDottedName_iff

/-- A name does not begin with a blank. -/
theorem IsDottedName.isBlank_head? {name : List Char} (h : IsDottedName name) (rest : List Char) :
    ∀ c ∈ (name ++ rest).head?, isBlank c = false := by
  obtain ⟨first, others, rfl⟩ := List.exists_cons_of_ne_nil h.ne_nil
  rintro _ ⟨⟩
  exact isBlank_of_isNameCharacter (h.isNameCharacter first List.mem_cons_self)

/-- The end of a declaration is a name, perhaps blanks, and a semicolon. -/
theorem isNameEnd_iff : isNameEnd text = true ↔
    ∃ name behind, text = name ++ behind ++ [';'] ∧ IsDottedName name ∧
      ∀ c ∈ behind, isBlank c = true := by
  rw [isNameEnd, Bool.and_eq_true, decide_eq_true_iff, decide_eq_true_iff]
  constructor
  · rintro ⟨hlength, hend⟩
    have htext := List.takeWhile_append_dropWhile (p := isNameCharacter) (l := text)
    have hrest := List.takeWhile_append_dropWhile (p := isBlank)
      (l := text.dropWhile isNameCharacter)
    refine ⟨text.takeWhile isNameCharacter, (text.dropWhile isNameCharacter).takeWhile isBlank, ?_,
      ⟨?_, ?_⟩, fun c => List.mem_takeWhile_imp⟩
    · rw [hend] at hrest
      rw [List.append_assoc, hrest, htext]
    · intro hnil
      rw [hnil, List.nil_append] at htext
      rw [htext] at hlength
      exact Nat.lt_irrefl _ hlength
    · exact fun c hc => isNameCharacter_iff.mp (List.mem_takeWhile_imp hc)
  · rintro ⟨name, behind, rfl, hname, hbehind⟩
    have hhead : ∀ c ∈ (behind ++ [';']).head?, isNameCharacter c = false := by
      cases behind with
      | nil =>
        rintro _ ⟨⟩
        decide
      | cons first others =>
        rintro _ ⟨⟩
        refine Bool.eq_false_iff.mpr fun hfirst => Bool.false_ne_true ?_
        exact (isBlank_of_isNameCharacter hfirst).symm.trans (hbehind first List.mem_cons_self)
    have hsemicolon : ∀ c ∈ [';'].head?, isBlank c = false := by
      rintro _ ⟨⟩
      decide
    have hlength : 0 < name.length := List.length_pos_iff.mpr hname.ne_nil
    rw [List.append_assoc, dropWhile_append_of_forall hname.isNameCharacter hhead,
      dropWhile_append_of_forall hbehind hsemicolon]
    refine ⟨?_, rfl⟩
    simp only [List.length_append]
    omega

theorem afterWord?_eq_some_iff : afterWord? word text = some rest ↔ text = word ++ rest := by
  rw [afterWord?]
  constructor
  · intro h
    split at h
    · obtain ⟨others, rfl⟩ := List.isPrefixOf_iff_prefix.mp ‹_›
      rw [List.drop_left] at h
      rw [Option.some.inj h]
    · cases h
  · rintro rfl
    rw [if_pos (List.isPrefixOf_iff_prefix.mpr (List.prefix_append _ _)), List.drop_left]

theorem afterBlanks?_eq_some_iff : afterBlanks? text = some rest ↔
    ∃ blanks, text = blanks ++ rest ∧ IsGap blanks ∧ ∀ c ∈ rest.head?, isBlank c = false := by
  constructor
  · intro h
    cases text with
    | nil => cases h
    | cons first text =>
      rw [afterBlanks?] at h
      split at h
      · rename_i hfirst
        obtain rfl := Option.some.inj h
        refine ⟨first :: text.takeWhile isBlank, ?_, ⟨List.cons_ne_nil _ _, ?_⟩, ?_⟩
        · rw [List.cons_append, List.takeWhile_append_dropWhile]
        · exact List.forall_mem_cons.mpr ⟨hfirst, fun c => List.mem_takeWhile_imp⟩
        · exact eq_false_of_mem_head?_dropWhile
      · cases h
  · rintro ⟨blanks, rfl, hblanks, hrest⟩
    obtain ⟨first, others, rfl⟩ := List.exists_cons_of_ne_nil hblanks.ne_nil
    obtain ⟨hfirst, hothers⟩ := List.forall_mem_cons.mp hblanks.isBlank
    rw [List.cons_append, afterBlanks?, if_pos hfirst, dropWhile_append_of_forall hothers hrest]

/-- What follows a word and blanks. -/
theorem bind_afterBlanks?_eq_some_iff :
    (afterWord? word text).bind afterBlanks? = some rest ↔
      ∃ blanks, text = word ++ blanks ++ rest ∧ IsGap blanks ∧
        ∀ c ∈ rest.head?, isBlank c = false := by
  simp only [Option.bind_eq_some_iff, afterWord?_eq_some_iff, afterBlanks?_eq_some_iff]
  constructor
  · rintro ⟨_, rfl, blanks, rfl, hblanks, hrest⟩
    exact ⟨blanks, (List.append_assoc _ _ _).symm, hblanks, hrest⟩
  · rintro ⟨blanks, rfl, hblanks, hrest⟩
    exact ⟨blanks ++ rest, List.append_assoc _ _ _, blanks, rfl, hblanks, hrest⟩

/-! ### Declarations -/

/-- The text declares a name with a word. What may stand between the two is given. -/
def IsDeclaration (word : List Char) (IsModifier : List Char → Prop) (text : List Char) : Prop :=
  ∃ blanks modifier name behind,
    text = word ++ blanks ++ (modifier ++ (name ++ behind ++ [';'])) ∧ IsGap blanks ∧
      IsModifier modifier ∧ IsDottedName name ∧ ∀ c ∈ behind, isBlank c = true

/-- Nothing, or the word `static` with blanks behind it. -/
def IsStatic (text : List Char) : Prop :=
  text = [] ∨ ∃ blanks, IsGap blanks ∧ text = "static".toList ++ blanks

theorem isPackage_iff :
    isPackage text = true ↔ IsDeclaration "package".toList (· = []) text := by
  rw [isPackage]
  constructor
  · intro h
    split at h
    · cases h
    · rename_i rest hrest
      obtain ⟨blanks, rfl, hblanks, -⟩ := bind_afterBlanks?_eq_some_iff.mp hrest
      obtain ⟨name, behind, rfl, hname, hbehind⟩ := isNameEnd_iff.mp h
      exact ⟨blanks, [], name, behind, rfl, hblanks, rfl, hname, hbehind⟩
  · rintro ⟨blanks, _, name, behind, rfl, hblanks, rfl, hname, hbehind⟩
    have hhead := hname.isBlank_head? (behind ++ [';'])
    rw [← List.append_assoc] at hhead
    rw [List.nil_append, bind_afterBlanks?_eq_some_iff.mpr ⟨blanks, rfl, hblanks, hhead⟩]
    exact isNameEnd_iff.mpr ⟨name, behind, rfl, hname, hbehind⟩

theorem isImport_iff : isImport text = true ↔ IsDeclaration "import".toList IsStatic text := by
  rw [isImport]
  constructor
  · intro h
    split at h
    · cases h
    · rename_i rest hrest
      obtain ⟨blanks, rfl, hblanks, -⟩ := bind_afterBlanks?_eq_some_iff.mp hrest
      rcases Bool.or_eq_true_iff.mp h with hend | hstatic
      · obtain ⟨name, behind, rfl, hname, hbehind⟩ := isNameEnd_iff.mp hend
        exact ⟨blanks, [], name, behind, rfl, hblanks, .inl rfl, hname, hbehind⟩
      · split at hstatic
        · cases hstatic
        · rename_i later hend
          obtain ⟨others, rfl, hothers, -⟩ := bind_afterBlanks?_eq_some_iff.mp hend
          obtain ⟨name, behind, rfl, hname, hbehind⟩ := isNameEnd_iff.mp hstatic
          exact ⟨blanks, _, name, behind, rfl, hblanks, .inr ⟨others, hothers, rfl⟩, hname, hbehind⟩
  · rintro ⟨blanks, modifier, name, behind, rfl, hblanks, hmodifier, hname, hbehind⟩
    have hend : isNameEnd (name ++ behind ++ [';']) = true :=
      isNameEnd_iff.mpr ⟨name, behind, rfl, hname, hbehind⟩
    have hhead := hname.isBlank_head? (behind ++ [';'])
    rw [← List.append_assoc] at hhead
    rcases hmodifier with rfl | ⟨others, hothers, rfl⟩
    · rw [List.nil_append, bind_afterBlanks?_eq_some_iff.mpr ⟨blanks, rfl, hblanks, hhead⟩]
      exact Bool.or_eq_true_iff.mpr (.inl hend)
    · have hstatic : ∀ c ∈ ("static".toList ++ others ++ (name ++ behind ++ [';'])).head?,
          isBlank c = false := by
        rintro _ ⟨⟩
        decide
      rw [bind_afterBlanks?_eq_some_iff.mpr ⟨blanks, rfl, hblanks, hstatic⟩]
      refine Bool.or_eq_true_iff.mpr (.inr ?_)
      rw [bind_afterBlanks?_eq_some_iff.mpr ⟨others, rfl, hothers, hhead⟩]
      exact hend

/-! ### Lines -/

/-- The line is a text of some kind, but for a carriage return at its end. -/
def FillsLine (IsText : List Char → Prop) (line : List Char) : Prop :=
  ∃ text ending, line = text ++ ending ∧ IsText text ∧ (ending = [] ∨ ending = ['\r'])

/-- The carriage return at the end of a line is dropped from no declaration. -/
theorem isDeclaration_dropReturn_iff {IsModifier : List Char → Prop} :
    IsDeclaration word IsModifier (dropReturn line) ↔
      FillsLine (IsDeclaration word IsModifier) line := by
  constructor
  · intro h
    rcases eq_dropReturn_or line with hline | hline
    · exact ⟨_, [], by rwa [List.append_nil], h, .inl rfl⟩
    · exact ⟨_, _, hline, h, .inr rfl⟩
  · rintro ⟨text, ending, rfl, h, rfl | rfl⟩
    · obtain ⟨blanks, modifier, name, behind, rfl, -⟩ := id h
      rwa [List.append_nil, dropReturn, if_neg]
      rw [← List.append_assoc, ← List.append_assoc, List.getLast?_concat]
      decide
    · rwa [dropReturn, List.getLast?_concat, if_pos rfl, List.dropLast_concat]

/-- The lines that are recognised are those that declare something. No line is recognised both as a
package declaration and as an import declaration. -/
theorem recognizes_declarations (line : List Char) :
    (isImportLine line = true ↔
      FillsLine (IsDeclaration "import".toList IsStatic) line) ∧
    (isPackageLine line = true ↔
      FillsLine (IsDeclaration "package".toList (· = [])) line) ∧
    ¬(isImportLine line = true ∧ isPackageLine line = true) := by
  refine ⟨isImport_iff.trans isDeclaration_dropReturn_iff,
    isPackage_iff.trans isDeclaration_dropReturn_iff, fun ⟨himport, hpackage⟩ => ?_⟩
  rw [isPackageLine_of_isImportLine himport] at hpackage
  cases hpackage

end Sketch

end SketchApk
