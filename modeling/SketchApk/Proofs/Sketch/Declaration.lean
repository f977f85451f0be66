import SketchApk.Proofs.Text.Trim
import SketchApk.Sketch.Unit

/-!
# The ends of a declaration

A line that is recognised as a declaration begins with the word of the declaration and ends with its
semicolon, but for one carriage return. So no line is both an import and a package declaration, and
trimming such a line takes nothing but the carriage return away.

## Main definitions

* `Sketch.IsFramed` : the texts that begin and end as a declaration does.

## Main statements

* `Sketch.trim_of_isImportLine`, `Sketch.trim_of_isPackageLine` : what is trimmed off a declaration.
* `Sketch.isPackageLine_of_isImportLine` : no line is both.
* `Sketch.isImportLine_of_isImport`, `Sketch.isPackageLine_of_isPackage` : a declaration fills a line
  without a carriage return too.
-/

namespace SketchApk

namespace Text

theorem eq_dropReturn_or (line : List Char) :
    line = dropReturn line ∨ line = dropReturn line ++ ['\r'] := by
  rw [dropReturn]
  split
  · rename_i hreturn
    obtain ⟨front, rfl⟩ := List.getLast?_eq_some_iff.mp hreturn
    simp
  · exact .inl rfl

theorem dropReturn_subset (line : List Char) : dropReturn line ⊆ line := by
  rw [dropReturn]
  split
  · exact List.dropLast_subset line
  · exact List.Subset.refl line

/-- A blank at the end is trimmed off. -/
theorem trim_concat_of_isBlank {c : Char} (text : List Char) (h : isBlank c = true) :
    trim (text ++ [c]) = trim text := by
  rw [trim, trim, trimStart, trimStart, List.dropWhile_append, List.dropWhile_cons_of_pos h]
  split
  · rename_i hempty
    rw [List.isEmpty_iff.mp hempty]
    rfl
  · rw [trimEnd, List.reverse_concat, List.dropWhile_cons_of_pos h, trimEnd]

/-- Trimming does not need a carriage return to be dropped before. -/
theorem trim_dropReturn (line : List Char) : trim (dropReturn line) = trim line := by
  rcases eq_dropReturn_or line with hline | hline
  · rw [← hline]
  · rw [hline, trim_concat_of_isBlank _ (by decide), ← hline]

end Text

namespace Sketch

open Text

/-- The text begins with a word and ends with a semicolon. -/
def IsFramed (word text : List Char) : Prop :=
  word <+: text ∧ [';'] <:+ text

theorem IsFramed.trim_eq_self {c : Char} {word text : List Char} (h : IsFramed (c :: word) text)
    (hc : isBlank c = false) : trim text = text := by
  obtain ⟨⟨rest, hrest⟩, front, hfront⟩ := h
  rw [trim_eq_self_iff]
  constructor
  · rw [← hrest]
    simpa using hc
  · rw [← hfront, List.getLast?_concat]
    rintro _ ⟨⟩
    decide

/-- What follows blanks is at the end of a text. -/
theorem isSuffix_of_afterBlanks? {text rest : List Char} (h : afterBlanks? text = some rest) :
    rest <:+ text := by
  cases text with
  | nil => cases h
  | cons c text =>
    rw [afterBlanks?] at h
    split at h
    · rw [← Option.some.inj h]
      exact (List.dropWhile_suffix isBlank).trans (List.suffix_cons c text)
    · cases h

/-- What follows a word and blanks is at the end of a text that begins with the word. -/
theorem of_afterWord? {word text rest : List Char}
    (h : (afterWord? word text).bind afterBlanks? = some rest) : word <+: text ∧ rest <:+ text := by
  obtain ⟨later, hlater, hrest⟩ := Option.bind_eq_some_iff.mp h
  rw [afterWord?] at hlater
  split at hlater
  · rename_i hword
    obtain rfl := Option.some.inj hlater
    exact ⟨List.isPrefixOf_iff_prefix.mp hword,
      (isSuffix_of_afterBlanks? hrest).trans (List.drop_suffix _ text)⟩
  · cases hlater

theorem isSuffix_of_isNameEnd {text : List Char} (h : isNameEnd text = true) : [';'] <:+ text := by
  rw [isNameEnd, Bool.and_eq_true, decide_eq_true_iff, decide_eq_true_iff] at h
  rw [← h.2]
  exact (List.dropWhile_suffix isBlank).trans (List.dropWhile_suffix isNameCharacter)

theorem isFramed_of_isImport {text : List Char} (h : isImport text = true) :
    IsFramed "import".toList text := by
  rw [isImport] at h
  split at h
  · cases h
  · rename_i rest hrest
    obtain ⟨hword, hsuffix⟩ := of_afterWord? hrest
    refine ⟨hword, ?_⟩
    rcases Bool.or_eq_true_iff.mp h with hname | hstatic
    · exact (isSuffix_of_isNameEnd hname).trans hsuffix
    · split at hstatic
      · cases hstatic
      · rename_i name hname
        exact ((isSuffix_of_isNameEnd hstatic).trans (of_afterWord? hname).2).trans hsuffix

theorem isFramed_of_isPackage {text : List Char} (h : isPackage text = true) :
    IsFramed "package".toList text := by
  rw [isPackage] at h
  split at h
  · cases h
  · rename_i rest hrest
    obtain ⟨hword, hsuffix⟩ := of_afterWord? hrest
    exact ⟨hword, (isSuffix_of_isNameEnd h).trans hsuffix⟩

/-- Trimming an import declaration drops a carriage return at most. -/
theorem trim_of_isImportLine {line : List Char} (h : isImportLine line = true) :
    trim line = dropReturn line := by
  rw [← trim_dropReturn]
  exact (isFramed_of_isImport h).trim_eq_self (by decide)

/-- Trimming a package declaration drops a carriage return at most. -/
theorem trim_of_isPackageLine {line : List Char} (h : isPackageLine line = true) :
    trim line = dropReturn line := by
  rw [← trim_dropReturn]
  exact (isFramed_of_isPackage h).trim_eq_self (by decide)

/-- The texts that begin with one word do not begin with another one. -/
theorem not_isPrefix_of_isPrefix {word other text : List Char} (h : word <+: text)
    (hword : ¬ word <+: other) (hother : ¬ other <+: word) : ¬ other <+: text := fun hbegins =>
  (List.prefix_or_prefix_of_prefix h hbegins).elim hword hother

/-- An import declaration is not a package declaration. -/
theorem isPackageLine_of_isImportLine {line : List Char} (h : isImportLine line = true) :
    isPackageLine line = false := by
  rw [Bool.eq_false_iff]
  intro hpackage
  exact not_isPrefix_of_isPrefix (isFramed_of_isImport h).1 (by decide) (by decide)
    (isFramed_of_isPackage hpackage).1

/-! ### The same line without a carriage return -/

/-- A carriage return is dropped once. -/
theorem IsFramed.dropReturn_eq_self {word text : List Char} (h : IsFramed word text) :
    dropReturn text = text := by
  obtain ⟨front, rfl⟩ := h.2
  rw [dropReturn, List.getLast?_concat, if_neg (by decide)]

/-- A text that is an import declaration fills a line. -/
theorem isImportLine_of_isImport {text : List Char} (h : isImport text = true) :
    isImportLine text = true := by
  rwa [isImportLine, (isFramed_of_isImport h).dropReturn_eq_self]

/-- A text that is a package declaration fills a line. -/
theorem isPackageLine_of_isPackage {text : List Char} (h : isPackage text = true) :
    isPackageLine text = true := by
  rwa [isPackageLine, (isFramed_of_isPackage h).dropReturn_eq_self]

theorem isPackageLine_dropReturn_of_isImportLine {line : List Char} (h : isImportLine line = true) :
    isPackageLine (dropReturn line) = false :=
  isPackageLine_of_isImportLine (isImportLine_of_isImport h)

/-! ### The beginning of a line -/

/-- What begins a line without its carriage return begins the line. -/
theorem isPrefix_of_isPrefix_dropReturn {word line : List Char} (h : word <+: dropReturn line) :
    word <+: line := by
  rcases eq_dropReturn_or line with hline | hline
  · rwa [hline]
  · rw [hline]
    exact h.trans (List.prefix_append _ _)

/-- A package declaration begins with its word. -/
theorem isPackageLine_of_not_isPrefix {line : List Char} (h : ¬ "package".toList <+: line) :
    isPackageLine line = false :=
  Bool.eq_false_iff.mpr fun hpackage =>
    h (isPrefix_of_isPrefix_dropReturn (isFramed_of_isPackage hpackage).1)

/-- An import declaration begins with its word. -/
theorem isImportLine_of_not_isPrefix {line : List Char} (h : ¬ "import".toList <+: line) :
    isImportLine line = false :=
  Bool.eq_false_iff.mpr fun himport =>
    h (isPrefix_of_isPrefix_dropReturn (isFramed_of_isImport himport).1)

end Sketch

end SketchApk
