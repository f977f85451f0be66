import SketchApk.Config.Property
import SketchApk.Proofs.Text.Trim

/-!
# Reading properties back

Entries that were written line by line are read back with their keys. A value comes back as it was,
unless it begins with a blank that is written as it is: reading drops such blanks together with the
blanks behind them.

## Main definitions

* `Properties.isBareBlank`, `Properties.IsFirm` : blanks that are written as they are, and texts
  that do not begin with one.
* `Properties.kept` : what is read back of a value.
* `Properties.IsPlain` : characters of keys that need no care.

## Main statements

* `Properties.kept_eq_self_iff` : the values that come back as they were.
* `Properties.parse_flatMap_writeEntry` : the entries that are read back.
-/

namespace SketchApk.Properties

open Text

/-! ### Values -/

/-- A blank that is written as it is, also in front of a text. -/
def isBareBlank (c : Char) : Bool :=
  isBlank c && c ∉ [' ', '\t', '\n', '\r']

/-- The text does not begin with a blank that is written as it is. -/
def IsFirm (text : List Char) : Prop :=
  ∀ c ∈ text.head?, isBareBlank c = false

/-- What is read back of a value. -/
def kept (text : List Char) : List Char :=
  unescape (trimStart (escape text))

/-- A blank that is dropped at the start of a spelling. -/
def isDropped (c : Char) : Bool :=
  isBlank c && c ∉ ['\t', '\n', '\r']

theorem isBlank_of_isDropped (c : Char) (h : isDropped c = true) : isBlank c = true :=
  (Bool.and_eq_true_iff.mp h).1

theorem escapeCharacter_of_forall {c : Char} (h : c ∉ ['\\', '\n', '\r', '\t']) :
    escapeCharacter c = [c] := by
  simp only [List.mem_cons, List.not_mem_nil, or_false, not_or] at h
  rw [escapeCharacter] <;> simp [h]

theorem escapeCharacter_of_isDropped {c : Char} (h : isDropped c = true) :
    escapeCharacter c = [c] := by
  refine escapeCharacter_of_forall fun hmem => ?_
  simp only [List.mem_cons, List.not_mem_nil, or_false] at hmem
  rcases hmem with rfl | rfl | rfl | rfl <;> exact absurd h (by decide)

theorem trimStart_escapeCharacter {c : Char} (h : isDropped c = false) (rest : List Char) :
    trimStart (escapeCharacter c ++ rest) = escapeCharacter c ++ rest := by
  by_cases hmem : c ∈ ['\\', '\n', '\r', '\t']
  · simp only [List.mem_cons, List.not_mem_nil, or_false] at hmem
    rcases hmem with rfl | rfl | rfl | rfl <;> exact trimStart_cons_of_not_isBlank _ (by decide)
  · rw [escapeCharacter_of_forall hmem]
    refine trimStart_cons_of_not_isBlank _ ?_
    simp only [List.mem_cons, List.not_mem_nil, or_false, not_or] at hmem
    simpa [isDropped, hmem] using h

/-- Trimming a spelling drops blanks of the text. -/
theorem trimStart_flatMap_escapeCharacter (text : List Char) :
    trimStart (text.flatMap escapeCharacter) =
      (text.dropWhile isDropped).flatMap escapeCharacter := by
  induction text with
  | nil => rfl
  | cons c rest ih =>
    cases hc : isDropped c with
    | true =>
      rw [List.flatMap_cons, List.dropWhile_cons_of_pos hc, escapeCharacter_of_isDropped hc, ← ih]
      exact trimStart_cons_of_isBlank _ (isBlank_of_isDropped c hc)
    | false =>
      rw [List.dropWhile_cons_of_neg (by simp [hc]), List.flatMap_cons,
        trimStart_escapeCharacter hc]

theorem unescape_cons {c : Char} (h : c ≠ '\\') (rest : List Char) :
    unescape (c :: rest) = c :: unescape rest := by
  rw [unescape] <;> simp_all

theorem unescape_escapeCharacter (c : Char) (rest : List Char) :
    unescape (escapeCharacter c ++ rest) = c :: unescape rest := by
  by_cases hmem : c ∈ ['\\', '\n', '\r', '\t']
  · simp only [List.mem_cons, List.not_mem_nil, or_false] at hmem
    rcases hmem with rfl | rfl | rfl | rfl <;> rfl
  · rw [escapeCharacter_of_forall hmem]
    simp only [List.mem_cons, List.not_mem_nil, or_false, not_or] at hmem
    exact unescape_cons hmem.1 rest

/-- A spelling stands for the text that it spells. -/
theorem unescape_flatMap_escapeCharacter (text : List Char) :
    unescape (text.flatMap escapeCharacter) = text := by
  induction text with
  | nil => rfl
  | cons c rest ih => rw [List.flatMap_cons, unescape_escapeCharacter, ih]

theorem escape_of_ne_space {text : List Char} (h : text.head? ≠ some ' ') :
    escape text = text.flatMap escapeCharacter := by
  rw [escape]
  rintro rest rfl
  exact h rfl

/-- A text that begins with a space comes back as it was. -/
theorem kept_cons_space (rest : List Char) : kept (' ' :: rest) = ' ' :: rest := by
  have htrim := trimStart_cons_of_not_isBlank (c := '\\') (' ' :: rest.flatMap escapeCharacter)
    (by decide)
  rw [kept, escape, htrim]
  exact congrArg (' ' :: ·) (unescape_flatMap_escapeCharacter rest)

/-- Any other text comes back without its leading blanks, except for control characters. -/
theorem kept_of_ne_space {text : List Char} (h : text.head? ≠ some ' ') :
    kept text = text.dropWhile isDropped := by
  rw [kept, escape_of_ne_space h, trimStart_flatMap_escapeCharacter,
    unescape_flatMap_escapeCharacter]

/-- What is read back of a value is the value without some leading blanks. -/
theorem exists_kept (text : List Char) : ∃ p : Char → Bool,
    (∀ c, p c = true → isBlank c = true) ∧ kept text = text.dropWhile p := by
  by_cases h : text.head? = some ' '
  · obtain ⟨rest, rfl⟩ := List.head?_eq_some_iff.mp h
    exact ⟨fun _ => false, by simp, by simp [kept_cons_space]⟩
  · exact ⟨isDropped, isBlank_of_isDropped, kept_of_ne_space h⟩

/-- A value comes back as it was if and only if it does not begin with a blank that is written as it
is. -/
theorem kept_eq_self_iff {text : List Char} : kept text = text ↔ IsFirm text := by
  by_cases h : text.head? = some ' '
  · obtain ⟨rest, rfl⟩ := List.head?_eq_some_iff.mp h
    simp [kept_cons_space, IsFirm, isBareBlank]
  · rw [kept_of_ne_space h, dropWhile_eq_self_iff, IsFirm]
    refine forall₂_congr fun c hc => ?_
    have hspace : c ≠ ' ' := fun hspace => h (hspace ▸ hc)
    simp [isDropped, isBareBlank, hspace]

/-! ### Lines -/

/-- A character that a key may consist of. -/
def IsPlain (c : Char) : Prop :=
  isBlank c = false ∧ c ∉ ['=', '\\', '#', '!']

instance : DecidablePred IsPlain := fun _ => inferInstanceAs (Decidable (_ ∧ _))

/-- The line of an entry without its end. -/
def entryLine (entry : String × String) : List Char :=
  entry.1.toList ++ '=' :: escape entry.2.toList

theorem unescape_of_forall {text : List Char} (h : ∀ c ∈ text, IsPlain c) :
    unescape text = text := by
  induction text with
  | nil => rfl
  | cons c rest ih =>
    obtain ⟨hc, hrest⟩ := List.forall_mem_cons.mp h
    rw [unescape_cons (fun hslash => hc.2 (by simp [hslash])), ih hrest]

/-- A line is cut behind its key. -/
theorem splitAtEquals?_append {key : List Char} (h : ∀ c ∈ key, IsPlain c) (rest : List Char) :
    splitAtEquals? false (key ++ '=' :: rest) = some (key, rest) := by
  induction key with
  | nil => rfl
  | cons c key ih =>
    obtain ⟨hc, hkey⟩ := List.forall_mem_cons.mp h
    have hequals : c ≠ '=' := fun hequals => hc.2 (by simp [hequals])
    have hslash : c ≠ '\\' := fun hslash => hc.2 (by simp [hslash])
    simp [splitAtEquals?, hequals, hslash, ih hkey]

/-- The entry that is read from the line of an entry. -/
theorem readEntry?_entryLine {entry : String × String} (h : ∀ c ∈ entry.1.toList, IsPlain c) :
    readEntry? (entryLine entry) = some (entry.1, String.ofList (kept entry.2.toList)) := by
  unfold readEntry? entryLine
  rw [splitAtEquals?_append h, Option.map_some,
    trim_eq_self_of_forall fun c hc => (h c hc).1, unescape_of_forall h, String.ofList_toList]
  rfl

/-- The line of an entry begins with its key. -/
theorem exists_entryLine_eq_cons {entry : String × String} (hkey : entry.1 ≠ "")
    (h : ∀ c ∈ entry.1.toList, IsPlain c) : ∃ c rest, entryLine entry = c :: rest ∧ IsPlain c := by
  cases hlist : entry.1.toList with
  | nil => exact absurd (String.toList_eq_nil_iff.mp hlist) hkey
  | cons c rest =>
    rw [entryLine, hlist]
    exact ⟨c, _, rfl, h c (by simp [hlist])⟩

/-- A key that is read back as it was written. -/
def IsPlainKey (key : String) : Prop :=
  key ≠ "" ∧ ∀ c ∈ key.toList, IsPlain c

instance : DecidablePred IsPlainKey := fun key =>
  @instDecidableAnd _ _ _ (List.decidableBAll IsPlain key.toList)

/-- Add entries as they are read back. -/
def insertKept (entries : List (String × String)) (properties : Properties) : Properties :=
  entries.foldl (fun found entry => found.insert entry.1 (String.ofList (kept entry.2.toList)))
    properties

theorem parseLines_map_entryLine {entries : List (String × String)}
    (h : ∀ entry ∈ entries, IsPlainKey entry.1) (number : Nat) (properties : Properties) :
    parseLines number (entries.map entryLine) properties = .ok (insertKept entries properties) := by
  induction entries generalizing number properties with
  | nil => rfl
  | cons entry entries ih =>
    obtain ⟨⟨hkey, hplain⟩, hentries⟩ := List.forall_mem_cons.mp h
    obtain ⟨c, rest, hline, hc⟩ := exists_entryLine_eq_cons hkey hplain
    have htrim : trimStart (entryLine entry) = entryLine entry := by
      rw [hline, trimStart_cons_of_not_isBlank rest hc.1]
    have hpassed : isPassedOver (entryLine entry) = false := by
      have hcomment := hc.2
      simp only [List.mem_cons, List.not_mem_nil, or_false, not_or] at hcomment
      simp [hline, isPassedOver, hcomment]
    rw [List.map_cons, parseLines]
    simp only [htrim, hpassed, readEntry?_entryLine hplain]
    exact ih hentries (number + 1) _

/-- A spelling has no line break in it. -/
theorem forall_mem_escape (text : List Char) : ∀ c ∈ escape text, c ∉ ['\n', '\r'] := by
  have hcharacter (c : Char) : ∀ d ∈ escapeCharacter c, d ∉ ['\n', '\r'] := by
    by_cases hmem : c ∈ ['\\', '\n', '\r', '\t']
    · simp only [List.mem_cons, List.not_mem_nil, or_false] at hmem
      rcases hmem with rfl | rfl | rfl | rfl <;> simp [escapeCharacter]
    · rw [escapeCharacter_of_forall hmem]
      simp only [List.mem_cons, List.not_mem_nil, or_false, not_or] at hmem ⊢
      rintro d rfl
      exact ⟨hmem.2.1, hmem.2.2.1⟩
  have hflat (rest : List Char) : ∀ c ∈ rest.flatMap escapeCharacter, c ∉ ['\n', '\r'] := by
    intro c hc
    obtain ⟨d, -, hd⟩ := List.mem_flatMap.mp hc
    exact hcharacter d c hd
  by_cases h : text.head? = some ' '
  · obtain ⟨rest, rfl⟩ := List.head?_eq_some_iff.mp h
    exact List.forall_mem_cons.mpr ⟨by decide, List.forall_mem_cons.mpr ⟨by decide, hflat rest⟩⟩
  · rw [escape_of_ne_space h]
    exact hflat text

/-- The line of an entry has no line break in it. -/
theorem forall_mem_entryLine {entry : String × String} (h : ∀ c ∈ entry.1.toList, IsPlain c) :
    ∀ c ∈ entryLine entry, c ∉ ['\n', '\r'] := by
  intro c hc
  rcases List.mem_append.mp hc with hc | hc
  · intro hbreak
    simp only [List.mem_cons, List.not_mem_nil, or_false] at hbreak
    rcases hbreak with rfl | rfl <;> exact absurd (h _ hc).1 (by decide)
  · rcases List.mem_cons.mp hc with rfl | hc
    · decide
    · exact forall_mem_escape _ c hc

/-- The entries that are read back from a comment with entries behind it. -/
theorem parse_flatMap_writeEntry {entries : List (String × String)}
    (h : ∀ entry ∈ entries, IsPlainKey entry.1) {comment : List Char} (hcomment : '\n' ∉ comment)
    (hreturn : comment.getLast? ≠ some '\r') (hpassed : isPassedOver (trimStart comment) = true) :
    parse (String.ofList (comment ++ '\n' :: entries.flatMap writeEntry)) =
      .ok (insertKept entries ∅) := by
  have hlines : comment ++ '\n' :: entries.flatMap writeEntry =
      (comment :: entries.map entryLine).flatMap (· ++ ['\n']) := by
    rw [List.flatMap_cons, List.flatMap_map, List.append_assoc]
    rfl
  have hends : ∀ line ∈ comment :: entries.map entryLine,
      '\n' ∉ line ∧ line.getLast? ≠ some '\r' := by
    refine List.forall_mem_cons.mpr ⟨⟨hcomment, hreturn⟩, List.forall_mem_map.mpr ?_⟩
    intro entry hentry
    have hbreak := forall_mem_entryLine (h entry hentry).2
    exact ⟨fun hmem => hbreak _ hmem (by simp),
      fun hlast => hbreak _ (List.mem_of_getLast? hlast) (by simp)⟩
  rw [parse, String.toList_ofList, hlines, lines_flatMap hends, parseLines]
  simp only [hpassed, if_true]
  exact parseLines_map_entryLine h 2 ∅

/-! ### Entries by key -/

/-- Of entries with different keys each is found again. -/
theorem getElem?_insertKept {entries : List (String × String)}
    (hnodup : (entries.map Prod.fst).Nodup) (properties : Properties) (key : String) :
    (insertKept entries properties)[key]? =
      ((entries.lookup key).map fun value => String.ofList (kept value.toList)).or
        properties[key]? := by
  induction entries generalizing properties with
  | nil => rfl
  | cons entry entries ih =>
    obtain ⟨name, value⟩ := entry
    rw [List.map_cons, List.nodup_cons] at hnodup
    rw [insertKept, List.foldl_cons]
    refine (ih hnodup.2 _).trans ?_
    rw [Std.ExtTreeMap.getElem?_insert, List.lookup_cons]
    by_cases hkey : name = key
    · subst hkey
      have hnone : entries.lookup name = none :=
        List.lookup_eq_none_iff.mpr fun other hother => by
          have hne : name ≠ other.1 := fun heq =>
            hnodup.1 (List.mem_map.mpr ⟨other, hother, heq.symm⟩)
          simp [hne]
      simp [hnone]
    · have hkey' : (key == name) = false := by simp [Ne.symm hkey]
      simp [hkey, hkey']

/-- The keys are those of the entries and those that were there before. -/
theorem mem_insertKept (entries : List (String × String)) (properties : Properties) (key : String) :
    key ∈ insertKept entries properties ↔ key ∈ entries.map Prod.fst ∨ key ∈ properties := by
  induction entries generalizing properties with
  | nil => simp [insertKept]
  | cons entry entries ih =>
    rw [insertKept, List.foldl_cons]
    refine (ih _).trans ?_
    rw [Std.ExtTreeMap.mem_insert, Std.compare_eq_iff_eq, List.map_cons, List.mem_cons, or_assoc,
      eq_comm (a := key)]
    exact or_left_comm

/-- Each entry is counted. -/
theorem size_insertKept {entries : List (String × String)} (hnodup : (entries.map Prod.fst).Nodup)
    (properties : Properties) (hnew : ∀ entry ∈ entries, entry.1 ∉ properties) :
    (insertKept entries properties).size = entries.length + properties.size := by
  induction entries generalizing properties with
  | nil => simp [insertKept]
  | cons entry entries ih =>
    rw [List.map_cons, List.nodup_cons] at hnodup
    obtain ⟨hentry, hnew⟩ := List.forall_mem_cons.mp hnew
    rw [insertKept, List.foldl_cons]
    refine (ih hnodup.2 _ fun other hother => ?_).trans ?_
    · have hne : entry.1 ≠ other.1 := fun heq =>
        hnodup.1 (List.mem_map.mpr ⟨other, hother, heq.symm⟩)
      rw [Std.ExtTreeMap.mem_insert]
      simp [hne, hnew other hother]
    · rw [Std.ExtTreeMap.size_insert, if_neg (mt Std.ExtTreeMap.mem_iff_contains.mpr hentry),
        List.length_cons]
      omega

end SketchApk.Properties
