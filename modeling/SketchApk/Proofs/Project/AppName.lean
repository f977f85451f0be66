import SketchApk.Proofs.Project.Fresh

/-!
# The name of an application as a string resource

A new project has a table of strings in which the application is given the name of the project. What
stands between the tags of that string is text without markup. Two kinds of spellings are resolved
when it is read: first the references that markup has for an ampersand and for angle brackets, then
a backslash with a character behind it, which stands for that character. A quote or an apostrophe
would have a meaning of its own without a backslash in front.

When the name is written, a backslash in it stays as it is. So the text says the name if and only if
there is no backslash in the name, and names with backslashes are refused.

## Main definitions

* `StringResource.body?` : what stands between the tags of a string.
* `StringResource.resolveReferences`, `StringResource.resolveBackslashes` : reading the text.
* `StringResource.Spells` : a text is well-formed and is read as a name.

## Main statements

* `StringResource.spells_resourceText_iff` : the names that are said by what is written of them.
* `Project.strings_say_name` : the table of strings of a project says the name of the project.
-/

namespace SketchApk

namespace StringResource

/-! ### Reading -/

/-- A text cut at the first place where a pattern stands, with the pattern taken out. -/
def cut? (pattern : List Char) : List Char → Option (List Char × List Char)
  | [] => none
  | c :: rest =>
    if pattern.isPrefixOf (c :: rest) then some ([], (c :: rest).drop pattern.length)
    else (cut? pattern rest).map fun parts => (c :: parts.1, parts.2)

/-- What stands between the tags of the string of a name. -/
def body? (name : String) (document : String) : Option (List Char) :=
  (cut? ("<string name=\"" ++ name ++ "\">").toList document.toList).bind fun outside =>
    (cut? "</string>".toList outside.2).map Prod.fst

/-- What follows the ampersand of a reference, with the character that is referred to. -/
def references : List (List Char × Char) :=
  [("amp;".toList, '&'), ("lt;".toList, '<'), ("gt;".toList, '>')]

/-- A text with each reference resolved to the character that it refers to. -/
def resolveReferences : List Char → List Char
  | '&' :: 'a' :: 'm' :: 'p' :: ';' :: rest => '&' :: resolveReferences rest
  | '&' :: 'l' :: 't' :: ';' :: rest => '<' :: resolveReferences rest
  | '&' :: 'g' :: 't' :: ';' :: rest => '>' :: resolveReferences rest
  | c :: rest => c :: resolveReferences rest
  | [] => []

/-- A text in which a backslash with a character behind it is resolved to that character. A
backslash at the end stands for nothing. -/
def resolveBackslashes : List Char → List Char
  | '\\' :: c :: rest => c :: resolveBackslashes rest
  | ['\\'] => []
  | c :: rest => c :: resolveBackslashes rest
  | [] => []

/-- The quote and the apostrophe, which have a meaning of their own. -/
def isMark (c : Char) : Bool :=
  c = '"' || c = '\''

/-- In a text there is a backslash in front of every quote and of every apostrophe. -/
def marksAreEscaped : List Char → Bool
  | '\\' :: _ :: rest => marksAreEscaped rest
  | c :: rest => !isMark c && marksAreEscaped rest
  | [] => true

/-- In a text every ampersand begins a reference. -/
def AmpersandsRefer (text : List Char) : Prop :=
  ∀ rest, '&' :: rest <:+ text → ∃ reference ∈ references, reference.1 <+: rest

/-- A text is well-formed, and it is read as a name. -/
structure Spells (text : List Char) (name : String) : Prop where
  /-- No tag begins in the text. -/
  not_mem : '<' ∉ text
  ampersands : AmpersandsRefer text
  marks : marksAreEscaped text = true
  resolved : resolveBackslashes (resolveReferences text) = name.toList

/-- A document gives the application a name. -/
def SaysName (document name : String) : Prop :=
  ∃ text, body? "app_name" document = some text ∧ Spells text name

/-! ### Cutting a document -/

variable {c : Char} {pattern front rest : List Char}

theorem cut?_pattern_append (h : pattern ≠ []) :
    cut? pattern (pattern ++ rest) = some ([], rest) := by
  obtain ⟨c, behind, rfl⟩ := List.exists_cons_of_ne_nil h
  have hprefix : (c :: behind).isPrefixOf (c :: (behind ++ rest)) = true :=
    List.isPrefixOf_iff_prefix.mpr (List.prefix_append (c :: behind) rest)
  rw [List.cons_append, cut?, if_pos hprefix]
  simp

theorem cut?_cons (h : ¬pattern <+: c :: rest) :
    cut? pattern (c :: rest) = (cut? pattern rest).map fun parts => (c :: parts.1, parts.2) := by
  rw [cut?, if_neg (mt List.isPrefixOf_iff_prefix.mp h)]

/-- The first place of a pattern that begins with a character is behind a part without it. -/
theorem cut?_append_of_not_mem (h : c ∉ front) :
    cut? (c :: pattern) (front ++ (c :: pattern ++ rest)) = some (front, rest) := by
  induction front with
  | nil => exact cut?_pattern_append (List.cons_ne_nil c pattern)
  | cons first front ih =>
    rw [List.mem_cons, not_or] at h
    rw [List.cons_append, cut?_cons (by simp [List.cons_prefix_cons, h.1]), ih h.2]
    rfl

/-- The first place of a pattern is behind a part in which it cannot begin earlier. -/
theorem cut?_append_of_not_isInfix (h : ¬pattern <:+: front ++ pattern.dropLast)
    (hne : pattern ≠ []) : cut? pattern (front ++ (pattern ++ rest)) = some (front, rest) := by
  induction front with
  | nil => exact cut?_pattern_append hne
  | cons first front ih =>
    have hprefix : ¬pattern <+: first :: (front ++ (pattern ++ rest)) := by
      -- a pattern that begins earlier also ends earlier, before the end of the other one
      intro hprefix
      refine h (List.prefix_of_prefix_length_le hprefix ?_ ?_).isInfix
      · rw [List.cons_append, List.cons_prefix_cons, List.prefix_append_right_inj]
        exact ⟨rfl, (List.dropLast_prefix pattern).trans (List.prefix_append pattern rest)⟩
      · rw [List.length_append, List.length_cons, List.length_dropLast]
        omega
    have hfront : ¬pattern <:+: front ++ pattern.dropLast := fun hcontained =>
      h (hcontained.trans (List.suffix_cons first _).isInfix)
    rw [List.cons_append, cut?_cons hprefix, ih hfront]
    rfl

/-! ### The document -/

/-- What stands in front of the name in the document. -/
def opening : List Char :=
  "<?xml version=\"1.0\" encoding=\"utf-8\"?>\n<resources>\n    ".toList

/-- The tag in front of the name. -/
def tag : List Char :=
  "<string name=\"app_name\">".toList

/-- The document in which an application is given a name. -/
theorem toList_appName (name : String) : (Template.appName name).toList =
    opening ++ (tag ++ ((Template.resourceText name).toList ++
      ("</string>".toList ++ "\n</resources>\n".toList))) := by
  have htemplate : Template.appNameTemplate.toList = (opening ++ tag) ++
      ("%app_name%".toList ++ ("</string>".toList ++ "\n</resources>\n".toList)) := by
    decide +kernel
  have hpercent : "%app_name%".toList = '%' :: "app_name%".toList := by decide
  have hfront : '%' ∉ opening ++ tag := by decide +kernel
  have hback : '%' ∉ "</string>".toList ++ "\n</resources>\n".toList := by decide +kernel
  rw [Template.appName, Template.fill, List.foldl_cons, List.foldl_nil, Text.substituted,
    String.toList_ofList, htemplate, hpercent, Text.substitute_append hfront,
    Text.substitute_pattern_append (List.cons_ne_nil _ _), Text.substitute_eq_self hback,
    List.append_assoc]

/-! ### Characters -/

theorem resolveReferences_reference {reference : List Char × Char} (h : reference ∈ references)
    (rest : List Char) :
    resolveReferences ('&' :: reference.1 ++ rest) = reference.2 :: resolveReferences rest := by
  simp only [references, List.mem_cons, List.not_mem_nil, or_false] at h
  rcases h with rfl | rfl | rfl <;> rfl

theorem resolveReferences_cons (h : c ≠ '&') (rest : List Char) :
    resolveReferences (c :: rest) = c :: resolveReferences rest := by
  rw [resolveReferences] <;> simp [h]

theorem resolveBackslashes_cons (h : c ≠ '\\') (rest : List Char) :
    resolveBackslashes (c :: rest) = c :: resolveBackslashes rest := by
  rw [resolveBackslashes] <;> simp [h]

theorem marksAreEscaped_cons (h : c ≠ '\\') (rest : List Char) :
    marksAreEscaped (c :: rest) = (!isMark c && marksAreEscaped rest) := by
  rw [marksAreEscaped]
  simp [h]

/-- A character has no meaning of its own in a text. -/
def IsPlain (c : Char) : Prop :=
  c ∉ ['&', '<', '\\'] ∧ isMark c = false

instance : DecidablePred IsPlain := fun _ => inferInstanceAs (Decidable (_ ∧ _))

theorem ne_of_isMark {other : Char} (h : isMark c = true) (hother : isMark other = false) :
    c ≠ other := by
  rintro rfl
  rw [h] at hother
  cases hother

theorem isPlain_of_mem_reference {reference : List Char × Char} (h : reference ∈ references) :
    ∀ c ∈ reference.1, IsPlain c := by
  have hall : (references.all fun entry => entry.1.all fun c => IsPlain c) = true := by decide
  intro c hc
  exact of_decide_eq_true (List.all_eq_true.mp (List.all_eq_true.mp hall reference h) c hc)

theorem isMark_of_mem_reference {reference : List Char × Char} (h : reference ∈ references) :
    reference.2 ≠ '\\' ∧ isMark reference.2 = false := by
  revert reference
  decide

theorem marksAreEscaped_append (h : ∀ c ∈ front, IsPlain c) (rest : List Char) :
    marksAreEscaped (front ++ rest) = marksAreEscaped rest := by
  induction front with
  | nil => rfl
  | cons first front ih =>
    obtain ⟨⟨hspecial, hmark⟩, hfront⟩ := List.forall_mem_cons.mp h
    have hslash : first ≠ '\\' := fun heq => hspecial (by simp [heq])
    rw [List.cons_append, marksAreEscaped_cons hslash, hmark, ih hfront]
    rfl

theorem AmpersandsRefer.cons (h : AmpersandsRefer rest)
    (hc : c = '&' → ∃ reference ∈ references, reference.1 <+: rest) :
    AmpersandsRefer (c :: rest) := by
  intro behind hsuffix
  rcases List.suffix_cons_iff.mp hsuffix with heq | hrest
  · obtain ⟨rfl, rfl⟩ := List.cons.inj heq
    exact hc rfl
  · exact h behind hrest

theorem AmpersandsRefer.append (h : AmpersandsRefer rest) (hfront : ∀ c ∈ front, IsPlain c) :
    AmpersandsRefer (front ++ rest) := by
  induction front with
  | nil => exact h
  | cons first front ih =>
    obtain ⟨hfirst, hfront⟩ := List.forall_mem_cons.mp hfront
    exact (ih hfront).cons fun heq => absurd (by simp [heq]) hfirst.1

/-! ### Texts -/

/-- A text is what is written of a name. -/
inductive IsWritten : (name text : List Char) → Prop
  | nil : IsWritten [] []
  | reference {reference : List Char × Char} {name text : List Char} (h : reference ∈ references)
    (hrest : IsWritten name text) : IsWritten (reference.2 :: name) ('&' :: reference.1 ++ text)
  | mark {c : Char} {name text : List Char} (h : isMark c = true) (hrest : IsWritten name text) :
    IsWritten (c :: name) ('\\' :: c :: text)
  | plain {c : Char} {name text : List Char} (hamp : c ≠ '&') (hlt : c ≠ '<')
    (hmark : isMark c = false) (hrest : IsWritten name text) : IsWritten (c :: name) (c :: text)

variable {name text : List Char}

theorem isWritten_flatMap (name : List Char) :
    IsWritten name (name.flatMap Template.resourceCharacter) := by
  induction name with
  | nil => exact .nil
  | cons c name ih =>
    rw [List.flatMap_cons]
    unfold Template.resourceCharacter
    split
    · exact .reference (show ("amp;".toList, '&') ∈ references by decide) ih
    · exact .reference (show ("lt;".toList, '<') ∈ references by decide) ih
    · exact .reference (show ("gt;".toList, '>') ∈ references by decide) ih
    · exact .mark (by decide) ih
    · exact .mark (by decide) ih
    · rename_i hamp hlt _ hquote hapostrophe
      refine .plain hamp hlt ?_ ih
      rw [isMark, decide_eq_false hquote, decide_eq_false hapostrophe]
      rfl

/-- A name with a backslash in front of every quote and of every apostrophe. -/
def marked (name : List Char) : List Char :=
  name.flatMap fun c => if isMark c then ['\\', c] else [c]

theorem marked_cons_of_isMark (h : isMark c = true) (name : List Char) :
    marked (c :: name) = '\\' :: c :: marked name := by
  rw [marked, List.flatMap_cons, if_pos h]
  rfl

theorem marked_cons_of_not_isMark (h : isMark c = false) (name : List Char) :
    marked (c :: name) = c :: marked name := by
  rw [marked, List.flatMap_cons, if_neg (by simp [h])]
  rfl

namespace IsWritten

theorem not_mem (h : IsWritten name text) : '<' ∉ text := by
  induction h with
  | nil => exact List.not_mem_nil
  | @reference reference name text hreference hrest ih =>
    have hmem : '<' ∉ reference.1 := fun hmem =>
      (isPlain_of_mem_reference hreference _ hmem).1 (by decide)
    simp [hmem, ih]
  | mark hmark hrest ih =>
    have hne : _ ≠ '<' := ne_of_isMark hmark (by decide)
    simp [hne.symm, ih]
  | plain hamp hlt hmark hrest ih => simp [hlt.symm, ih]

/-- An ampersand is written as the first character of a reference only. -/
theorem ampersandsRefer (h : IsWritten name text) : AmpersandsRefer text := by
  induction h with
  | nil => exact fun rest hsuffix => absurd (List.suffix_nil.mp hsuffix) (List.cons_ne_nil _ _)
  | @reference reference name text hreference hrest ih =>
    refine (ih.append (isPlain_of_mem_reference hreference)).cons fun _ => ?_
    exact ⟨reference, hreference, List.prefix_append _ _⟩
  | mark hmark hrest ih =>
    have hne : _ ≠ '&' := ne_of_isMark hmark (by decide)
    exact (ih.cons fun heq => absurd heq hne).cons fun heq => absurd heq (by decide)
  | plain hamp hlt hmark hrest ih => exact ih.cons fun heq => absurd heq hamp

theorem resolveReferences_eq (h : IsWritten name text) : resolveReferences text = marked name := by
  induction h with
  | nil => rfl
  | reference hreference hrest ih =>
    rw [resolveReferences_reference hreference, ih,
      marked_cons_of_not_isMark (isMark_of_mem_reference hreference).2]
  | mark hmark hrest ih =>
    have hne : _ ≠ '&' := ne_of_isMark hmark (by decide)
    rw [resolveReferences_cons (by decide), resolveReferences_cons hne, ih,
      marked_cons_of_isMark hmark]
  | plain hamp hlt hmark hrest ih =>
    rw [resolveReferences_cons hamp, ih, marked_cons_of_not_isMark hmark]

/-- Whether a quote is escaped can be seen when the references are resolved. The same goes for what
is behind a backslash. -/
theorem marksAreEscaped_eq (h : IsWritten name text) :
    marksAreEscaped text = marksAreEscaped (marked name) ∧
    marksAreEscaped ('\\' :: text) = marksAreEscaped ('\\' :: marked name) := by
  induction h with
  | nil => exact ⟨rfl, rfl⟩
  | @reference reference name text hreference hrest ih =>
    obtain ⟨hslash, hmark⟩ := isMark_of_mem_reference hreference
    have htext := marksAreEscaped_append (isPlain_of_mem_reference hreference) text
    rw [marked_cons_of_not_isMark hmark]
    constructor
    · rw [List.cons_append, marksAreEscaped_cons (by decide), htext, marksAreEscaped_cons hslash,
        hmark, ih.1]
      rfl
    · exact htext.trans ih.1
  | @mark c name text hmark hrest ih =>
    have hslash : _ ≠ '\\' := ne_of_isMark hmark (by decide)
    rw [marked_cons_of_isMark hmark]
    refine ⟨ih.1, ?_⟩
    -- two backslashes leave the mark bare
    change marksAreEscaped (c :: text) = marksAreEscaped (c :: marked name)
    rw [marksAreEscaped_cons hslash, marksAreEscaped_cons hslash, hmark]
    rfl
  | @plain c name text hamp hlt hmark hrest ih =>
    rw [marked_cons_of_not_isMark hmark]
    refine ⟨?_, ih.1⟩
    by_cases hslash : c = '\\'
    · subst hslash
      exact ih.2
    · rw [marksAreEscaped_cons hslash, marksAreEscaped_cons hslash, ih.1]

end IsWritten

/-! ### Names -/

theorem marksAreEscaped_marked (h : '\\' ∉ name) : marksAreEscaped (marked name) = true := by
  induction name with
  | nil => rfl
  | cons c name ih =>
    rw [List.mem_cons, not_or] at h
    cases hmark : isMark c with
    | true => exact (congrArg marksAreEscaped (marked_cons_of_isMark hmark name)).trans (ih h.2)
    | false =>
      rw [marked_cons_of_not_isMark hmark, marksAreEscaped_cons (Ne.symm h.1), hmark, ih h.2]
      rfl

theorem resolveBackslashes_marked (h : '\\' ∉ name) : resolveBackslashes (marked name) = name := by
  induction name with
  | nil => rfl
  | cons c name ih =>
    rw [List.mem_cons, not_or] at h
    cases hmark : isMark c with
    | true =>
      rw [marked_cons_of_isMark hmark, resolveBackslashes, ih h.2]
    | false =>
      rw [marked_cons_of_not_isMark hmark, resolveBackslashes_cons (Ne.symm h.1), ih h.2]

/-- A text with escaped marks gets shorter when it is read: each mark costs a backslash, and each
further backslash costs a character. -/
theorem length_resolveBackslashes_le (h : marksAreEscaped text = true) :
    text.count '\\' + text.countP isMark + 2 * (resolveBackslashes text).length ≤
      2 * text.length := by
  induction text using resolveBackslashes.induct with
  | case1 c rest ih =>
    have hrest := ih h
    have hc : (if c = '\\' then 1 else 0) + (if isMark c then 1 else 0) ≤ 1 := by
      split_ifs with hslash hmark
      · exact absurd hslash (ne_of_isMark hmark (by decide))
      all_goals decide
    have hslash : isMark '\\' = false := by decide
    simp only [resolveBackslashes, List.count_cons, List.countP_cons, List.length_cons, beq_iff_eq,
      hslash, Bool.false_eq_true, if_false, if_true]
    omega
  | case2 => decide
  | case3 c rest hpair hsingle ih =>
    have hslash : c ≠ '\\' := by
      rintro rfl
      cases rest with
      | nil => exact hsingle rfl rfl
      | cons other rest => exact hpair other rest rfl rfl
    rw [marksAreEscaped_cons hslash, Bool.and_eq_true, Bool.not_eq_true'] at h
    have hrest := ih h.2
    rw [resolveBackslashes_cons hslash]
    simp only [List.count_cons, List.countP_cons, List.length_cons, beq_iff_eq, h.1, hslash,
      Bool.false_eq_true, if_false]
    omega
  | case4 => decide

theorem count_marked (name : List Char) :
    (marked name).count '\\' = name.count '\\' + name.countP isMark ∧
      (marked name).countP isMark = name.countP isMark ∧
      (marked name).length = name.length + name.countP isMark := by
  induction name with
  | nil => exact ⟨rfl, rfl, rfl⟩
  | cons c name ih =>
    have hslash : isMark '\\' = false := by decide
    cases hmark : isMark c with
    | true =>
      have hc : c ≠ '\\' := ne_of_isMark hmark hslash
      rw [marked_cons_of_isMark hmark]
      simp only [List.count_cons, List.countP_cons, List.length_cons, beq_iff_eq, hmark, hslash, hc,
        Bool.false_eq_true, if_false, if_true]
      omega
    | false =>
      rw [marked_cons_of_not_isMark hmark]
      simp only [List.count_cons, List.countP_cons, List.length_cons, beq_iff_eq, hmark,
        Bool.false_eq_true, if_false]
      omega

/-- A name without a backslash is all that can be read of a text that is well-formed. -/
theorem not_mem_of_resolveBackslashes_eq (hmarks : marksAreEscaped (marked name) = true)
    (h : resolveBackslashes (marked name) = name) : '\\' ∉ name := by
  have hlength := length_resolveBackslashes_le hmarks
  obtain ⟨hcount, hcountP, hmarked⟩ := count_marked name
  rw [h, hcount, hcountP, hmarked] at hlength
  rw [← List.count_eq_zero]
  omega

/-- The names that are said by what is written of them are those without a backslash. -/
theorem spells_resourceText_iff (name : String) :
    Spells (Template.resourceText name).toList name ↔ '\\' ∉ name.toList := by
  have hwritten := isWritten_flatMap name.toList
  rw [Template.resourceText, String.toList_ofList]
  have hresolved := hwritten.resolveReferences_eq
  constructor
  · rintro ⟨-, -, hmarks, hname⟩
    rw [hwritten.marksAreEscaped_eq.1] at hmarks
    exact not_mem_of_resolveBackslashes_eq hmarks (hresolved ▸ hname)
  · intro hslash
    exact ⟨hwritten.not_mem, hwritten.ampersandsRefer,
      hwritten.marksAreEscaped_eq.1.trans (marksAreEscaped_marked hslash),
      hresolved ▸ resolveBackslashes_marked hslash⟩

/-- What is written of a name stands between the tags. -/
theorem body?_appName (name : String) :
    body? "app_name" (Template.appName name) = some (Template.resourceText name).toList := by
  have htag : ("<string name=\"" ++ "app_name" ++ "\">").toList = tag := by decide
  have hclosing : "</string>".toList = '<' :: "/string>".toList := by decide
  have hopening : ¬tag <:+: opening ++ tag.dropLast := by decide +kernel
  have hbody : '<' ∉ (Template.resourceText name).toList := by
    rw [Template.resourceText, String.toList_ofList]
    exact (isWritten_flatMap name.toList).not_mem
  rw [body?, htag, toList_appName, cut?_append_of_not_isInfix hopening (by decide),
    Option.bind_some, hclosing, cut?_append_of_not_mem hbody]
  rfl

/-- The document of a name says the name if and only if there is no backslash in the name. -/
theorem saysName_appName_iff (name : String) :
    SaysName (Template.appName name) name ↔ '\\' ∉ name.toList := by
  rw [← spells_resourceText_iff]
  constructor
  · rintro ⟨text, hbody, hspells⟩
    rw [body?_appName, Option.some.injEq] at hbody
    exact hbody ▸ hspells
  · exact fun hspells => ⟨_, body?_appName name, hspells⟩

/-- A document says one name. -/
theorem SaysName.eq {document name other : String} (h : SaysName document name)
    (hother : SaysName document other) : name = other := by
  obtain ⟨text, hbody, hspells⟩ := h
  obtain ⟨found, hfound, hother⟩ := hother
  rw [hbody, Option.some.injEq] at hfound
  subst hfound
  exact String.toList_inj.mp (hspells.resolved.symm.trans hother.resolved)

end StringResource

namespace Project

open Plan Attempt StringResource

/-- The path of the table of strings of a project. -/
abbrev stringsPath (project : Project) : Path :=
  project.resDir / "values/strings.xml"

theorem not_mem_of_isValidName {name : String} (h : isValidName name = true) :
    '\\' ∉ name.toList := by
  intro hmem
  rw [isValidName, Bool.and_eq_true, List.all_eq_true] at h
  exact absurd (h.2 _ hmem) (by decide)

/-- The names of two accepted projects with the same table of strings are the same. -/
theorem eq_of_ofText_appName_eq {name other : String} (h : isValidName name = true)
    (hother : isValidName other = true)
    (heq : Content.ofText (Template.appName name) = Content.ofText (Template.appName other)) :
    name = other := by
  have htext : Template.appName name = Template.appName other := by
    rw [Content.ofText, Content.ofText, Content.bytes.injEq] at heq
    exact String.toByteArray_inj.mp heq
  have hname := (saysName_appName_iff name).mpr (not_mem_of_isValidName h)
  rw [htext] at hname
  exact hname.eq ((saysName_appName_iff other).mpr (not_mem_of_isValidName hother))

theorem isValidName_of_ends_create {parent : Path} {name : String} {project : Project}
    {history : History} (h : (create parent name).run.Ends history (.ok project)) :
    isValidName name = true := by
  by_contra hinvalid
  rw [create, if_neg hinvalid] at h
  rcases Attempt.ends_bind.mp h with ⟨fault, -, hfault⟩ | ⟨_, _, _, -, hfail, -⟩
  · cases hfault
  · cases hfail.2

/-- When a project has been created, the table of strings has been written. -/
theorem records_create (parent : Path) (name : String) :
    (create parent name).Records ⟨.file (.write (Project.mk (parent / name)).stringsPath
      (.ofText (Template.appName name))), .ok ()⟩ := by
  rw [create]
  split_ifs
  swap
  · exact (records_fail _).bind_left
  refine .bind_right fun found => ?_
  dsimp only
  split_ifs
  · exact (records_fail _).bind_left
  -- the directories and the sketch come first
  exact .bind_right fun _ => .bind_right fun _ => (records_writeTextFile _ _).bind_left

/-- Under the path of the table of strings of a new project the document of its name is found. -/
theorem IsVacant.exists_find_stringsPath {world : World} {files : FileSystem} {parent : Path}
    {name : String} {base : Location} (h : IsVacant files world.place parent name base)
    (stop : Bool) : ∃ last,
      (create parent name).run.run (world.answer stop) files = (.ok ⟨parent / name⟩, last) ∧
      last.find world.place (Project.mk (parent / name)).stringsPath =
        .ok (base ++ [name] ++ ["res", "values", "strings.xml"],
          .file Mode.newFile (.ofText (Template.appName name))) := by
  obtain ⟨hcreate, hgrown⟩ := h.grows_create stop
  refine ⟨_, hcreate, ?_⟩
  rw [stringsPath, stringsPath_eq, ← Path.descend_concat]
  exact h.find hgrown ["res", "values", "strings.xml"] rfl (by decide)

/-- The table of strings of a project says the name of the project: its text is well-formed and is
read as the name, for every name that is accepted. So projects of different names have different
tables. A backslash in the name would be read as something else. Whenever a project has been
created, the table of its name has been written, and in a vacant place it is what is found. -/
theorem strings_say_name :
    (∀ name, isValidName name = true → SaysName (Template.appName name) name) ∧
    (∀ name other, isValidName name = true → isValidName other = true →
      Content.ofText (Template.appName name) = Content.ofText (Template.appName other) →
      name = other) ∧
    (∀ name, '\\' ∈ name.toList → ¬SaysName (Template.appName name) name) ∧
    (∀ parent name project history, (create parent name).run.Ends history (.ok project) →
      isValidName name = true ∧ ⟨.file (.write (Project.mk (parent / name)).stringsPath
        (.ofText (Template.appName name))), .ok ()⟩ ∈ history) ∧
    ∀ (world : World) (stop : Bool) (files : FileSystem) parent name base,
      IsVacant files world.place parent name base → ∃ last,
        (create parent name).run.run (world.answer stop) files = (.ok ⟨parent / name⟩, last) ∧
        last.find world.place (Project.mk (parent / name)).stringsPath =
          .ok (base ++ [name] ++ ["res", "values", "strings.xml"],
            .file Mode.newFile (.ofText (Template.appName name))) := by
  refine ⟨fun name h => ?_, fun name other h hother => eq_of_ofText_appName_eq h hother,
    fun name hslash h => ?_, fun parent name project history h => ?_,
    fun world stop files parent name base h => h.exists_find_stringsPath stop⟩
  · exact (saysName_appName_iff name).mpr (not_mem_of_isValidName h)
  · exact (saysName_appName_iff name).mp h hslash
  · exact ⟨isValidName_of_ends_create h, records_create parent name history project h⟩

/-- A project with an ampersand and quotes in its name is created in the root of a file system. -/
theorem strings_say_name_sample : ∃ (history : History) (last : FileSystem),
    SaysName (Template.appName "Tom & \"Jerry\"") "Tom & \"Jerry\"" ∧
    Content.ofText (Template.appName "Tom & \"Jerry\"") ≠
      Content.ofText (Template.appName "Tom & Jerry") ∧
    ¬SaysName (Template.appName "Tom\\Jerry") "Tom\\Jerry" ∧
    (create (Path.mk "/") "Tom & \"Jerry\"").run.Ends history
      (.ok ⟨Path.mk "/" / "Tom & \"Jerry\""⟩) ∧
    ⟨.file (.write (Project.mk (Path.mk "/" / "Tom & \"Jerry\"")).stringsPath
      (.ofText (Template.appName "Tom & \"Jerry\""))), .ok ()⟩ ∈ history ∧
    last.find [] (Project.mk (Path.mk "/" / "Tom & \"Jerry\"")).stringsPath =
      .ok (["Tom & \"Jerry\"", "res", "values", "strings.xml"],
        .file Mode.newFile (.ofText (Template.appName "Tom & \"Jerry\""))) := by
  have hvalid : isValidName "Tom & \"Jerry\"" = true := by decide
  have hvacant : IsVacant FileSystem.root Builder.idleWorld.place (Path.mk "/")
      "Tom & \"Jerry\"" [] :=
    { find_parent := ⟨Mode.newDirectory, rfl⟩
      isValid := hvalid
      isName := by decide
      short := by decide
      vacant := fun names => FileSystem.get?_root_of_ne_nil (List.cons_ne_nil _ names)
      changeable := by decide +kernel
      usable := by decide +kernel }
  obtain ⟨hspelled, hdistinct, hbackslash, hends, hfound⟩ := strings_say_name
  obtain ⟨last, hcreate, hfind⟩ := hfound Builder.idleWorld false _ _ _ _ hvacant
  have hhistory := Plan.ends_run (Builder.idleWorld.answer false)
    (create (Path.mk "/") "Tom & \"Jerry\"").run FileSystem.root
  rw [hcreate] at hhistory
  refine ⟨_, last, hspelled _ hvalid, fun heq => ?_, hbackslash _ (by decide), hhistory,
    (hends _ _ _ _ hhistory).2, hfind⟩
  exact absurd (hdistinct _ _ hvalid (by decide) heq) (by decide)

/-- The text in the table of strings. -/
example : body? "app_name" (Template.appName "<Tom's>") = some "&lt;Tom\\'s&gt;".toList ∧
    resolveBackslashes (resolveReferences "&lt;Tom\\'s&gt;".toList) = "<Tom's>".toList := by
  decide +kernel

end Project

end SketchApk
