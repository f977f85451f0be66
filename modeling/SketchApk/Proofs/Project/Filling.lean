import SketchApk.Project.Template
import SketchApk.Proofs.Text.Substitution
import SketchApk.Proofs.Text.Trim

/-!
# Filling a template

A percent sign in a template belongs to a placeholder, so the pieces between percent signs are plain
texts and names in turn. All placeholders are filled *at once* when every name is replaced by its
value, whatever the value contains. A template is filled by one substitution after the other instead.
No substitution reaches across the edge of a value, because no placeholder contains the character
that follows; but within a value the placeholders that are listed later are replaced as well.

## Main definitions

* `Template.weave` : plain pieces with a text for each name between them.
* `Template.fillAtOnce` : the template with every placeholder replaced by its value.
* `Template.settle` : the values in which the placeholders that are listed later have been replaced.
* `Template.IsUnmixed` : no value contains a placeholder that is listed later.

## Main statements

* `Template.fill_weave` : every placeholder is filled on its own.
* `Template.fill_eq_fillAtOnce` : what filling one after the other amounts to.
* `Template.fillsVerbatim` : the manifest and the activity have their values verbatim, if no value
  contains a placeholder that is listed later.
* `Template.manifest_ne_fillAtOnce` : a name of an application that is not taken verbatim.
-/

namespace SketchApk.Template

open Text

variable {template : String} {values : List (String × String)} {key : List Char}
  {pieces : List (List Char)} {name : List Char} {textOf otherOf : List Char → List Char}

/-! ### Pieces of a template -/

/-- The placeholder with a name. -/
def placeholder (name : List Char) : List Char :=
  '%' :: name ++ ['%']

/-- Plain pieces and names in turn, with a text in place of each name. -/
def weave (textOf : List Char → List Char) : List (List Char) → List Char
  | plain :: name :: rest => plain ++ textOf name ++ weave textOf rest
  | [plain] => plain
  | [] => []

/-- The names among the pieces. -/
def namesIn : List (List Char) → List (List Char)
  | _ :: name :: rest => name :: namesIn rest
  | _ => []

/-- The first piece begins with a character that is in none of some placeholders. -/
def startsApart (keys : List (List Char)) : List (List Char) → Bool
  | (c :: _) :: _ => keys.all (!·.contains c)
  | _ => false

/-- The pieces begin and end with a plain one, and each plain piece behind a name can be told from a
placeholder by its first character. -/
def isWellFormed (keys : List (List Char)) : List (List Char) → Bool
  | _ :: _ :: rest => startsApart keys rest && isWellFormed keys rest
  | [_] => true
  | [] => false

/-- The text is a name between percent signs. -/
def isPlaceholder (key : String) : Bool :=
  let name := key.toList.tail.dropLast
  key.toList = placeholder name && !name.contains '%'

/-- A template in which placeholders can be told from what is around them. -/
structure IsSound (template : String) (keys : List String) : Prop where
  placeholders : ∀ key ∈ keys, isPlaceholder key = true
  pieces : isWellFormed (keys.map String.toList) (split '%' template.toList) = true

theorem exists_of_isPlaceholder {key : String} (h : isPlaceholder key = true) :
    ∃ name, '%' ∉ name ∧ key.toList = placeholder name := by
  rw [isPlaceholder, Bool.and_eq_true, decide_eq_true_iff] at h
  exact ⟨_, by simpa using h.2, h.1⟩

theorem weave_placeholder (hpieces : isWellFormed keys pieces = true) :
    weave placeholder pieces = join '%' pieces := by
  fun_induction isWellFormed keys pieces with
  | case1 plain name rest ih =>
    obtain ⟨-, hrest⟩ := Bool.and_eq_true_iff.mp hpieces
    obtain ⟨next, others, rfl⟩ : ∃ next others, rest = next :: others :=
      List.exists_cons_of_ne_nil (by rintro rfl; cases hrest)
    rw [weave, ih hrest]
    simp [join, placeholder]
  | case2 plain => rfl
  | case3 => cases hpieces

theorem exists_weave_eq_cons (textOf : List Char → List Char) (c : Char) (plain : List Char)
    (rest : List (List Char)) : ∃ behind, weave textOf ((c :: plain) :: rest) = c :: behind := by
  cases rest with
  | nil => exact ⟨plain, rfl⟩
  | cons name rest => exact ⟨plain ++ textOf name ++ weave textOf rest, by simp [weave]⟩

theorem namesIn_subset (pieces : List (List Char)) : namesIn pieces ⊆ pieces := by
  fun_induction namesIn pieces with
  | case1 plain name rest ih => exact List.subset_cons_of_subset _ (List.cons_subset_cons _ ih)
  | case2 => exact List.nil_subset _

/-- The texts of the names that occur decide. -/
theorem weave_congr (h : ∀ name ∈ namesIn pieces, textOf name = otherOf name) :
    weave textOf pieces = weave otherOf pieces := by
  fun_induction namesIn pieces with
  | case1 plain name rest ih =>
    obtain ⟨hname, hrest⟩ := List.forall_mem_cons.mp h
    rw [weave, weave, hname, ih hrest]
  | case2 pieces hpieces =>
    match pieces, hpieces with
    | [], _ => rfl
    | [_], _ => rfl
    | _ :: _ :: _, hnone => exact (hnone _ _ _ rfl).elim

/-! ### Filling -/

/-- A placeholder is replaced in the text of every name on its own. -/
theorem substitute_weave (hkey : key ∈ keys) (hpercent : key.head? = some '%')
    (hpieces : isWellFormed keys pieces = true) (hplain : ∀ piece ∈ pieces, '%' ∉ piece)
    (replacement : List Char) :
    substitute key replacement (weave textOf pieces) =
      weave (fun name => substitute key replacement (textOf name)) pieces := by
  obtain ⟨others, rfl⟩ := List.head?_eq_some_iff.mp hpercent
  fun_induction isWellFormed keys pieces with
  | case1 plain name rest ih =>
    obtain ⟨hapart, hrest⟩ := Bool.and_eq_true_iff.mp hpieces
    have hbehind := ih hrest fun piece hpiece =>
      hplain piece (List.mem_cons_of_mem _ (List.mem_cons_of_mem _ hpiece))
    unfold startsApart at hapart
    split at hapart
    · rename_i c next others'
      have hc : c ∉ '%' :: others := by simpa using List.all_eq_true.mp hapart _ hkey
      obtain ⟨behind, hcons⟩ := exists_weave_eq_cons textOf c next others'
      rw [weave, weave, ← hbehind, hcons, List.append_assoc,
        substitute_append (hplain plain List.mem_cons_self),
        substitute_append_cons (List.cons_ne_nil _ _) hc, List.append_assoc]
    · cases hapart
  | case2 plain => exact substitute_eq_self (hplain plain List.mem_cons_self) _ _
  | case3 => cases hpieces

theorem fill_nil (text : String) : fill text [] = text := rfl

theorem fill_cons (text : String) (value : String × String) (values : List (String × String)) :
    fill text (value :: values) = fill (substituted value.1 value.2 text) values := rfl

/-- Every placeholder is filled on its own. -/
theorem fill_weave (hkeys : ∀ value ∈ values, value.1.toList ∈ keys ∧ value.1.toList.head? = some '%')
    (hpieces : isWellFormed keys pieces = true) (hplain : ∀ piece ∈ pieces, '%' ∉ piece)
    (textOf : List Char → List Char) :
    (fill (String.ofList (weave textOf pieces)) values).toList =
      weave (fun name => (fill (String.ofList (textOf name)) values).toList) pieces := by
  induction values generalizing textOf with
  | nil => simp [fill_nil]
  | cons value values ih =>
    obtain ⟨⟨hkey, hpercent⟩, hrest⟩ := List.forall_mem_cons.mp hkeys
    have hfirst : substituted value.1 value.2 (String.ofList (weave textOf pieces)) =
        String.ofList (weave (fun name => substitute value.1.toList value.2.toList (textOf name)) pieces) := by
      rw [substituted, String.toList_ofList, substitute_weave hkey hpercent hpieces hplain]
    rw [fill_cons, hfirst, ih hrest]
    simp [fill_cons, substituted]

/-- A placeholder contains no other one. -/
theorem eq_of_placeholder_isInfix {other : List Char} (hname : '%' ∉ name) (hother : '%' ∉ other)
    (h : placeholder name <:+: placeholder other) : name = other := by
  obtain ⟨front, behind, heq⟩ := h
  have hsplit : split '%' front ++ name :: split '%' behind = [[], other, []] := by
    have hpieces := congrArg (split '%') heq
    simp only [placeholder, List.cons_append, List.append_assoc, List.nil_append] at hpieces
    rw [split_append_separator, split_append_cons hname, split_cons_self,
      split_append_cons hother, split_nil] at hpieces
    exact hpieces
  obtain ⟨first, others, hfront⟩ := List.exists_cons_of_ne_nil (split_ne_nil '%' front)
  obtain ⟨last, rest, hbehind⟩ := List.exists_cons_of_ne_nil (split_ne_nil '%' behind)
  rw [hfront, hbehind] at hsplit
  have hlength := congrArg List.length hsplit
  simp only [List.length_append, List.length_cons, List.length_nil] at hlength
  obtain rfl : others = [] := List.length_eq_zero_iff.mp (by omega)
  simp only [List.cons_append, List.nil_append, List.cons.injEq] at hsplit
  exact hsplit.2.1

/-- The placeholder of a name is replaced, and those of other names stay. -/
theorem substitute_placeholder {other : List Char} (hname : '%' ∉ name) (hother : '%' ∉ other)
    (replacement : List Char) : substitute (placeholder other) replacement (placeholder name) =
      if name = other then replacement else placeholder name := by
  split_ifs with h
  · subst h
    have hwhole := substitute_pattern_append (List.cons_ne_nil '%' (name ++ ['%'])) replacement []
    rwa [List.append_nil, substitute_nil, List.append_nil] at hwhole
  · exact substitute_of_not_isInfix
      (fun hinfix => h (eq_of_placeholder_isInfix hother hname hinfix).symm) replacement

/-! ### Values that contain placeholders -/

/-- The values in which the placeholders that are listed later have been replaced. -/
def settle : List (String × String) → List (String × String)
  | [] => []
  | (key, value) :: rest => (key, fill value rest) :: settle rest

/-- The text that stands for a name: its value, or its placeholder if there is none. -/
def textOfName (values : List (String × String)) (name : List Char) : List Char :=
  ((values.lookup (String.ofList (placeholder name))).map String.toList).getD (placeholder name)

/-- The template with every placeholder replaced by its value, whatever the values contain. -/
def fillAtOnce (template : String) (values : List (String × String)) : String :=
  String.ofList (weave (textOfName values) (split '%' template.toList))

theorem toList_fill_placeholder (h : ∀ value ∈ values, isPlaceholder value.1 = true)
    (hname : '%' ∉ name) :
    (fill (String.ofList (placeholder name)) values).toList = textOfName (settle values) name := by
  induction values with
  | nil => simp [fill_nil, settle, textOfName]
  | cons value values ih =>
    obtain ⟨hvalue, hrest⟩ := List.forall_mem_cons.mp h
    obtain ⟨other, hother, hkey⟩ := exists_of_isPlaceholder hvalue
    have hkey' : value.1 = String.ofList (placeholder other) := by rw [← hkey, String.ofList_toList]
    rw [fill_cons, substituted, String.toList_ofList, hkey, substitute_placeholder hname hother]
    by_cases heq : name = other
    · subst heq
      simp [settle, textOfName, hkey']
    · have hne : String.ofList (placeholder name) ≠ value.1 := by
        rw [hkey', ne_eq, String.ofList_inj]
        simpa [placeholder] using heq
      rw [if_neg heq, ih hrest, textOfName, textOfName, settle, List.lookup_cons,
        beq_false_of_ne hne]

/-- Filling one placeholder after the other fills all of them at once, with values in which the
placeholders that are listed later have been replaced. -/
theorem fill_eq_fillAtOnce (h : IsSound template (values.map Prod.fst)) :
    fill template values = fillAtOnce template (settle values) := by
  have hplain : ∀ piece ∈ split '%' template.toList, '%' ∉ piece := fun _ => not_mem_of_mem_split
  have htemplate : template = String.ofList (weave placeholder (split '%' template.toList)) := by
    rw [weave_placeholder h.pieces, join_split, String.ofList_toList]
  have hkeys : ∀ value ∈ values, isPlaceholder value.1 = true := fun value hvalue =>
    h.placeholders _ (List.mem_map_of_mem hvalue)
  have hpercent : ∀ value ∈ values,
      value.1.toList ∈ (values.map Prod.fst).map String.toList ∧ value.1.toList.head? = some '%' := by
    intro value hvalue
    obtain ⟨name, -, hkey⟩ := exists_of_isPlaceholder (hkeys value hvalue)
    exact ⟨List.mem_map_of_mem (List.mem_map_of_mem hvalue), by simp [hkey, placeholder]⟩
  refine String.toList_inj.mp ?_
  conv_lhs => rw [htemplate]
  rw [fill_weave hpercent h.pieces hplain, fillAtOnce, String.toList_ofList]
  exact weave_congr fun name hname =>
    toList_fill_placeholder hkeys (hplain name (namesIn_subset _ hname))

/-- No value contains a placeholder that is listed later. -/
def IsUnmixed (values : List (String × String)) : Prop :=
  values.Pairwise fun value later => ¬later.1.toList <:+: value.2.toList

instance : DecidablePred IsUnmixed := fun _ => inferInstanceAs (Decidable (List.Pairwise _ _))

/-- A text without placeholders stays as it is. -/
theorem fill_eq_self {text : String} (h : ∀ value ∈ values, ¬value.1.toList <:+: text.toList) :
    fill text values = text := by
  induction values with
  | nil => exact fill_nil text
  | cons value values ih =>
    obtain ⟨hvalue, hrest⟩ := List.forall_mem_cons.mp h
    rw [fill_cons, substituted, substitute_of_not_isInfix hvalue, String.ofList_toList, ih hrest]

theorem IsUnmixed.settle_eq (h : IsUnmixed values) : settle values = values := by
  induction values with
  | nil => rfl
  | cons value values ih =>
    obtain ⟨hvalue, hrest⟩ := List.pairwise_cons.mp h
    rw [settle, ih hrest, fill_eq_self hvalue]

/-- A name that occurs once has its text at one place. -/
theorem exists_weave_eq (hnodup : (namesIn pieces).Nodup) (hname : name ∈ namesIn pieces)
    (h : ∀ other ≠ name, textOf other = otherOf other) :
    ∃ before behind, weave textOf pieces = before ++ textOf name ++ behind ∧
      weave otherOf pieces = before ++ otherOf name ++ behind := by
  fun_induction namesIn pieces with
  | case1 plain first rest ih =>
    obtain ⟨hfirst, hrest⟩ := List.nodup_cons.mp hnodup
    by_cases heq : first = name
    · subst heq
      have hsame : weave textOf rest = weave otherOf rest :=
        weave_congr fun other hother => h other (ne_of_mem_of_not_mem hother hfirst)
      exact ⟨plain, weave textOf rest, rfl, by rw [weave, hsame]⟩
    · have hlater := (List.mem_cons.mp hname).resolve_left (Ne.symm heq)
      obtain ⟨before, behind, hthis, hthat⟩ := ih hrest hlater
      refine ⟨plain ++ textOf first ++ before, behind, ?_, ?_⟩
      · rw [weave, hthis]
        simp only [List.append_assoc]
      · rw [weave, hthat, h first heq]
        simp only [List.append_assoc]
  | case2 => cases hname

/-! ### The generated texts -/

/-- How a text results from a template. -/
structure IsFilled (template : String) (values : List (String × String)) (text : String) : Prop where
  /-- All placeholders are replaced at once, by values in which those that are listed later have been
  replaced. -/
  settled : text = fillAtOnce template (settle values)
  /-- The values are taken verbatim if none of them contains a placeholder that is listed later. -/
  verbatim : IsUnmixed values → text = fillAtOnce template values

theorem isFilled_fill (h : IsSound template (values.map Prod.fst)) :
    IsFilled template values (fill template values) :=
  ⟨fill_eq_fillAtOnce h, fun hunmixed => by rw [fill_eq_fillAtOnce h, hunmixed.settle_eq]⟩

/-- The placeholders of the manifest. -/
def manifestKeys : List String :=
  ["%permissions%", "%app_name%", "%package%", "%version_code%", "%version_name%", "%min_sdk%",
    "%target_sdk%", "%max_sdk%"]

theorem ofLines_cons (line : String) (lines : List String) :
    ofLines (line :: lines) = line ++ "\n" ++ ofLines lines := by
  rw [ofLines, List.map_cons, String.join_cons, ofLines]

theorem ofLines_append (lines others : List String) :
    ofLines (lines ++ others) = ofLines lines ++ ofLines others := by
  rw [ofLines, List.map_append, String.join_append, ofLines, ofLines]

theorem toList_ofLines_nil : (ofLines []).toList = [] := by
  simp [ofLines]

theorem toList_ofLines_cons {line rest : List Char} {lines : List String}
    (h : (ofLines lines).toList = rest) :
    (ofLines (String.ofList line :: lines)).toList = line ++ '\n' :: rest := by
  rw [← h, ofLines_cons]
  simp

/-- The pieces of the template of the manifest. Each placeholder occurs once. -/
theorem split_manifestTemplate :
    isWellFormed (manifestKeys.map String.toList) (split '%' manifestTemplate.toList) = true ∧
    (namesIn (split '%' manifestTemplate.toList)).Nodup ∧
    ∀ key ∈ manifestKeys, ∃ name ∈ namesIn (split '%' manifestTemplate.toList),
      placeholder name = key.toList := by
  obtain ⟨text, htext, h⟩ : ∃ text, manifestTemplate.toList = text ∧
      isWellFormed (manifestKeys.map String.toList) (split '%' text) = true ∧
      (namesIn (split '%' text)).Nodup ∧
      ∀ key ∈ manifestKeys, ∃ name ∈ namesIn (split '%' text), placeholder name = key.toList := by
    apply Exists.intro
    constructor
    · unfold manifestTemplate
      iterate 26 apply toList_ofLines_cons
      exact toList_ofLines_nil
    · decide +kernel
  rwa [htext]

theorem isSound_manifestTemplate : IsSound manifestTemplate manifestKeys :=
  ⟨by decide +kernel, split_manifestTemplate.1⟩

/-- Two lines of the template of the activity have placeholders. -/
theorem exists_activityTemplate_eq_ofLines : ∃ middle back : List String,
    activityTemplate = ofLines ("package %package%;" ::
      (middle ++ "        sketch = new %sketch%();" :: back)) ∧
      '%' ∉ (ofLines middle).toList ∧ '%' ∉ (ofLines back).toList := by
  obtain ⟨lines, htemplate, hlines, text, htext, hplain⟩ : ∃ lines, activityTemplate = ofLines lines ∧
      lines = "package %package%;" :: ((lines.drop 1).take 17 ++
        "        sketch = new %sketch%();" :: lines.drop 19) ∧
      ∃ text, (ofLines ((lines.drop 1).take 17 ++ lines.drop 19)).toList = text ∧ '%' ∉ text := by
    refine ⟨_, rfl, rfl, ?_⟩
    apply Exists.intro
    constructor
    · iterate 52 apply toList_ofLines_cons
      exact toList_ofLines_nil
    · decide +kernel
  rw [← htext, ofLines_append, String.toList_append, List.mem_append, not_or] at hplain
  exact ⟨_, _, htemplate.trans (congrArg ofLines hlines), hplain⟩

/-- The pieces of the template of the activity. -/
theorem exists_split_activityTemplate : ∃ middle back, split '%' activityTemplate.toList =
    ["package ".toList, "package".toList, ";\n".toList ++ middle ++ "sketch = new ".toList,
      "sketch".toList, "();\n".toList ++ back] := by
  obtain ⟨middle, back, htemplate, hmiddle, hback⟩ := exists_activityTemplate_eq_ofLines
  have hfirst : ("package %package%;" ++ "\n").toList =
      "package ".toList ++ '%' :: ("package".toList ++ '%' :: ";\n".toList) := by decide
  have hline : ("        sketch = new %sketch%();" ++ "\n").toList =
      "        sketch = new ".toList ++ '%' :: ("sketch".toList ++ '%' :: "();\n".toList) := by decide
  have hindented : "        sketch = new ".toList = "        ".toList ++ "sketch = new ".toList := by
    decide
  have hbetween : '%' ∉ ";\n".toList ++ ((ofLines middle).toList ++ "        sketch = new ".toList) := by
    simp [hmiddle]
  have hbehind : '%' ∉ "();\n".toList ++ (ofLines back).toList := by simp [hback]
  refine ⟨(ofLines middle).toList ++ "        ".toList, (ofLines back).toList, ?_⟩
  calc split '%' activityTemplate.toList
      = split '%' ("package ".toList ++ '%' :: ("package".toList ++ '%' ::
          ((";\n".toList ++ ((ofLines middle).toList ++ "        sketch = new ".toList)) ++ '%' ::
            ("sketch".toList ++ '%' :: ("();\n".toList ++ (ofLines back).toList))))) := by
        rw [htemplate, ofLines_cons, ofLines_append, ofLines_cons, String.toList_append, hfirst,
          String.toList_append, String.toList_append, hline]
        simp only [List.append_assoc, List.cons_append]
    _ = _ := by
        rw [split_append_cons (by decide), split_append_cons (by decide), split_append_cons hbetween,
          split_append_cons (by decide), split_eq_singleton hbehind, hindented]
        simp only [List.append_assoc]

theorem isSound_activityTemplate : IsSound activityTemplate ["%package%", "%sketch%"] := by
  obtain ⟨middle, back, hpieces⟩ := exists_split_activityTemplate
  exact ⟨by decide +kernel, by rw [hpieces]; rfl⟩

/-- Two texts that are filled with values of which one differs have these at the same place. -/
theorem exists_fillAtOnce_eq {others : List (String × String)} {key : String}
    (hkey : placeholder name = key.toList)
    (hnodup : (namesIn (split '%' template.toList)).Nodup)
    (hname : name ∈ namesIn (split '%' template.toList))
    (h : ∀ other ≠ key, values.lookup other = others.lookup other) {value otherValue : String}
    (hvalue : values.lookup key = some value) (hother : others.lookup key = some otherValue) :
    ∃ before behind, fillAtOnce template values = before ++ value ++ behind ∧
      fillAtOnce template others = before ++ otherValue ++ behind := by
  have hkey' : String.ofList (placeholder name) = key := by rw [hkey, String.ofList_toList]
  have hrest : ∀ other ≠ name, textOfName values other = textOfName others other := by
    intro other hne
    have hne' : String.ofList (placeholder other) ≠ key := by
      rw [← hkey', ne_eq, String.ofList_inj]
      simpa [placeholder] using hne
    rw [textOfName, textOfName, h _ hne']
  obtain ⟨before, behind, hthis, hthat⟩ := exists_weave_eq hnodup hname hrest
  refine ⟨String.ofList before, String.ofList behind, ?_, ?_⟩
  · rw [fillAtOnce, hthis, textOfName, hkey', hvalue]
    simp [String.ofList_append, String.append_assoc]
  · rw [fillAtOnce, hthat, textOfName, hkey', hother]
    simp [String.ofList_append, String.append_assoc]

theorem isFilled_manifest (config : BuildConfig) :
    IsFilled manifestTemplate (manifestValues config) (manifest config) :=
  isFilled_fill isSound_manifestTemplate

/-- The manifest and the activity are their templates, filled. A value of the manifest that does not
contain a placeholder stands at its own place and nowhere else. -/
theorem fillsVerbatim (config : BuildConfig) (appPackage className : String) :
    IsFilled manifestTemplate (manifestValues config) (manifest config) ∧
    IsFilled activityTemplate [("%package%", appPackage), ("%sketch%", className)]
      (activity appPackage className) ∧
    ∀ other key value otherValue, IsUnmixed (manifestValues config) →
      IsUnmixed (manifestValues other) →
      (manifestValues config).lookup key = some value →
      (manifestValues other).lookup key = some otherValue →
      (∀ otherKey ≠ key,
        (manifestValues config).lookup otherKey = (manifestValues other).lookup otherKey) →
      ∃ before behind, manifest config = before ++ value ++ behind ∧
        manifest other = before ++ otherValue ++ behind := by
  refine ⟨isFilled_manifest config, isFilled_fill isSound_activityTemplate, ?_⟩
  intro other key value otherValue hunmixed hother hvalue hotherValue h
  have hmem : key ∈ manifestKeys := by
    obtain ⟨front, behind, hvalues, -⟩ := List.lookup_eq_some_iff.mp hvalue
    have hkeys : (manifestValues config).map Prod.fst = manifestKeys := rfl
    rw [← hkeys, hvalues]
    simp
  obtain ⟨name, hname, hkey⟩ := split_manifestTemplate.2.2 key hmem
  rw [(isFilled_manifest config).verbatim hunmixed, (isFilled_manifest other).verbatim hother]
  exact exists_fillAtOnce_eq hkey split_manifestTemplate.2.1 hname h hvalue hotherValue

/-- The name of an application has one place among the values. -/
theorem lookup_manifestValues_appName (config : BuildConfig) (name : String) :
    ∀ key ≠ "%app_name%", (manifestValues config).lookup key =
      (manifestValues { config with appName := name }).lookup key := by
  intro key hkey
  simp [manifestValues, List.lookup_cons, beq_false_of_ne hkey]

/-- Percent signs, placeholders that are listed earlier and parts of placeholders are taken
verbatim. -/
theorem fillsVerbatim_sample :
    let config : BuildConfig :=
      { appName := "%permissions% 100%", appPackage := "a.%app_name%", permissions := ["%p", "%"] }
    let other : BuildConfig := { config with appName := "%package" }
    IsUnmixed (manifestValues config) ∧ IsUnmixed (manifestValues other) ∧
    manifest config = fillAtOnce manifestTemplate (manifestValues config) ∧
    ∃ before behind, manifest config = before ++ "%permissions% 100%" ++ behind ∧
      manifest other = before ++ "%package" ++ behind := by
  intro config other
  have hunmixed : IsUnmixed (manifestValues config) := by decide +kernel
  have hother : IsUnmixed (manifestValues other) := by decide +kernel
  obtain ⟨hfilled, -, hchanged⟩ := fillsVerbatim config "a" "b"
  exact ⟨hunmixed, hother, hfilled.verbatim hunmixed,
    hchanged other "%app_name%" _ _ hunmixed hother rfl rfl
      (lookup_manifestValues_appName config _)⟩

/-- The name of an application is not taken verbatim if it is the placeholder of the package, which is
replaced later. -/
theorem manifest_ne_fillAtOnce :
    manifest { appName := "%package%" } ≠
      fillAtOnce manifestTemplate (manifestValues { appName := "%package%" }) := by
  have hsettle : settle (manifestValues { appName := "%package%" }) =
      manifestValues { appName := "com.example.app" } := by decide +kernel
  obtain ⟨name, hname, hkey⟩ := split_manifestTemplate.2.2 "%app_name%" (by decide)
  obtain ⟨before, behind, hthis, hthat⟩ := exists_fillAtOnce_eq hkey split_manifestTemplate.2.1 hname
    (lookup_manifestValues_appName { appName := "com.example.app" } "%package%") rfl rfl
  rw [(isFilled_manifest _).settled, hsettle, hthis, hthat]
  intro heq
  have hpackage : "com.example.app".length = 15 := by decide +kernel
  have hplaceholder : "%package%".length = 9 := by decide +kernel
  have hlength := congrArg String.length heq
  simp only [String.length_append] at hlength
  omega

end SketchApk.Template
