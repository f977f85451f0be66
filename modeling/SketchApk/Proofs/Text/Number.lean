import SketchApk.Proofs.Text.Trim
import SketchApk.Text.Number

/-!
# Reading numerals back

The digits of a number denote the number, also behind zeros.

## Main statements

* `Text.readUnsigned?_decimal`, `Text.readUnsigned?_hexadecimal` : the numerals that are written are
  read back.
-/

namespace SketchApk.Text

variable {base : Nat}

theorem digitValue?_digitChar (hbase : base ≤ 16) {d : Nat} (hd : d < base) :
    digitValue? base d.digitChar = some d := by
  have hall : ∀ base : Fin 17, ∀ d : Fin base.val,
      digitValue? base d.val.digitChar = some d.val := by
    decide
  exact hall ⟨base, Nat.lt_succ_of_le hbase⟩ ⟨d, hd⟩

theorem readDigits?_append (soFar : Nat) (front rest : List Char) :
    readDigits? base soFar (front ++ rest) =
      (readDigits? base soFar front).bind fun value => readDigits? base value rest := by
  induction front generalizing soFar with
  | nil => rfl
  | cons c front ih =>
    rw [List.cons_append, readDigits?, readDigits?]
    cases digitValue? base c with
    | none => rfl
    | some digit => exact ih _

/-- The digits of a number denote the number. -/
theorem readDigits?_toDigits (hone : 1 < base) (hbase : base ≤ 16) (n : Nat) :
    readDigits? base 0 (Nat.toDigits base n) = some n := by
  induction n using Nat.strongRecOn with
  | ind n ih =>
    rw [Nat.toDigits_eq_if hone]
    split
    · next hlt => simp [readDigits?, digitValue?_digitChar hbase hlt]
    · next hle =>
      have hdiv : n / base < n := Nat.div_lt_self (by omega) hone
      have hmod := digitValue?_digitChar hbase (Nat.mod_lt n (by omega : 0 < base))
      rw [readDigits?_append, ih _ hdiv, Option.bind_some]
      simp only [readDigits?, hmod, Nat.div_add_mod']

/-- Zeros in front of digits make no difference. -/
theorem readDigits?_padStart (hzero : 0 < base) (hbase : base ≤ 16) (width : Nat)
    (digits : List Char) :
    readDigits? base 0 (padStart '0' width digits) = readDigits? base 0 digits := by
  have hdigit : digitValue? base '0' = some 0 := digitValue?_digitChar hbase hzero
  rw [padStart]
  generalize width - digits.length = count
  induction count with
  | zero => rfl
  | succ count ih => rw [List.replicate_succ, List.cons_append, readDigits?, hdigit, ← ih]; simp

/-- A digit is not blank, and it is not a sign. -/
theorem isBlank_of_mem_toDigits (hone : 1 < base) (hbase : base ≤ 16) {n : Nat} {c : Char}
    (hmem : c ∈ Nat.toDigits base n) : isBlank c = false ∧ c ≠ '+' := by
  have hdigit {d : Nat} (hd : d < base) : isBlank d.digitChar = false ∧ d.digitChar ≠ '+' := by
    have hall : ∀ d : Fin 16, isBlank d.val.digitChar = false ∧ d.val.digitChar ≠ '+' := by decide
    exact hall ⟨d, by omega⟩
  induction n using Nat.strongRecOn with
  | ind n ih =>
    rw [Nat.toDigits_eq_if hone] at hmem
    split at hmem
    · next hlt =>
      rw [List.mem_singleton.mp hmem]
      exact hdigit hlt
    · next hle =>
      rcases List.mem_append.mp hmem with hmem | hmem
      · exact ih _ (Nat.div_lt_self (by omega) hone) hmem
      · rw [List.mem_singleton.mp hmem]
        exact hdigit (Nat.mod_lt n (by omega))

/-! ### Numerals -/

/-- A nonempty run of digits without a sign denotes what its digits denote. -/
theorem readUnsigned?_of_readDigits? {limit n : Nat} {digits : List Char} (hne : digits ≠ [])
    (hsign : ∀ c ∈ digits, c ≠ '+') (hread : readDigits? base 0 digits = some n) (hle : n ≤ limit) :
    readUnsigned? base limit digits = some n := by
  rw [readUnsigned?]
  · simp [hne, hread, hle]
  · rintro rest rfl
    exact hsign '+' List.mem_cons_self rfl

theorem isBlank_of_mem_decimal {n : Nat} {c : Char} (hmem : c ∈ decimal n) :
    isBlank c = false ∧ c ≠ '+' :=
  isBlank_of_mem_toDigits (by decide) (by decide) hmem

theorem isBlank_of_mem_hexadecimal {width n : Nat} {c : Char} (hmem : c ∈ hexadecimal width n) :
    isBlank c = false ∧ c ≠ '+' := by
  rcases List.mem_append.mp hmem with hmem | hmem
  · rw [List.eq_of_mem_replicate hmem]
    decide
  · exact isBlank_of_mem_toDigits (by decide) (by decide) hmem

/-- A decimal numeral is read back. -/
theorem readUnsigned?_decimal {limit n : Nat} (hle : n ≤ limit) :
    readUnsigned? 10 limit (decimal n) = some n :=
  readUnsigned?_of_readDigits? Nat.toDigits_ne_nil (fun _ hmem => (isBlank_of_mem_decimal hmem).2)
    (readDigits?_toDigits (by decide) (by decide) n) hle

/-- A hexadecimal numeral is read back. -/
theorem readUnsigned?_hexadecimal (width : Nat) {limit n : Nat} (hle : n ≤ limit) :
    readUnsigned? 16 limit (hexadecimal width n) = some n := by
  refine readUnsigned?_of_readDigits? ?_ (fun _ hmem => (isBlank_of_mem_hexadecimal hmem).2) ?_ hle
  · exact List.append_ne_nil_of_right_ne_nil _ Nat.toDigits_ne_nil
  · rw [hexadecimal, readDigits?_padStart (by decide) (by decide)]
    exact readDigits?_toDigits (by decide) (by decide) n

end SketchApk.Text
