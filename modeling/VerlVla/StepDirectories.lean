import Mathlib.Data.List.Basic
import Mathlib.Data.List.TakeWhile
import Mathlib.Tactic.Common

/-!
# Directories named by a step

A checkpoint lies in a directory named by its step, and a run that resumes reads
the step back from the path.  Paths are read from the left, so a name earlier in
the path comes first.
-/

namespace VerlVla

open List hiding cons count nil

/-- The decimal digits of a pattern and of a number, those of ASCII among
them. -/
structure DecimalDigits where
  value : Char → Option ℕ
  ascii : ∀ char, char.isDigit = true →
    value char = some (char.toNat - '0'.toNat)
  slash : value '/' = none
  letter : value 'g' = none

namespace DecimalDigits

variable (digits : DecimalDigits)

def leading (text : List Char) : List Char :=
  text.takeWhile fun char => (digits.value char).isSome

def number (text : List Char) : ℕ :=
  text.foldl (fun total char => 10 * total + (digits.value char).getD 0) 0

variable {digits}

theorem isSome_of_mem_toDigits (hchar : char ∈ Nat.toDigits 10 step) :
    (digits.value char).isSome = true := by
  have hdigit := Nat.isDigit_of_mem_toDigits (by decide) (by decide) hchar
  rw [digits.ascii char hdigit]
  rfl

theorem leading_toDigits (step : ℕ) :
    digits.leading (Nat.toDigits 10 step) = Nat.toDigits 10 step :=
  takeWhile_eq_self_iff.mpr fun _ hchar => isSome_of_mem_toDigits hchar

theorem number_toDigits (step : ℕ) :
    digits.number (Nat.toDigits 10 step) = step := by
  have hfold : ∀ (text : List Char) (total : ℕ),
      (∀ char ∈ text, char.isDigit = true) →
      text.foldl (fun total char =>
          10 * total + (digits.value char).getD 0) total =
        Nat.ofDigitChars 10 text total := by
    intro text
    induction text with
    | nil => exact fun _ _ => rfl
    | cons char text ih =>
      intro total htext
      have hchar := digits.ascii char (htext char mem_cons_self)
      rw [foldl_cons, hchar, ih _ fun other hother =>
        htext other (mem_cons_of_mem _ hother)]
      rfl
  rw [number, hfold _ _ fun char hchar =>
    Nat.isDigit_of_mem_toDigits (by decide) (by decide) hchar]
  simp

end DecimalDigits

/-! ## The step of a path -/

def stepPattern : List Char :=
  ['g', 'l', 'o', 'b', 'a', 'l', '_', 's', 't', 'e', 'p', '_']

def stepName (step : ℕ) : List Char := stepPattern ++ Nat.toDigits 10 step

section Search

variable (digits : DecimalDigits)

def stepAt (text : List Char) : Option ℕ := if stepPattern.isPrefixOf text then
    match digits.leading (text.drop stepPattern.length) with
    | [] => none
    | first :: rest => some (digits.number (first :: rest))
  else none

def firstStep : List Char → Option ℕ
  | [] => none
  | char :: text =>
    match stepAt digits (char :: text) with
    | some step => some step
    | none => firstStep text

variable {digits}

variable (digits) in
theorem stepAt_stepName (step : ℕ) :
    stepAt digits (stepName step) = some step := by
  have hstarts : stepPattern.isPrefixOf (stepName step) = true := by
    simp [stepName]
  have hdrop : (stepName step).drop stepPattern.length =
      Nat.toDigits 10 step := drop_left
  rw [stepAt, if_pos hstarts, hdrop, DecimalDigits.leading_toDigits]
  cases hdigits : Nat.toDigits 10 step with
  | nil => exact absurd hdigits Nat.toDigits_ne_nil
  | cons first rest =>
    have hnumber : digits.number (first :: rest) = step := by
      rw [← hdigits, DecimalDigits.number_toDigits]
    exact congrArg some hnumber

theorem firstStep_stepName (step : ℕ) :
    firstStep digits (stepName step) = some step := by
  have hat := stepAt_stepName digits step
  cases hname : stepName step with
  | nil => cases hname
  | cons char text =>
    rw [hname] at hat
    rw [firstStep, hat]

/-! ## Names after other text -/

theorem not_isPrefixOf_drop : ∀ count < stepPattern.length, 0 < count →
    (stepPattern.drop count).isPrefixOf stepPattern = false := by
  decide

theorem isPrefixOf_append_pattern (hne : text ≠ [])
    (hstarts : stepPattern.isPrefixOf (text ++ (stepPattern ++ rest)) = true) :
    stepPattern.isPrefixOf text = true := by
  rw [ isPrefixOf_iff_prefix] at hstarts ⊢
  by_cases hlong : stepPattern.length ≤ text.length
  · exact prefix_of_prefix_length_le hstarts (prefix_append _ _) hlong
  · have hshort : text <+: stepPattern :=
      prefix_of_prefix_length_le (prefix_append _ _) hstarts (by omega)
    obtain ⟨more, hmore⟩ := hshort
    have hlength : text.length + more.length = stepPattern.length := by
      rw [← hmore, length_append]
    have hpositive : 0 < text.length := length_pos_iff.mpr hne
    have hagain : more <+: stepPattern := by
      have hrest : more <+: stepPattern ++ rest := by
        rw [← prefix_append_right_inj text, hmore]
        exact hstarts
      exact prefix_of_prefix_length_le hrest (prefix_append _ _) (by omega)
    have hdrop : stepPattern.drop text.length = more := by
      rw [← hmore, drop_left]
    have hnever := not_isPrefixOf_drop text.length (by omega) hpositive
    rw [hdrop, ← Bool.not_eq_true, isPrefixOf_iff_prefix] at hnever
    exact absurd hagain hnever

theorem leading_append_pattern (text rest : List Char) :
    digits.leading (text ++ (stepPattern ++ rest)) = digits.leading text := by
  have hstop : digits.leading (stepPattern ++ rest) = [] := by
    change takeWhile _ ('g' :: _) = []
    rw [takeWhile_cons, digits.letter]
    rfl
  unfold DecimalDigits.leading at hstop ⊢
  rw [takeWhile_append, hstop, append_nil]
  split_ifs with hall
  · exact (( takeWhile_prefix _).eq_of_length hall).symm
  · rfl

variable (digits) in
theorem stepAt_append_pattern (hne : text ≠ []) (rest : List Char) :
    stepAt digits (text ++ (stepPattern ++ rest)) = stepAt digits text := by
  by_cases hstarts : stepPattern.isPrefixOf text = true
  · obtain ⟨more, hmore⟩ := isPrefixOf_iff_prefix.mp hstarts
    have hboth : stepPattern.isPrefixOf (text ++ (stepPattern ++ rest)) =
        true := by
      rw [ isPrefixOf_iff_prefix, ← hmore, append_assoc]
      exact prefix_append _ _
    rw [stepAt, stepAt, if_pos hstarts, if_pos hboth, ← hmore,
      append_assoc, drop_left, drop_left,
      leading_append_pattern]
  · have hneither : ¬stepPattern.isPrefixOf
        (text ++ (stepPattern ++ rest)) = true :=
      fun hboth => hstarts (isPrefixOf_append_pattern hne hboth)
    rw [stepAt, stepAt, if_neg hstarts, if_neg hneither]

theorem firstStep_append_stepName (text : List Char) (step : ℕ) :
    firstStep digits (text ++ stepName step) =
      some ((firstStep digits text).getD step) := by
  induction text with
  | nil => exact firstStep_stepName step
  | cons char text ih =>
    have hat := stepAt_append_pattern digits
      (cons_ne_nil char text) (Nat.toDigits 10 step)
    rw [cons_append] at hat
    change firstStep digits (char :: (text ++ stepName step)) = _
    rw [firstStep, firstStep]
    change stepAt digits (char :: (text ++ stepName step)) = _ at hat
    rw [hat]
    cases stepAt digits (char :: text) with
    | some found => rfl
    | none => exact ih

theorem firstStep_append_stepName_iff (text : List Char) (step : ℕ) :
    firstStep digits (text ++ stepName step) = some step ↔
      firstStep digits text = none ∨ firstStep digits text = some step := by
  rw [firstStep_append_stepName]
  cases firstStep digits text with
  | none | some found => simp

end Search

end VerlVla
