import Mathlib.Data.Char
import Mathlib.Data.List.Lex
import Mathlib.Tactic.Common

/-!
# Order of decimal digits

Texts of as many decimal digits are ordered as the numbers they write.
-/

namespace VerlVla

def AllDigits (text : List Char) : Prop := ∀ char ∈ text, char.isDigit = true

theorem AllDigits.tail (hdigits : AllDigits (char :: text)) : AllDigits text :=
  fun other hother => hdigits other (List.mem_cons_of_mem _ hother)

theorem isDigit_bounds {char : Char} (hdigit : char.isDigit = true) :
    48 ≤ char.toNat ∧ char.toNat ≤ 57 := by
  simp only [Char.isDigit, Bool.and_eq_true, decide_eq_true_eq] at hdigit
  exact hdigit

section

variable (htext : AllDigits text) (hother : AllDigits other)
  (hlength : text.length = other.length)

include htext hother hlength

theorem ofDigitChars_lt_of_lt (hless : total < bigger) :
    Nat.ofDigitChars 10 text total < Nat.ofDigitChars 10 other bigger := by
  induction text generalizing other total bigger with
  | nil =>
    have hnil : other = [] := List.length_eq_zero_iff.mp hlength.symm
    rw [hnil]
    exact hless
  | cons char text ih =>
    cases other with
    | nil => cases hlength
    | cons digit other =>
      have hchar := isDigit_bounds (htext char List.mem_cons_self)
      rw [Nat.ofDigitChars_cons, Nat.ofDigitChars_cons]
      apply ih htext.tail hother.tail (Nat.succ.inj hlength)
      have hzero : '0'.toNat = 48 := rfl
      omega

theorem ofDigitChars_lt (hless : text < other) (total : ℕ) :
    Nat.ofDigitChars 10 text total < Nat.ofDigitChars 10 other total := by
  induction text generalizing other total with
  | nil =>
    have hnil : other = [] := List.length_eq_zero_iff.mp hlength.symm
    rw [hnil] at hless
    exact absurd hless (lt_irrefl _)
  | cons char text ih =>
    cases other with
    | nil => cases hlength
    | cons digit other =>
      rw [Nat.ofDigitChars_cons, Nat.ofDigitChars_cons]
      have hrest : text.length = other.length := Nat.succ.inj hlength
      cases List.cons_lt_cons_iff.mp hless with
      | inl hfirst =>
        have hchar := isDigit_bounds (htext char List.mem_cons_self)
        have hvalue : char.toNat < digit.toNat := hfirst
        have hzero : '0'.toNat = 48 := rfl
        apply ofDigitChars_lt_of_lt htext.tail hother.tail hrest
        omega
      | inr hlater =>
        rw [hlater.1]
        exact ih htext.tail hother.tail hrest hlater.2 _

theorem lt_of_ofDigitChars_lt
    (hless : Nat.ofDigitChars 10 text 0 < Nat.ofDigitChars 10 other 0) :
    text < other := by
  rcases lt_trichotomy text other with hbefore | hsame | hafter
  · exact hbefore
  · rw [hsame] at hless
    exact absurd hless (lt_irrefl _)
  · have hback := ofDigitChars_lt hother htext hlength.symm hafter 0
    exact absurd hless (lt_asymm hback)

end

end VerlVla
