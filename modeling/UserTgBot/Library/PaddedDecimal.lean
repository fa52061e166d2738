import UserTgBot.Library.PyText
import Mathlib.Data.List.Lex

/-!
# Decimals of a fixed width

Numbers that are written with leading zeros in a fixed number of digits are ordered as texts
the way they are ordered as numbers. A text that concatenates such decimals, as a timestamp
does, is therefore ordered like the list of its numbers: `padded_append_le` adds one number
in front of a comparison that is already known.
-/

namespace PyText

/-- A text is before another if it has a smaller prefix of the same length. -/
theorem append_lt_append {α : Type*} [LT α] {s t : List α} (length : s.length = t.length)
    (lt : s < t) (x y : List α) : s ++ x < t ++ y := by
  induction s generalizing t with
  | nil =>
      cases t with
      | nil => cases lt
      | cons b t => cases length
  | cons a s ih =>
      cases t with
      | nil => cases length
      | cons b t =>
          rw [List.cons_lt_cons_iff] at lt
          rw [List.cons_append, List.cons_append, List.cons_lt_cons_iff]
          cases lt with
          | inl hab => exact .inl hab
          | inr heq => exact .inr ⟨heq.1, ih (Nat.succ.inj length) heq.2⟩

theorem append_left_le {α : Type*} [LinearOrder α] (s : List α) {x y : List α} (le : x ≤ y) :
    s ++ x ≤ s ++ y := by
  cases lt_or_eq_of_le le with
  | inl hlt => exact le_of_lt (List.append_left_lt hlt)
  | inr heq => exact le_of_eq (congrArg (s ++ ·) heq)

/-- The last digit of a number. -/
def digit (n : Nat) : CodePoint := ⟨0x30 + n % 10, by omega⟩

theorem digit_lt_digit {n m : Nat} : digit n < digit m ↔ n % 10 < m % 10 := by
  rw [Fin.lt_def]
  show 0x30 + n % 10 < 0x30 + m % 10 ↔ n % 10 < m % 10
  omega

/-- `n` with leading zeros in `width` digits. -/
def padded : Nat → Nat → Text
  | 0, _ => []
  | width + 1, n => padded width (n / 10) ++ [digit n]

@[simp] theorem length_padded (width n : Nat) : (padded width n).length = width := by
  induction width generalizing n with
  | zero => rfl
  | succ width ih => simp [padded, ih]

theorem padded_lt {width n m : Nat} (lt : n < m) (fits : m < 10 ^ width) :
    padded width n < padded width m := by
  induction width generalizing n m with
  | zero => omega
  | succ width ih =>
      have hfits : m / 10 < 10 ^ width := by
        rw [pow_succ] at fits
        omega
      by_cases heq : n / 10 = m / 10
      · have hlast : n % 10 < m % 10 := by omega
        rw [padded, padded, heq]
        exact List.append_left_lt (List.cons_lt_cons_iff.mpr (.inl (digit_lt_digit.mpr hlast)))
      · have hfirst : n / 10 < m / 10 := by omega
        exact append_lt_append (by simp) (ih hfirst hfits) _ _

/-- One more number in front of both texts. -/
theorem padded_append_le {width n m : Nat} {ns ms : List Nat} {x y : Text}
    (fits : m < 10 ^ width) (le : n :: ns ≤ m :: ms) (rest : ns ≤ ms → x ≤ y) :
    padded width n ++ x ≤ padded width m ++ y := by
  have hcases : n < m ∨ n = m ∧ ns ≤ ms := by
    cases lt_or_eq_of_le le with
    | inl hlt => exact (List.cons_lt_cons_iff.mp hlt).imp_right (.imp_right le_of_lt)
    | inr heq => exact .inr ⟨(List.cons.inj heq).1, le_of_eq (List.cons.inj heq).2⟩
  cases hcases with
  | inl hlt => exact le_of_lt (append_lt_append (by simp) (padded_lt hlt fits) x y)
  | inr hsame =>
      rw [hsame.1]
      exact append_left_le _ (rest hsame.2)

end PyText
