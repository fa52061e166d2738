import Mathlib.Algebra.Order.Group.Abs
import Mathlib.Algebra.Order.Group.Int

/-!
# Times that keep a distance

Each of several parties does a thing at most once, at a time of its own. `Spaced` says that any
two of these times are at least `c` apart. A further time that is late enough
after all others keeps the distance. In a window shorter than the distance there is at most one.
-/

namespace Spacing

universe u v

variable {ι : Type u} {α : Type v} [AddCommGroup α] [LinearOrder α] [IsOrderedAddMonoid α]
variable {c now : α} {time time' : ι → Option α} {i j : ι}

/-- Any two of the times are at least `c` apart. -/
def Spaced (c : α) (time : ι → Option α) : Prop :=
  ∀ i j a b, i ≠ j → time i = some a → time j = some b → c ≤ |a - b|

omit [IsOrderedAddMonoid α] in
/-- Fewer times keep the distance as well. -/
theorem Spaced.of_subset (h : Spaced c time)
    (sub : ∀ i a, time' i = some a → time i = some a) : Spaced c time' :=
  fun i j a b hne ha hb => h i j a b hne (sub i a ha) (sub j b hb)

/-- The later of two times is at least `c` after the other. -/
theorem Spaced.le_sub (h : Spaced c time) {a b : α} (hne : i ≠ j) (hi : time i = some a)
    (hj : time j = some b) (ordered : b ≤ a) : c ≤ a - b := by
  have hpair := h i j a b hne hi hj
  rwa [abs_of_nonneg (sub_nonneg.mpr ordered)] at hpair

omit [IsOrderedAddMonoid α] in
/-- A further time that is late enough after all others. -/
theorem Spaced.of_late (h : Spaced c time) (late : ∀ j a, time j = some a → c ≤ now - a)
    (others : ∀ j a, j ≠ i → time' j = some a → time j = some a)
    (own : ∀ a, time' i = some a → a = now) : Spaced c time' := by
  intro j k a b hne ha hb
  by_cases hj : j = i
  · subst hj
    obtain rfl := own a ha
    exact (late k b (others k b hne.symm hb)).trans (le_abs_self _)
  · by_cases hk : k = i
    · subst hk
      obtain rfl := own b hb
      rw [abs_sub_comm]
      exact (late j a (others j a hj ha)).trans (le_abs_self _)
    · exact h j k a b hne (others j a hj ha) (others k b hk hb)

/-- Two times in a window that is shorter than the distance are of one party. -/
theorem Spaced.eq_of_window (h : Spaced c time) {start width a b : α} (short : width < c)
    (hi : time i = some a) (hj : time j = some b) (ha : start ≤ a ∧ a ≤ start + width)
    (hb : start ≤ b ∧ b ≤ start + width) : i = j := by
  by_contra hne
  have hclose : |a - b| ≤ width := by
    rw [abs_le]
    constructor
    · have hdiff := sub_le_sub ha.1 hb.2
      rwa [sub_add_cancel_left] at hdiff
    · have hdiff := sub_le_sub ha.2 hb.1
      rwa [add_sub_cancel_left] at hdiff
  exact absurd ((h i j a b hne hi hj).trans hclose) (not_le_of_gt short)

end Spacing
