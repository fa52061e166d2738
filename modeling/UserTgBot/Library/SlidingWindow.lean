import Mathlib.Algebra.Order.Group.Defs
import Mathlib.Data.List.Induction

/-!
# Sliding windows over a log of times

A log of times grows at its end, and a deque holds what is left of it after old entries have
been popped from the front. With times that never go back the deque is the part of the log in
the window that ends now. When every entry was admitted for having fewer than `n` others in
the window before it, no interval of the window's length holds more than `n`.
-/

namespace SlidingWindow

universe u

section Counting

variable {τ : Type u} [LinearOrder τ] {t : τ} {times : List τ}

/-- How many of the times lie in a closed interval. -/
def within (first last : τ) (times : List τ) : Nat :=
  times.countP fun t => first ≤ t ∧ t ≤ last

@[simp] theorem within_nil (first last : τ) : within first last [] = 0 := rfl

theorem within_append (first last : τ) (old new : List τ) :
    within first last (old ++ new) = within first last old + within first last new :=
  List.countP_append

theorem within_singleton (first last t : τ) :
    within first last [t] = if first ≤ t ∧ t ≤ last then 1 else 0 := by
  rw [within, List.countP_singleton]
  simp

theorem within_eq_zero {first last : τ} (h : ∀ t ∈ times, t < first) :
    within first last times = 0 := by
  rw [within, List.countP_eq_zero]
  intro t ht hin
  exact (h t ht).not_ge (of_decide_eq_true hin).1

theorem within_eq_length {first last : τ} (h : ∀ t ∈ times, first ≤ t ∧ t ≤ last) :
    within first last times = times.length := by
  rw [within, List.countP_eq_length]
  intro t ht
  exact decide_eq_true (h t ht)

theorem within_le_within {first last first' last' : τ}
    (h : ∀ t ∈ times, first ≤ t → t ≤ last → first' ≤ t ∧ t ≤ last') :
    within first last times ≤ within first' last' times := by
  apply List.countP_mono_left
  intro t ht hin
  obtain ⟨hfirst, hlast⟩ := of_decide_eq_true hin
  exact decide_eq_true (h t ht hfirst hlast)

end Counting

variable {τ : Type u} [AddCommGroup τ] [LinearOrder τ]
variable {w now now' t : τ} {log deque times : List τ}

/-- Pops from the front what is older than the window. -/
def prune (w now : τ) (deque : List τ) : List τ :=
  deque.dropWhile fun t => w < now - t

@[simp] theorem prune_nil (w now : τ) : prune w now [] = [] := rfl

theorem prune_cons (w now t : τ) (deque : List τ) :
    prune w now (t :: deque) = if w < now - t then prune w now deque else t :: deque := by
  rw [prune, List.dropWhile_cons]
  simp only [decide_eq_true_eq]
  rfl

/-- The log is in order and ends by `now`, and what the deque lacks of it is out of the
window. -/
structure Covers (w now : τ) (log deque : List τ) : Prop where
  inOrder : log.Pairwise (· ≤ ·)
  past : ∀ t ∈ log, t ≤ now
  split : ∃ old, log = old ++ deque ∧ ∀ t ∈ old, w < now - t

theorem covers_nil (w now : τ) : Covers w now [] [] :=
  ⟨.nil, fun _ h => absurd h List.not_mem_nil, [], rfl, fun _ h => absurd h List.not_mem_nil⟩

/-- Popping one entry after the other is justified by the entry that is popped. -/
theorem Covers.prune (h : Covers w now log deque) : Covers w now log (prune w now deque) := by
  induction deque with
  | nil => exact h
  | cons t deque ih =>
      rw [prune_cons]
      by_cases hold : w < now - t
      · rw [if_pos hold]
        obtain ⟨old, hlog, hout⟩ := h.split
        apply ih
        refine ⟨h.inOrder, h.past, old ++ [t], by rw [hlog, List.append_cons], ?_⟩
        intro s hs
        obtain hs | hs := List.mem_append.mp hs
        · exact hout s hs
        · obtain rfl := List.mem_singleton.mp hs
          exact hold
      · rwa [if_neg hold]

theorem Covers.push (h : Covers w now log deque) :
    Covers w now (log ++ [now]) (deque ++ [now]) := by
  obtain ⟨old, hlog, hold⟩ := h.split
  refine ⟨?_, ?_, old, by rw [hlog, List.append_assoc], hold⟩
  · rw [List.pairwise_append]
    refine ⟨h.inOrder, List.pairwise_singleton _ _, fun t ht s hs => ?_⟩
    obtain rfl := List.mem_singleton.mp hs
    exact h.past t ht
  · intro t ht
    obtain ht | ht := List.mem_append.mp ht
    · exact h.past t ht
    · exact (List.mem_singleton.mp ht).le

variable [IsOrderedAddMonoid τ]

/-- An entry that is too old stays so. -/
theorem Covers.mono (h : Covers w now log deque) (hle : now ≤ now') : Covers w now' log deque := by
  obtain ⟨old, hlog, hold⟩ := h.split
  refine ⟨h.inOrder, fun t ht => (h.past t ht).trans hle, old, hlog, fun t ht => ?_⟩
  exact (hold t ht).trans_le (sub_le_sub_right hle t)

/-- After pruning everything that is left is in the window. -/
theorem mem_prune_le (inOrder : deque.Pairwise (· ≤ ·)) (ht : t ∈ prune w now deque) :
    now - w ≤ t := by
  induction deque with
  | nil => exact absurd ht List.not_mem_nil
  | cons s deque ih =>
      rw [List.pairwise_cons] at inOrder
      rw [prune_cons] at ht
      by_cases hold : w < now - s
      · rw [if_pos hold] at ht
        exact ih inOrder.2 ht
      · rw [if_neg hold, List.mem_cons] at ht
        have hs : now - w ≤ s := sub_le_comm.mp (not_lt.mp hold)
        obtain rfl | ht := ht
        · exact hs
        · exact hs.trans (inOrder.1 t ht)

/-- The pruned deque holds as many entries as the log has in the window. -/
theorem Covers.length_prune (h : Covers w now log deque) :
    (SlidingWindow.prune w now deque).length = within (now - w) now log := by
  obtain ⟨old, hlog, hold⟩ := h.prune.split
  have hdeque : deque.Pairwise (· ≤ ·) := by
    obtain ⟨popped, hsplit, -⟩ := h.split
    have hall := h.inOrder
    rw [hsplit, List.pairwise_append] at hall
    exact hall.2.1
  have hpast := h.past
  rw [hlog] at hpast
  rw [hlog, within_append, within_eq_zero fun t ht => lt_sub_comm.mp (hold t ht), Nat.zero_add,
    within_eq_length]
  intro t ht
  exact ⟨mem_prune_le hdeque ht, hpast t (List.mem_append_right _ ht)⟩

/-- Entries that were admitted one by one for room in their own window leave no interval of
its length with more than the limit. -/
theorem within_le_of_admitted {n : Nat} (inOrder : times.Pairwise (· ≤ ·))
    (admitted : ∀ past t later, times = past ++ t :: later → within (t - w) t past < n)
    (first : τ) : within first (first + w) times ≤ n := by
  induction times using List.reverseRecOn with
  | nil => exact Nat.zero_le n
  | append_singleton times t ih =>
      rw [List.pairwise_append] at inOrder
      have hearlier := ih inOrder.1 fun past s later heq =>
        admitted past s (later ++ [t]) (by rw [heq]; simp)
      have hroom := admitted times t [] rfl
      rw [within_append, within_singleton]
      by_cases hin : first ≤ t ∧ t ≤ first + w
      · have hsub : within first (first + w) times ≤ within (t - w) t times := by
          apply within_le_within
          intro s hs hfirst _
          exact ⟨(sub_le_iff_le_add.mpr hin.2).trans hfirst,
            inOrder.2.2 s hs t (List.mem_singleton_self t)⟩
        rw [if_pos hin]
        omega
      · rw [if_neg hin]
        omega

end SlidingWindow
