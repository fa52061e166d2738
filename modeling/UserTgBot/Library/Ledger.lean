import Mathlib.Data.List.Nodup
import Mathlib.Logic.Function.Basic

/-!
# Tokens that are spent at most once

Holders take fresh tokens, keep them for a while and then spend them or let them go. A token is
held by one holder at a time, is never held again once it has been spent, and is spent at most
once. What makes a token fresh is left to the user: a counter that has not reached it, or a list
that it is not on yet.
-/

namespace Ledger

universe u v

variable {ι : Type u} {κ : Type v} [DecidableEq κ]

/-- `held` says which token a holder has, `spent` which tokens have been spent. -/
structure Sound (fresh : ι → Prop) (held : κ → Option ι) (spent : List ι) : Prop where
  nodup : spent.Nodup
  unspent : ∀ h i, held h = some i → i ∉ spent
  apart : ∀ h h' i, held h = some i → held h' = some i → h = h'
  heldOld : ∀ h i, held h = some i → ¬fresh i
  spentOld : ∀ i ∈ spent, ¬fresh i

/-- A token is accounted for. -/
def Known (held : κ → Option ι) (spent : List ι) (i : ι) : Prop :=
  i ∈ spent ∨ ∃ h, held h = some i

namespace Sound

variable {fresh fresh' : ι → Prop} {held : κ → Option ι} {spent spent' : List ι} {h : κ} {i : ι}

omit [DecidableEq κ] in
theorem initial : Sound fresh (fun _ : κ => none) [] where
  nodup := List.nodup_nil
  unspent := fun _ _ => by simp
  apart := fun _ _ _ => by simp
  heldOld := fun _ _ => by simp
  spentOld := fun _ => by simp

omit [DecidableEq κ] in
/-- Tokens that nobody has taken may go stale. -/
theorem age (s : Sound fresh held spent) (less : ∀ j, fresh' j → fresh j) :
    Sound fresh' held spent :=
  ⟨s.nodup, s.unspent, s.apart, fun h i hheld hfresh => s.heldOld h i hheld (less i hfresh),
    fun i hmem hfresh => s.spentOld i hmem (less i hfresh)⟩

omit [DecidableEq κ] in
theorem perm (s : Sound fresh held spent) (p : spent'.Perm spent) : Sound fresh held spent' where
  nodup := p.nodup_iff.mpr s.nodup
  unspent := fun h i hheld hmem => s.unspent h i hheld (p.mem_iff.mp hmem)
  apart := s.apart
  heldOld := s.heldOld
  spentOld := fun i hmem => s.spentOld i (p.mem_iff.mp hmem)

theorem drop (s : Sound fresh held spent) (h : κ) :
    Sound fresh (Function.update held h none) spent := by
  have hkeeps : ∀ k i, Function.update held h none k = some i → held k = some i := by
    intro k i hk
    by_cases heq : k = h
    · subst heq
      rw [Function.update_self] at hk
      cases hk
    · rwa [Function.update_of_ne heq] at hk
  exact ⟨s.nodup, fun k i hk => s.unspent k i (hkeeps k i hk),
    fun k k' i hk hk' => s.apart k k' i (hkeeps k i hk) (hkeeps k' i hk'),
    fun k i hk => s.heldOld k i (hkeeps k i hk), s.spentOld⟩

/-- A holder goes on with what it has. -/
theorem keep (s : Sound fresh held spent) (has : held h = some i) :
    Sound fresh (Function.update held h (some i)) spent := by
  rwa [← has, Function.update_eq_self]

/-- A holder takes a fresh token, which is not fresh any more. -/
theorem take (s : Sound fresh held spent) (new : fresh i)
    (less : ∀ j, fresh' j → fresh j ∧ j ≠ i) :
    Sound fresh' (Function.update held h (some i)) spent := by
  have hcases : ∀ k j, Function.update held h (some i) k = some j →
      (k = h ∧ j = i) ∨ (k ≠ h ∧ held k = some j) := by
    intro k j hk
    by_cases heq : k = h
    · subst heq
      rw [Function.update_self] at hk
      exact .inl ⟨rfl, (Option.some.inj hk).symm⟩
    · rw [Function.update_of_ne heq] at hk
      exact .inr ⟨heq, hk⟩
  refine ⟨s.nodup, ?_, ?_, ?_, fun j hmem hfresh => s.spentOld j hmem (less j hfresh).1⟩
  · intro k j hk hmem
    obtain ⟨-, rfl⟩ | ⟨-, hold⟩ := hcases k j hk
    · exact s.spentOld j hmem new
    · exact s.unspent k j hold hmem
  · intro k k' j hk hk'
    obtain ⟨rfl, rfl⟩ | ⟨-, hold⟩ := hcases k j hk
    · obtain ⟨rfl, -⟩ | ⟨-, hold'⟩ := hcases k' j hk'
      · rfl
      · exact absurd new (s.heldOld k' j hold')
    · obtain ⟨-, rfl⟩ | ⟨-, hold'⟩ := hcases k' j hk'
      · exact absurd new (s.heldOld k j hold)
      · exact s.apart k k' j hold hold'
  · intro k j hk hfresh
    obtain ⟨-, rfl⟩ | ⟨-, hold⟩ := hcases k j hk
    · exact (less j hfresh).2 rfl
    · exact s.heldOld k j hold (less j hfresh).1

/-- A holder spends its token. -/
theorem spend (s : Sound fresh held spent) (has : held h = some i) :
    Sound fresh (Function.update held h none) (spent ++ [i]) := by
  have hdrop := s.drop h
  refine ⟨?_, ?_, hdrop.apart, hdrop.heldOld, ?_⟩
  · refine List.nodup_append.mpr ⟨s.nodup, List.nodup_singleton i, ?_⟩
    intro j hj k hk heq
    obtain rfl := List.mem_singleton.mp hk
    exact s.unspent h k has (heq ▸ hj)
  · intro k j hk hmem
    obtain hmem | hmem := List.mem_append.mp hmem
    · exact hdrop.unspent k j hk hmem
    · obtain rfl := List.mem_singleton.mp hmem
      by_cases heq : k = h
      · subst heq
        rw [Function.update_self] at hk
        cases hk
      · rw [Function.update_of_ne heq] at hk
        exact heq (s.apart k h j hk has)
  · intro j hmem
    obtain hmem | hmem := List.mem_append.mp hmem
    · exact s.spentOld j hmem
    · obtain rfl := List.mem_singleton.mp hmem
      exact s.heldOld h j has

end Sound

namespace Known

variable {held : κ → Option ι} {spent spent' : List ι} {h : κ} {i j : ι} {next : Option ι}

/-- A holder that keeps, spends or never had the token does not lose it. -/
theorem update (k : Known held spent j) (more : ∀ i ∈ spent, i ∈ spent')
    (kept : held h = some j → next = some j ∨ j ∈ spent') :
    Known (Function.update held h next) spent' j := by
  obtain hmem | ⟨k, hk⟩ := k
  · exact .inl (more j hmem)
  · by_cases heq : k = h
    · subst heq
      obtain hnext | hmem := kept hk
      · exact .inr ⟨k, by rw [Function.update_self, hnext]⟩
      · exact .inl hmem
    · exact .inr ⟨k, by rwa [Function.update_of_ne heq]⟩

theorem taken (held : κ → Option ι) (spent : List ι) (h : κ) (i : ι) :
    Known (Function.update held h (some i)) spent i :=
  .inr ⟨h, Function.update_self ..⟩

end Known

end Ledger
