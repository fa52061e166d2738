import Mathlib.Data.List.Basic
import Mathlib.Data.List.Nodup

/-!
# Bounded recency maps

A map that remembers the `n` most recently written keys, as the list of its entries with
the latest write first. Writing moves a key to the front and drops what no longer fits,
reading changes nothing, and a key can be removed by name or by the first match of a
predicate. That keys are distinct and the size is bounded is part of the type.
-/

namespace Recency

universe u v

variable {κ : Type u} {ν : Type v} [DecidableEq κ] {n : Nat}

/-- At most `n` entries with distinct keys, the most recent one first. -/
structure Cache (κ : Type u) (ν : Type v) (n : Nat) where
  entries : List (κ × ν)
  distinct : (entries.map Prod.fst).Nodup
  bounded : entries.length ≤ n

omit [DecidableEq κ] in
/-- Selecting the rows whose keys are among the first `n` keys selects the first `n` rows. -/
theorem filter_mem_take {α : Type v} [DecidableEq κ] (key : α → κ) {rows : List α}
    (distinct : (rows.map key).Nodup) (n : Nat) :
    rows.filter (fun r => key r ∈ (rows.take n).map key) = rows.take n := by
  have hsplit : rows.take n ++ rows.drop n = rows := List.take_append_drop n rows
  have hfront : (rows.take n).filter (fun r => key r ∈ (rows.take n).map key) =
      rows.take n :=
    List.filter_eq_self.mpr fun r hr => decide_eq_true (List.mem_map_of_mem hr)
  have hback : (rows.drop n).filter (fun r => key r ∈ (rows.take n).map key) = [] := by
    refine List.filter_eq_nil_iff.mpr fun r hr hmem => ?_
    rw [← hsplit, List.map_append] at distinct
    exact (List.nodup_append.mp distinct).2.2 _ (of_decide_eq_true hmem) _
      (List.mem_map_of_mem hr) rfl
  have hboth := List.filter_append (p := fun r => decide (key r ∈ (rows.take n).map key))
    (rows.take n) (rows.drop n)
  rwa [hsplit, hfront, hback, List.append_nil] at hboth

namespace Cache

omit [DecidableEq κ] in
@[ext] theorem ext {c d : Cache κ ν n} (h : c.entries = d.entries) : c = d := by
  cases c
  cases d
  simp_all

def empty : Cache κ ν n := ⟨[], by simp, by simp⟩

/-- The entries under other keys. -/
def without (entries : List (κ × ν)) (k : κ) : List (κ × ν) := entries.filter (·.1 ≠ k)

/-- Put a key in front, with this value. -/
def remember (c : Cache κ ν n) (k : κ) (v : ν) : Cache κ ν n where
  entries := ((k, v) :: without c.entries k).take n
  distinct := by
    have hother : k ∉ (without c.entries k).map Prod.fst := by
      simp [without]
    have hrest : ((without c.entries k).map Prod.fst).Nodup :=
      c.distinct.sublist (List.filter_sublist.map _)
    rw [List.map_take]
    exact (List.nodup_cons.mpr ⟨hother, hrest⟩).sublist (List.take_sublist _ _)
  bounded := List.length_take_le _ _

def get? (c : Cache κ ν n) (k : κ) : Option ν :=
  (c.entries.find? (·.1 = k)).map Prod.snd

def erase (c : Cache κ ν n) (k : κ) : Cache κ ν n where
  entries := without c.entries k
  distinct := c.distinct.sublist (List.filter_sublist.map _)
  bounded := Nat.le_trans (List.length_filter_le _ _) c.bounded

omit [DecidableEq κ] in
/-- The first entry whose key satisfies `p`. -/
def first? (c : Cache κ ν n) (p : κ → Bool) : Option (κ × ν) := c.entries.find? (p ·.1)

theorem get?_eq_some {c : Cache κ ν n} {k : κ} {v : ν} :
    c.get? k = some v ↔ (k, v) ∈ c.entries := by
  constructor
  · intro h
    obtain ⟨⟨k', v'⟩, hfind, rfl⟩ := Option.map_eq_some_iff.mp h
    have hk : k' = k := by simpa using List.find?_some hfind
    exact hk ▸ List.mem_of_find?_eq_some hfind
  · intro h
    cases hfind : c.entries.find? (·.1 = k) with
    | none => exact absurd (List.find?_eq_none.mp hfind _ h) (by simp)
    | some entry =>
        have hk : entry.1 = k := by simpa using List.find?_some hfind
        have hmem := List.mem_of_find?_eq_some hfind
        have hsame : entry = (k, v) :=
          List.inj_on_of_nodup_map c.distinct hmem h (by simpa using hk)
        simp [get?, hfind, hsame]

/-- After a write, a key has the value just written or the one it had. -/
theorem get?_remember {c : Cache κ ν n} {k k' : κ} {v v' : ν}
    (h : (c.remember k v).get? k' = some v') :
    (k' = k ∧ v' = v) ∨ (k' ≠ k ∧ c.get? k' = some v') := by
  rw [get?_eq_some] at h
  obtain heq | hmem := List.mem_cons.mp (List.mem_of_mem_take h)
  · obtain ⟨rfl, rfl⟩ := Prod.mk.inj heq
    exact .inl ⟨rfl, rfl⟩
  · obtain ⟨hmem, hne⟩ := List.mem_filter.mp hmem
    exact .inr ⟨by simpa using hne, get?_eq_some.mpr hmem⟩

theorem get?_erase {c : Cache κ ν n} {k k' : κ} {v : ν} :
    (c.erase k).get? k' = some v ↔ k' ≠ k ∧ c.get? k' = some v := by
  rw [get?_eq_some, get?_eq_some]
  simp [erase, without, List.mem_filter, and_comm]

end Cache

end Recency
