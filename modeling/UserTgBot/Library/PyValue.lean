import Mathlib.Algebra.Order.Ring.Rat
import Mathlib.Data.List.Sort
import Mathlib.Data.String.Basic
import UserTgBot.Library.PyText

/-!
# Python values and `sorted`

The scalars that a table row may hold. Python compares numbers with numbers, strings with
strings and timestamps with timestamps; any other `<` raises a `TypeError`. Tuples are
compared at the first position in which they differ, so equal entries are never compared.

`sorted` raises if it has to compare two keys that do not compare, and a sort cannot avoid
that: neighbours in the result have been compared with each other. So `sortedDesc` fails
exactly if some two keys are incomparable. Otherwise it is the stable sort.
-/

namespace PyValue

universe u

/-- A scalar; `True` and `False` are the numbers 1 and 0, which they equal in Python. -/
inductive Value where
  | none
  | num (q : ℚ)
  | str (s : String)
  | datetime (t : Int)
deriving DecidableEq

namespace Value

/-- `v or ""`. -/
def orEmpty : Value → Value
  | .none => .str ""
  | .num q => if q = 0 then .str "" else .num q
  | v => v

/-- A missing value counts as the empty string. -/
def noneAsEmpty : Value → Value
  | .none => .str ""
  | v => v

@[simp] theorem orEmpty_noneAsEmpty (v : Value) : v.noneAsEmpty.orEmpty = v.orEmpty := by
  cases v <;> rfl

/-- `int(v)`; nothing if it raises a `TypeError` or a `ValueError`. -/
def toInt? : Value → Option Int
  | .num q => some (q.num.tdiv q.den)
  | .str s => PyText.intOfText (PyText.text s)
  | _ => Option.none

/-- `a < b` does not raise. -/
def Comparable : Value → Value → Prop
  | .num _, .num _ => True
  | .str _, .str _ => True
  | .datetime _, .datetime _ => True
  | _, _ => False

instance : DecidableRel Comparable := fun a b => by
  cases a <;> cases b <;> unfold Comparable <;> infer_instance

theorem Comparable.symm {a b : Value} (h : Comparable a b) : Comparable b a := by
  cases a <;> cases b <;> trivial

/-- Comparable values remain so after `or ""`, unless one of them is the number zero and the
other is not. -/
theorem orEmpty_comparable_iff {a b : Value} (h : Comparable a b) :
    (a.orEmpty = b.orEmpty ∨ Comparable a.orEmpty b.orEmpty) ↔
      (a = .num 0 ↔ b = .num 0) := by
  cases a with
  | num p =>
      cases b with
      | num q => by_cases hp : p = 0 <;> by_cases hq : q = 0 <;> simp [orEmpty, Comparable, hp, hq]
      | _ => cases h
  | none => cases h
  | str s => cases b <;> simp_all [orEmpty, Comparable]
  | datetime t => cases b <;> simp_all [orEmpty, Comparable]

def kind : Value → Nat
  | .none => 0
  | .num _ => 1
  | .str _ => 2
  | .datetime _ => 3

/-- Python's order on comparable values, extended to all of them. -/
def le : Value → Value → Prop
  | .num a, .num b => a ≤ b
  | .str a, .str b => a ≤ b
  | .datetime a, .datetime b => a ≤ b
  | a, b => a.kind ≤ b.kind

instance : DecidableRel le := fun a b => by
  cases a <;> cases b <;> unfold le <;> infer_instance

theorem le.total (a b : Value) : a.le b ∨ b.le a := by
  cases a <;> cases b <;> simp [le, kind] <;> exact le_total _ _

theorem le.trans {a b c : Value} (hab : a.le b) (hbc : b.le c) : a.le c := by
  cases a <;> cases b <;> cases c <;> simp [le, kind] at hab hbc ⊢ <;> exact le_trans hab hbc

theorem le.antisymm {a b : Value} (hab : a.le b) (hba : b.le a) : a = b := by
  cases a <;> cases b <;> simp [le, kind] at hab hba ⊢ <;> exact le_antisymm hab hba

/-- `a < b` is true. -/
def Lt (a b : Value) : Prop := a.Comparable b ∧ a.le b ∧ a ≠ b

instance : DecidableRel Lt := fun a b => by
  rw [Lt]
  infer_instance

end Value

/-- A two-element tuple used as a sort key. -/
abbrev SortKey := Value × Value

/-- `k < k'` does not raise. -/
def KeyComparable (k k' : SortKey) : Prop :=
  if k.1 = k'.1 then k.2 = k'.2 ∨ k.2.Comparable k'.2 else k.1.Comparable k'.1

instance : DecidableRel KeyComparable := fun k k' => by
  rw [KeyComparable]
  infer_instance

theorem KeyComparable.symm {k k' : SortKey} (h : KeyComparable k k') : KeyComparable k' k := by
  unfold KeyComparable at *
  by_cases heq : k.1 = k'.1
  · rw [if_pos heq] at h
    rw [if_pos heq.symm]
    exact h.imp Eq.symm Value.Comparable.symm
  · rw [if_neg heq] at h
    rw [if_neg (Ne.symm heq)]
    exact h.symm

def keyLe (k k' : SortKey) : Prop := if k.1 = k'.1 then k.2.le k'.2 else k.1.le k'.1

instance : DecidableRel keyLe := fun k k' => by
  rw [keyLe]
  infer_instance

theorem keyLe_total (k k' : SortKey) : keyLe k k' ∨ keyLe k' k := by
  unfold keyLe
  by_cases heq : k.1 = k'.1
  · rw [if_pos heq, if_pos heq.symm]
    exact Value.le.total _ _
  · rw [if_neg heq, if_neg (Ne.symm heq)]
    exact Value.le.total _ _

theorem keyLe_antisymm {k k' : SortKey} (h : keyLe k k') (h' : keyLe k' k) : k = k' := by
  rw [keyLe] at h h'
  by_cases heq : k.1 = k'.1
  · rw [if_pos heq] at h
    rw [if_pos heq.symm] at h'
    exact Prod.ext heq (h.antisymm h')
  · rw [if_neg heq] at h
    rw [if_neg (Ne.symm heq)] at h'
    exact absurd (h.antisymm h') heq

theorem keyLe_trans {a b c : SortKey} (hab : keyLe a b) (hbc : keyLe b c) : keyLe a c := by
  unfold keyLe at *
  by_cases h₁ : a.1 = b.1 <;> by_cases h₂ : b.1 = c.1
  · rw [if_pos h₁] at hab
    rw [if_pos h₂] at hbc
    rw [if_pos (h₁.trans h₂)]
    exact hab.trans hbc
  · rw [if_neg h₂] at hbc
    rw [if_neg (h₁ ▸ h₂), h₁]
    exact hbc
  · rw [if_neg h₁] at hab
    rw [if_neg (h₂ ▸ h₁), ← h₂]
    exact hab
  · rw [if_neg h₁] at hab
    rw [if_neg h₂] at hbc
    have hne : a.1 ≠ c.1 := fun heq => h₂ (hbc.antisymm (heq ▸ hab))
    rw [if_neg hne]
    exact hab.trans hbc

section Sorted

variable {α : Type u} {key : α → SortKey} {l s : List α}

/-- `sorted(l, key=key, reverse=True)`; nothing if it raises a `TypeError`. -/
def sortedDesc (key : α → SortKey) (l : List α) : Option (List α) :=
  if l.Pairwise fun x y => KeyComparable (key x) (key y) then
    some (l.insertionSort fun x y => keyLe (key y) (key x))
  else none

theorem sortedDesc_isSome :
    (sortedDesc key l).isSome ↔ l.Pairwise fun x y => KeyComparable (key x) (key y) := by
  rw [sortedDesc]
  split <;> simp [*]

/-- What is sorted is a rearrangement in descending order of the keys. -/
theorem sortedDesc_spec (h : sortedDesc key l = some s) :
    s.Perm l ∧ s.Pairwise fun x y => keyLe (key y) (key x) := by
  rw [sortedDesc] at h
  split at h
  · cases h
    have total : Std.Total fun x y : α => keyLe (key y) (key x) :=
      ⟨fun x y => keyLe_total (key y) (key x)⟩
    have trans : IsTrans α fun x y => keyLe (key y) (key x) :=
      ⟨fun _ _ _ hxy hyz => keyLe_trans hyz hxy⟩
    exact ⟨List.perm_insertionSort _ l, List.pairwise_insertionSort _ l⟩
  · cases h

/-- All but the first have somebody at least as large before them. -/
theorem exists_keyLe_of_mem_drop_one (h : sortedDesc key l = some s) (distinct : l.Nodup) {x : α}
    (hx : x ∈ s.drop 1) : ∃ y ∈ l, y ≠ x ∧ keyLe (key x) (key y) := by
  obtain ⟨hperm, hsorted⟩ := sortedDesc_spec h
  have hdistinct : s.Nodup := hperm.nodup_iff.mpr distinct
  cases s with
  | nil => cases hx
  | cons y s =>
      obtain ⟨hbefore, -⟩ := List.pairwise_cons.mp hsorted
      refine ⟨y, hperm.mem_iff.mp List.mem_cons_self, ?_, hbefore x hx⟩
      rintro rfl
      exact (List.nodup_cons.mp hdistinct).1 hx

/-- Of two elements one is not the first. -/
theorem mem_drop_one_of_ne (h : sortedDesc key l = some s) {x y : α} (hx : x ∈ l) (hy : y ∈ l)
    (hne : y ≠ x) (hle : keyLe (key x) (key y)) :
    x ∈ s.drop 1 ∨ (y ∈ s.drop 1 ∧ key y = key x) := by
  obtain ⟨hperm, hsorted⟩ := sortedDesc_spec h
  have hxs := hperm.mem_iff.mpr hx
  have hys := hperm.mem_iff.mpr hy
  cases s with
  | nil => cases hxs
  | cons first s =>
      obtain ⟨hbefore, -⟩ := List.pairwise_cons.mp hsorted
      obtain rfl | hxs := List.mem_cons.mp hxs
      · obtain rfl | hys := List.mem_cons.mp hys
        · exact absurd rfl hne
        · exact .inr ⟨hys, keyLe_antisymm (hbefore y hys) hle⟩
      · exact .inl hxs

end Sorted

end PyValue
