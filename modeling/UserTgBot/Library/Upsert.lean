import Mathlib.Data.List.Dedup
import Mathlib.Data.List.Induction

/-!
# Rows that are updated in place or appended

An upsert looks for the rows with a key: it edits the ones there are, and appends a new row when
there is none. The keys of the table are then those of the upserts in the order in which they
first came, so the last row belongs to the key that came up last for the first time. This is
the key of the last upsert unless that one is older than another.
-/

namespace Upsert

universe u v w

section Table

variable {α : Type u} {β : Type w} {κ : Type v} [DecidableEq κ] {key : α → κ} {k : κ}
variable {edit : α → α} {new : α} {rows : List α}

def upsert (key : α → κ) (k : κ) (edit : α → α) (new : α) (rows : List α) : List α :=
  if k ∈ rows.map key then rows.map fun row => if key row = k then edit row else row
  else rows ++ [new]

/-- What no edit changes is not changed in the table. -/
theorem map_edited {f : α → β} (h : ∀ row, key row = k → f (edit row) = f row) :
    (rows.map fun row => if key row = k then edit row else row).map f = rows.map f := by
  rw [List.map_map]
  apply List.map_congr_left
  intro row _
  rw [Function.comp_apply]
  by_cases hkey : key row = k
  · rw [if_pos hkey, h row hkey]
  · rw [if_neg hkey]

/-- The columns that an edit leaves alone. -/
theorem map_upsert_of_kept {f : α → β} (h : ∀ row, key row = k → f (edit row) = f row) :
    (upsert key k edit new rows).map f =
      if k ∈ rows.map key then rows.map f else rows.map f ++ [f new] := by
  rw [upsert]
  by_cases hk : k ∈ rows.map key
  · rw [if_pos hk, if_pos hk, map_edited h]
  · rw [if_neg hk, if_neg hk, List.map_append, List.map_singleton]

/-- The upsert as it looks in a part of the columns, where another key singles out the row. -/
theorem map_upsert {κ' : Type*} [DecidableEq κ'] {f : α → β} {key' : β → κ'} {k' : κ'}
    {edit' : β → β} (hkey : ∀ row ∈ rows, key row = k ↔ key' (f row) = k')
    (hedit : ∀ row ∈ rows, key row = k → f (edit row) = edit' (f row)) :
    (upsert key k edit new rows).map f = upsert key' k' edit' (f new) (rows.map f) := by
  have hmem : k ∈ rows.map key ↔ k' ∈ (rows.map f).map key' := by
    rw [List.map_map, List.mem_map, List.mem_map]
    exact exists_congr fun row => and_congr_right (hkey row)
  rw [upsert, upsert]
  by_cases hk : k ∈ rows.map key
  · rw [if_pos hk, if_pos (hmem.mp hk), List.map_map, List.map_map]
    apply List.map_congr_left
    intro row hrow
    rw [Function.comp_apply, Function.comp_apply]
    by_cases hrowKey : key row = k
    · rw [if_pos hrowKey, if_pos ((hkey row hrow).mp hrowKey), hedit row hrow hrowKey]
    · rw [if_neg hrowKey, if_neg ((hkey row hrow).not.mp hrowKey)]
  · rw [if_neg hk, if_neg (hmem.not.mp hk), List.map_append, List.map_singleton]

/-- In the rows that a predicate on keys selects, the upsert of a selected key is an upsert. -/
theorem filter_upsert {p : κ → Bool} (hedit : ∀ row, key row = k → key (edit row) = k)
    (hnew : key new = k) (hk : p k = true) :
    (upsert key k edit new rows).filter (fun row => p (key row)) =
      upsert key k edit new (rows.filter fun row => p (key row)) := by
  have hmem : k ∈ (rows.filter fun row => p (key row)).map key ↔ k ∈ rows.map key := by
    rw [List.mem_map, List.mem_map]
    constructor
    · rintro ⟨row, hrow, hkey⟩
      exact ⟨row, List.mem_of_mem_filter hrow, hkey⟩
    · rintro ⟨row, hrow, hkey⟩
      exact ⟨row, List.mem_filter.mpr ⟨hrow, by rw [hkey, hk]⟩, hkey⟩
  rw [upsert, upsert]
  by_cases hold : k ∈ rows.map key
  · rw [if_pos hold, if_pos (hmem.mpr hold), List.filter_map]
    apply congrArg (List.map _)
    apply List.filter_congr
    intro row _
    rw [Function.comp_apply]
    by_cases hkey : key row = k
    · rw [if_pos hkey, hedit row hkey, hkey]
    · rw [if_neg hkey]
  · rw [if_neg hold, if_neg (hmem.not.mpr hold), List.filter_append,
      List.filter_cons_of_pos (by rw [hnew, hk]), List.filter_nil]

/-- Rows that a predicate on keys selects do not see the upsert of any other key. -/
theorem filter_upsert_of_not {p : κ → Bool} (hedit : ∀ row, key row = k → key (edit row) = k)
    (hnew : key new = k) (hk : p k = false) :
    (upsert key k edit new rows).filter (fun row => p (key row)) =
      rows.filter fun row => p (key row) := by
  rw [upsert]
  by_cases hold : k ∈ rows.map key
  · rw [if_pos hold]
    clear hold
    induction rows with
    | nil => rfl
    | cons row rows ih =>
        rw [List.map_cons, List.filter_cons, List.filter_cons, ih]
        by_cases hkey : key row = k
        · rw [if_pos hkey, hedit row hkey, hkey, hk]
          rfl
        · rw [if_neg hkey]
  · rw [if_neg hold, List.filter_append, List.filter_cons_of_neg (by rw [hnew, hk]; simp),
      List.filter_nil, List.append_nil]

end Table

section FirstSeen

variable {κ : Type v} [DecidableEq κ]

/-- One more key stands at the end, unless it has come before. -/
theorem eraseDups_append_singleton (l : List κ) (k : κ) :
    (l ++ [k]).eraseDups = if k ∈ l then l.eraseDups else l.eraseDups ++ [k] := by
  rw [List.eraseDups_append]
  by_cases hk : k ∈ l
  · simp [List.removeAll, hk]
  · simp [List.removeAll, hk, List.eraseDups_cons]

/-- The keys stand in the order of their first positions. -/
theorem pairwise_idxOf_eraseDups (l : List κ) :
    l.eraseDups.Pairwise fun a b => l.idxOf a < l.idxOf b := by
  induction l using List.reverseRecOn with
  | nil => exact .nil
  | append_singleton l k ih =>
      have hkept : l.eraseDups.Pairwise fun a b => (l ++ [k]).idxOf a < (l ++ [k]).idxOf b := by
        apply ih.imp_of_mem
        intro a b ha hb hlt
        rwa [List.idxOf_append_of_mem (List.mem_eraseDups.mp ha),
          List.idxOf_append_of_mem (List.mem_eraseDups.mp hb)]
      rw [eraseDups_append_singleton]
      by_cases hk : k ∈ l
      · rwa [if_pos hk]
      · rw [if_neg hk, List.pairwise_append]
        refine ⟨hkept, List.pairwise_singleton _ _, fun a ha b hb => ?_⟩
        have ha' := List.mem_eraseDups.mp ha
        obtain rfl := List.mem_singleton.mp hb
        rw [List.idxOf_append_of_mem ha', List.idxOf_append_of_notMem hk]
        have hlt := List.idxOf_lt_length_of_mem ha'
        omega

/-- The last key that came up for the first time is the last key of all just where no other key
came up first after it did. -/
theorem getLast?_eraseDups_eq_iff (l : List κ) : l.eraseDups.getLast? = l.getLast? ↔
    ∀ k ∈ l.getLast?, ∀ k' ∈ l, l.idxOf k' ≤ l.idxOf k := by
  obtain rfl | ⟨earlier, k, hl⟩ := l.eq_nil_or_concat'
  · simp
  · have hordered := pairwise_idxOf_eraseDups l
    have hmem : ∀ k', k' ∈ l.eraseDups ↔ k' ∈ l := fun k' => List.mem_eraseDups
    have hlast : l.getLast? = some k := by rw [hl, List.getLast?_concat]
    have hk : k ∈ l := List.mem_of_getLast? hlast
    rw [hlast]
    constructor
    · intro h k₁ hk₁ k' hk'
      obtain rfl := Option.some.inj hk₁
      obtain ⟨older, hsplit⟩ := List.getLast?_eq_some_iff.mp h
      rw [hsplit, List.pairwise_append] at hordered
      obtain hin | hin := List.mem_append.mp (hsplit ▸ (hmem k').mpr hk')
      · have hlt := hordered.2.2 k' hin k (List.mem_singleton_self k)
        omega
      · exact Nat.le_of_eq (congrArg l.idxOf (List.mem_singleton.mp hin))
    · intro h
      obtain ⟨older, newer, hsplit⟩ := List.append_of_mem ((hmem k).mpr hk)
      cases newer with
      | nil => rw [hsplit, List.getLast?_concat]
      | cons k' newer =>
          rw [hsplit, List.pairwise_append, List.pairwise_cons] at hordered
          have hlt := hordered.2.1.1 k' List.mem_cons_self
          have hk' : k' ∈ l := (hmem k').mp (by rw [hsplit]; simp)
          have hle := h k rfl k' hk'
          omega

end FirstSeen

section Latest

variable {κ : Type v} {ν : Type w} [DecidableEq κ]

/-- The table after upserts of pairs that replace each other. -/
def put (rows : List (κ × ν)) (pair : κ × ν) : List (κ × ν) :=
  upsert Prod.fst pair.1 (fun _ => pair) pair rows

def latest (pairs : List (κ × ν)) : List (κ × ν) := pairs.foldl put []

theorem latest_append_singleton (pairs : List (κ × ν)) (pair : κ × ν) :
    latest (pairs ++ [pair]) = put (latest pairs) pair := by
  rw [latest, List.foldl_append]
  rfl

theorem map_fst_put (rows : List (κ × ν)) (pair : κ × ν) : (put rows pair).map Prod.fst =
    if pair.1 ∈ rows.map Prod.fst then rows.map Prod.fst else rows.map Prod.fst ++ [pair.1] :=
  map_upsert_of_kept fun _ h => h.symm

theorem map_fst_latest (pairs : List (κ × ν)) :
    (latest pairs).map Prod.fst = (pairs.map Prod.fst).eraseDups := by
  induction pairs using List.reverseRecOn with
  | nil => rfl
  | append_singleton pairs pair ih =>
      rw [latest_append_singleton, map_fst_put, ih, List.map_append, List.map_singleton,
        eraseDups_append_singleton]
      simp only [List.mem_eraseDups]

theorem filter_put (rows : List (κ × ν)) (pair : κ × ν) (k : κ) :
    (put rows pair).filter (fun row => row.1 = k) =
      if pair.1 = k then put (rows.filter fun row => row.1 = k) pair
      else rows.filter fun row => row.1 = k := by
  by_cases hk : pair.1 = k
  · rw [if_pos hk]
    exact filter_upsert (p := fun key => key = k) (fun _ _ => rfl) rfl (decide_eq_true hk)
  · rw [if_neg hk]
    exact filter_upsert_of_not (p := fun key => key = k) (fun _ _ => rfl) rfl
      (decide_eq_false hk)

/-- A key has one row, with the value that came last. -/
theorem filter_latest (pairs : List (κ × ν)) (k : κ) :
    (latest pairs).filter (fun row => row.1 = k) =
      (pairs.filter fun row => row.1 = k).getLast?.toList := by
  induction pairs using List.reverseRecOn with
  | nil => rfl
  | append_singleton pairs pair ih =>
      rw [latest_append_singleton, filter_put, ih, List.filter_append]
      by_cases hk : pair.1 = k
      · rw [if_pos hk, List.filter_cons_of_pos (by simpa using hk), List.filter_nil,
          List.getLast?_concat]
        cases hlast : (pairs.filter fun row => row.1 = k).getLast? with
        | none => rfl
        | some row =>
            have hrow := (List.mem_filter.mp (List.mem_of_getLast? hlast)).2
            have hkey : row.1 = pair.1 := (of_decide_eq_true hrow).trans hk.symm
            rw [Option.toList_some, put, upsert, if_pos (by simp [hkey]), List.map_singleton,
              if_pos hkey]
            rfl
      · rw [if_neg hk, List.filter_cons_of_neg (by simpa using hk), List.filter_nil,
          List.append_nil]

end Latest

end Upsert
