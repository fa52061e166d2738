import Mathlib.Data.List.Sort

/-!
# Results of ordered queries

`SELECT ... ORDER BY key DESC` returns the selected rows so that the keys descend; rows with
the same key come in any order. A reader that takes the first row with some property
therefore has a choice among the rows with the largest key, and no other.
-/

namespace OrderBy

universe u v

variable {α : Type u} {β : Type v} [LinearOrder β] {key : α → β} {rows result : List α}
variable {p : α → Bool} {x y : α}

/-- A possible result for the selected rows. -/
structure Desc (key : α → β) (rows result : List α) : Prop where
  perm : result.Perm rows
  sorted : result.Pairwise fun a b => key b ≤ key a

/-- One of the results. -/
def sortDesc (key : α → β) (rows : List α) : List α :=
  rows.insertionSort fun a b => key b ≤ key a

theorem desc_sortDesc (key : α → β) (rows : List α) : Desc key rows (sortDesc key rows) := by
  have htotal : Std.Total fun a b : α => key b ≤ key a := ⟨fun a b => le_total (key b) (key a)⟩
  have htrans : IsTrans α fun a b => key b ≤ key a := ⟨fun a b c hab hbc => le_trans hbc hab⟩
  exact ⟨List.perm_insertionSort _ _, List.pairwise_insertionSort _ _⟩

theorem Desc.mem (h : Desc key rows result) : x ∈ result ↔ x ∈ rows := h.perm.mem_iff

/-- No row with the property has a larger key than the first one. -/
theorem Desc.find?_max (h : Desc key rows result) (hfind : result.find? p = some x) :
    x ∈ rows ∧ p x = true ∧ ∀ y ∈ rows, p y = true → key y ≤ key x := by
  have hx : p x = true := List.find?_some hfind
  refine ⟨h.mem.mp (List.mem_of_find?_eq_some hfind), hx, fun y hy hpy => ?_⟩
  obtain ⟨-, before, after, heq, hbefore⟩ := List.find?_eq_some_iff_append.mp hfind
  have hy : y ∈ before ++ x :: after := heq ▸ h.mem.mpr hy
  have hsorted := heq ▸ h.sorted
  cases List.mem_append.mp hy with
  | inl hmem =>
      have hnot := hbefore y hmem
      rw [hpy] at hnot
      cases hnot
  | inr hmem =>
      cases List.mem_cons.mp hmem with
      | inl heq => exact le_of_eq (congrArg key heq)
      | inr hmem =>
          have htail := (List.pairwise_append.mp hsorted).2.1
          exact (List.pairwise_cons.mp htail).1 y hmem

theorem Desc.find?_eq_none (h : Desc key rows result) :
    result.find? p = none ↔ ∀ x ∈ rows, p x = false := by
  simp only [List.find?_eq_none, h.mem, Bool.not_eq_true]

/-- Every row with the property and the largest key may come first. -/
theorem exists_desc_find? (hx : x ∈ rows) (hp : p x = true)
    (largest : ∀ y ∈ rows, p y = true → key y ≤ key x) :
    ∃ result, Desc key rows result ∧ result.find? p = some x := by
  classical
  let others := rows.erase x
  let newer := others.filter fun y => key x < key y
  let rest := others.filter fun y => !decide (key x < key y)
  have hnewer := desc_sortDesc key newer
  have hrest := desc_sortDesc key rest
  have habove : ∀ y ∈ sortDesc key newer, y ∈ rows ∧ key x < key y := by
    intro y hy
    obtain ⟨hmem, hlt⟩ := List.mem_filter.mp (hnewer.mem.mp hy)
    exact ⟨List.mem_of_mem_erase hmem, of_decide_eq_true hlt⟩
  have hbelow : ∀ y ∈ sortDesc key rest, key y ≤ key x := by
    intro y hy
    simpa using (List.mem_filter.mp (hrest.mem.mp hy)).2
  refine ⟨sortDesc key newer ++ x :: sortDesc key rest, ⟨?_, ?_⟩, ?_⟩
  · have hsplit : (newer ++ rest).Perm others := List.filter_append_perm _ _
    have hothers := (hnewer.perm.append hrest.perm).trans hsplit
    exact (List.perm_middle.trans (hothers.cons x)).trans (List.perm_cons_erase hx).symm
  · refine List.pairwise_append.mpr ⟨hnewer.sorted,
      List.pairwise_cons.mpr ⟨hbelow, hrest.sorted⟩, ?_⟩
    intro y hy z hz
    have hlt := (habove y hy).2
    cases List.mem_cons.mp hz with
    | inl heq => exact heq ▸ le_of_lt hlt
    | inr hmem => exact le_trans (hbelow z hmem) (le_of_lt hlt)
  · have hbefore : (sortDesc key newer).find? p = none := by
      refine List.find?_eq_none.mpr fun y hy hpy => ?_
      obtain ⟨hmem, hlt⟩ := habove y hy
      exact absurd (largest y hmem hpy) (not_le_of_gt hlt)
    rw [List.find?_append, hbefore, Option.none_or, List.find?_cons_of_pos hp]

/-- In every result the first row with the property is this one exactly if all others have
smaller keys. -/
theorem find?_eq_some_iff :
    (∀ result, Desc key rows result → result.find? p = some x) ↔
      x ∈ rows ∧ p x = true ∧ ∀ y ∈ rows, p y = true → y ≠ x → key y < key x := by
  constructor
  · intro h
    obtain ⟨hx, hp, hlargest⟩ :=
      (desc_sortDesc key rows).find?_max (h _ (desc_sortDesc key rows))
    refine ⟨hx, hp, fun y hy hpy hne => lt_of_not_ge fun hle => hne ?_⟩
    obtain ⟨result, hdesc, hfind⟩ := exists_desc_find? hy hpy
      fun z hz hpz => (le_trans (hlargest z hz hpz) hle : key z ≤ key y)
    exact Option.some.inj (hfind.symm.trans (h result hdesc))
  · rintro ⟨hx, hp, hlargest⟩ result hdesc
    cases hfind : result.find? p with
    | none =>
        have hnot := hdesc.find?_eq_none.mp hfind x hx
        rw [hp] at hnot
        cases hnot
    | some z =>
        obtain ⟨hz, hpz, hmax⟩ := hdesc.find?_max hfind
        by_contra hne
        have hlt := hlargest z hz hpz fun heq => hne (congrArg some heq)
        exact absurd (hmax x hx hp) (not_le_of_gt hlt)

/-! ## `LIMIT 1` -/

theorem Desc.head?_eq_none (h : Desc key rows result) : result.head? = none ↔ rows = [] := by
  rw [List.head?_eq_none_iff]
  constructor
  · intro hresult
    exact List.nil_perm.mp (hresult ▸ h.perm)
  · intro hrows
    exact List.perm_nil.mp (hrows ▸ h.perm)

theorem Desc.head?_max (h : Desc key rows result) (hhead : result.head? = some x) :
    x ∈ rows ∧ ∀ y ∈ rows, key y ≤ key x := by
  obtain ⟨rest, hresult⟩ := List.head?_eq_some_iff.mp hhead
  subst hresult
  refine ⟨h.mem.mp List.mem_cons_self, fun y hy => ?_⟩
  cases List.mem_cons.mp (h.mem.mpr hy) with
  | inl heq => exact le_of_eq (congrArg key heq)
  | inr hmem => exact (List.pairwise_cons.mp h.sorted).1 y hmem

/-- Of rows that are stored with ascending keys the last one comes first. -/
theorem Desc.head?_eq_getLast? (h : Desc key rows result)
    (ascending : rows.Pairwise fun a b => key a < key b) : result.head? = rows.getLast? := by
  obtain hrows | ⟨older, last, hrows⟩ := rows.eq_nil_or_concat'
  · rw [h.head?_eq_none.mpr hrows, hrows, List.getLast?_nil]
  · cases hhead : result.head? with
    | none =>
        rw [h.head?_eq_none.mp hhead] at hrows
        exact absurd hrows.symm (List.append_ne_nil_of_right_ne_nil _ (List.cons_ne_nil _ _))
    | some x =>
        obtain ⟨hx, hmax⟩ := h.head?_max hhead
        rw [hrows] at hx hmax ascending
        rw [hrows, List.getLast?_concat]
        obtain hx | hx := List.mem_append.mp hx
        · have hlt := (List.pairwise_append.mp ascending).2.2 x hx last (by simp)
          exact absurd (hmax last (by simp)) (not_le_of_gt hlt)
        · rw [List.mem_singleton.mp hx]

/-! ## `sorted(values)[-1]` -/

/-- The last one of the sorted values. -/
def lastSorted (values : List β) : Option β := (values.insertionSort (· ≤ ·)).getLast?

theorem lastSorted_eq_none {values : List β} : lastSorted values = none ↔ values = [] := by
  rw [lastSorted, List.getLast?_eq_none_iff, ← List.length_eq_zero_iff,
    (List.perm_insertionSort _ values).length_eq, List.length_eq_zero_iff]

theorem lastSorted_eq_some {values : List β} {v : β} :
    lastSorted values = some v ↔ v ∈ values ∧ ∀ w ∈ values, w ≤ v := by
  have hperm := List.perm_insertionSort (· ≤ ·) values
  have hlargest : ∀ v, lastSorted values = some v → v ∈ values ∧ ∀ w ∈ values, w ≤ v := by
    intro v hlast
    obtain ⟨before, hsplit⟩ := List.getLast?_eq_some_iff.mp hlast
    have hsorted := List.pairwise_insertionSort (· ≤ ·) values
    rw [hsplit] at hperm hsorted
    refine ⟨hperm.mem_iff.mp (by simp), fun w hw => ?_⟩
    cases List.mem_append.mp (hperm.mem_iff.mpr hw) with
    | inl hbefore =>
        exact (List.pairwise_append.mp hsorted).2.2 w hbefore v (List.mem_singleton_self v)
    | inr heq => exact le_of_eq (List.mem_singleton.mp heq)
  refine ⟨hlargest v, fun ⟨hv, hmax⟩ => ?_⟩
  cases hlast : lastSorted values with
  | none =>
      rw [lastSorted_eq_none.mp hlast] at hv
      cases hv
  | some w =>
      obtain ⟨hw, hw'⟩ := hlargest w hlast
      exact congrArg some (le_antisymm (hmax w hw) (hw' v hv))

end OrderBy
