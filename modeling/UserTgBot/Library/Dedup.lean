import UserTgBot.Library.PyValue

/-!
# Keeping the latest of each group

A program that removes duplicates sorts each group of equally named elements, latest first, and
removes what follows the first one. Whatever the order in which the groups are visited, an
element goes if it has a rival at least as late: only among equally late ones does the sort
choose.
-/

namespace PyValue

universe u v

section AllButLatest

variable {α : Type u} {key : α → SortKey} {groups : List (List α)} {losers : List α} {x y : α}

/-- What follows the first element in each of the groups sorted in descending order; nothing if
one of the sorts raises a `TypeError`. -/
def allButLatest (key : α → SortKey) : List (List α) → Option (List α)
  | [] => some []
  | rows :: groups => do
      let ordered ← sortedDesc key rows
      let rest ← allButLatest key groups
      return ordered.drop 1 ++ rest

theorem allButLatest_isSome : (allButLatest key groups).isSome ↔
    ∀ rows ∈ groups, rows.Pairwise fun x y => KeyComparable (key x) (key y) := by
  induction groups with
  | nil => simp [allButLatest]
  | cons rows groups ih =>
      rw [List.forall_mem_cons, ← ih, ← sortedDesc_isSome]
      cases hrows : sortedDesc key rows <;> cases hrest : allButLatest key groups <;>
        simp [allButLatest, hrows, hrest]

theorem mem_allButLatest (h : allButLatest key groups = some losers) :
    x ∈ losers ↔ ∃ rows ∈ groups, ∃ ordered, sortedDesc key rows = some ordered ∧
      x ∈ ordered.drop 1 := by
  induction groups generalizing losers with
  | nil => simp_all [allButLatest]
  | cons rows groups ih =>
      simp only [allButLatest, Option.bind_eq_bind, Option.bind_eq_some_iff, Option.pure_def,
        Option.some.injEq] at h
      obtain ⟨ordered, hordered, rest, hrest, rfl⟩ := h
      rw [List.mem_append, ih hrest, List.exists_mem_cons_iff]
      simp [hordered]

theorem exists_group_of_loser (h : allButLatest key groups = some losers) (hx : x ∈ losers) :
    ∃ rows ∈ groups, x ∈ rows := by
  obtain ⟨rows, hrows, ordered, hordered, hdrop⟩ := (mem_allButLatest h).mp hx
  exact ⟨rows, hrows, (sortedDesc_spec hordered).1.mem_iff.mp (List.mem_of_mem_drop hdrop)⟩

/-- A loser has a rival in its group that is at least as late. -/
theorem exists_rival (h : allButLatest key groups = some losers)
    (distinct : ∀ rows ∈ groups, rows.Nodup) (hx : x ∈ losers) :
    ∃ rows ∈ groups, x ∈ rows ∧ ∃ y ∈ rows, y ≠ x ∧ keyLe (key x) (key y) := by
  obtain ⟨rows, hrows, ordered, hordered, hdrop⟩ := (mem_allButLatest h).mp hx
  have hmem : x ∈ rows := (sortedDesc_spec hordered).1.mem_iff.mp (List.mem_of_mem_drop hdrop)
  exact ⟨rows, hrows, hmem, exists_keyLe_of_mem_drop_one hordered (distinct rows hrows) hdrop⟩

/-- Of two members of a group the earlier one loses, and one of them if neither is earlier. -/
theorem mem_allButLatest_of_keyLe (h : allButLatest key groups = some losers) {rows : List α}
    (hrows : rows ∈ groups) (hx : x ∈ rows) (hy : y ∈ rows) (hne : y ≠ x)
    (hle : keyLe (key x) (key y)) : x ∈ losers ∨ (y ∈ losers ∧ key y = key x) := by
  have hsome := allButLatest_isSome.mp (Option.isSome_of_eq_some h) rows hrows
  obtain ⟨ordered, hordered⟩ := Option.isSome_iff_exists.mp (sortedDesc_isSome.mpr hsome)
  have hloses : ∀ z ∈ ordered.drop 1, z ∈ losers := fun z hz =>
    (mem_allButLatest h).mpr ⟨rows, hrows, ordered, hordered, hz⟩
  exact (mem_drop_one_of_ne hordered hx hy hne hle).imp (hloses x) (And.imp_left (hloses y))

end AllButLatest

section Grouping

variable {α : Type u} {β : Type v} [DecidableEq β]

/-- The groups are those with more than one element, each the elements of one name. -/
def IsGrouping (name : α → β) (l : List α) (groups : List (List α)) : Prop :=
  ∀ rows, rows ∈ groups ↔ 1 < rows.length ∧ ∃ k, rows = l.filter fun x => name x = k

variable {name : α → β} {key : α → SortKey} {l : List α} {groups : List (List α)}
  {losers : List α} {x y : α}

/-- Two elements of one name are in one of the groups. -/
theorem IsGrouping.exists_group (hg : IsGrouping name l groups) (hx : x ∈ l) (hy : y ∈ l)
    (hne : y ≠ x) (hname : name y = name x) : ∃ rows ∈ groups, x ∈ rows ∧ y ∈ rows := by
  have hxs : x ∈ l.filter fun z => name z = name x := List.mem_filter.mpr ⟨hx, by simp⟩
  have hys : y ∈ l.filter fun z => name z = name x := List.mem_filter.mpr ⟨hy, by simpa⟩
  refine ⟨_, (hg _).mpr ⟨?_, name x, rfl⟩, hxs, hys⟩
  generalize l.filter (fun z => name z = name x) = rows at hxs hys
  match rows with
  | [] => cases hxs
  | [z] =>
      rw [List.mem_singleton] at hxs hys
      exact absurd (hys.trans hxs.symm) hne
  | _ :: _ :: rows =>
      simp only [List.length_cons]
      omega

theorem IsGrouping.of_mem (hg : IsGrouping name l groups) {rows : List α} (hrows : rows ∈ groups)
    (hx : x ∈ rows) (hy : y ∈ rows) : y ∈ l ∧ name y = name x := by
  obtain ⟨-, k, rfl⟩ := (hg rows).mp hrows
  have hx' := (List.mem_filter.mp hx).2
  have hy' := List.mem_filter.mp hy
  simp only [decide_eq_true_eq] at hx' hy'
  exact ⟨hy'.1, hy'.2.trans hx'.symm⟩

theorem IsGrouping.nodup (hg : IsGrouping name l groups) (distinct : l.Nodup) :
    ∀ rows ∈ groups, rows.Nodup := by
  intro rows hrows
  obtain ⟨-, k, rfl⟩ := (hg rows).mp hrows
  exact distinct.filter _

/-- The sorts succeed if elements of one name compare. -/
theorem IsGrouping.isSome_iff (hg : IsGrouping name l groups) (distinct : l.Nodup) :
    (allButLatest key groups).isSome ↔
      ∀ x ∈ l, ∀ y ∈ l, x ≠ y → name x = name y → KeyComparable (key x) (key y) := by
  have symm : Std.Symm fun x y : α => KeyComparable (key x) (key y) := ⟨fun _ _ h => h.symm⟩
  rw [allButLatest_isSome]
  constructor
  · intro h x hx y hy hne hname
    obtain ⟨rows, hrows, hys, hxs⟩ := hg.exists_group hy hx hne hname
    exact (h rows hrows).forall hxs hys hne
  · intro h rows hrows
    refine (hg.nodup distinct rows hrows).pairwise_of_forall_ne fun x hx y hy hne => ?_
    obtain ⟨hxl, hname⟩ := hg.of_mem hrows hy hx
    exact h x hxl y (hg.of_mem hrows hx hy).1 hne hname

/-- Who loses has a rival at least as late. -/
theorem IsGrouping.exists_rival (hg : IsGrouping name l groups) (distinct : l.Nodup)
    (h : allButLatest key groups = some losers) (hx : x ∈ losers) :
    x ∈ l ∧ ∃ y ∈ l, y ≠ x ∧ name y = name x ∧ keyLe (key x) (key y) := by
  obtain ⟨rows, hrows, hmem, y, hy, hne, hle⟩ :=
    PyValue.exists_rival h (hg.nodup distinct) hx
  obtain ⟨hyl, hname⟩ := hg.of_mem hrows hmem hy
  exact ⟨(hg.of_mem hrows hy hmem).1, y, hyl, hne, hname, hle⟩

/-- Who has a rival at least as late loses, or an equally late rival does. -/
theorem IsGrouping.loses (hg : IsGrouping name l groups)
    (h : allButLatest key groups = some losers) (hx : x ∈ l) (hy : y ∈ l) (hne : y ≠ x)
    (hname : name y = name x) (hle : keyLe (key x) (key y)) :
    x ∈ losers ∨ (y ∈ losers ∧ key y = key x) := by
  obtain ⟨rows, hrows, hxs, hys⟩ := hg.exists_group hx hy hne hname
  exact mem_allButLatest_of_keyLe h hrows hxs hys hne hle

/-- Of two elements of one name one loses. -/
theorem IsGrouping.one_loses (hg : IsGrouping name l groups)
    (h : allButLatest key groups = some losers) (hx : x ∈ l) (hy : y ∈ l) (hne : y ≠ x)
    (hname : name y = name x) : x ∈ losers ∨ y ∈ losers := by
  cases keyLe_total (key x) (key y) with
  | inl hle => exact (hg.loses h hx hy hne hname hle).imp_right And.left
  | inr hle => exact ((hg.loses h hy hx hne.symm hname.symm hle).imp_right And.left).symm

/-- Where no two elements are equally late, the losers are those with a later rival. -/
theorem IsGrouping.mem_losers_iff (hg : IsGrouping name l groups) (distinct : l.Nodup)
    (untied : ∀ x ∈ l, ∀ y ∈ l, key y = key x → y = x)
    (h : allButLatest key groups = some losers) :
    x ∈ losers ↔ x ∈ l ∧ ∃ y ∈ l, y ≠ x ∧ name y = name x ∧ keyLe (key x) (key y) := by
  constructor
  · exact hg.exists_rival distinct h
  · rintro ⟨hx, y, hy, hne, hname, hle⟩
    obtain hloses | ⟨-, htied⟩ := hg.loses h hx hy hne hname hle
    · exact hloses
    · exact absurd (untied x hx y hy htied) hne

end Grouping

section Count

variable {α : Type u} {β : Type v} [DecidableEq β]

theorem nodup_eraseDups (l : List β) : l.eraseDups.Nodup := by
  induction h : l.length using Nat.strong_induction_on generalizing l with
  | _ n ih =>
      cases l with
      | nil => exact List.nodup_nil
      | cons a l =>
          rw [List.eraseDups_cons]
          apply List.nodup_cons.mpr
          constructor
          · intro hmem
            have hfilter := (List.mem_filter.mp (List.mem_eraseDups.mp hmem)).2
            simp at hfilter
          · apply ih _ _ _ rfl
            have hle := List.length_filter_le (fun b => !b == a) l
            rw [List.length_cons] at h
            omega

/-- The number of names in a list of them is the number of elements that they name. -/
theorem length_eraseDups_eq {l : List α} {name : α → β} {named : List β}
    (distinct : (l.map name).Nodup) (h : ∀ k ∈ named, ∃ x ∈ l, name x = k) :
    named.eraseDups.length = (l.filter fun x => name x ∈ named).length := by
  rw [← List.length_map (f := name)]
  apply List.Perm.length_eq
  apply (List.perm_ext_iff_of_nodup (nodup_eraseDups named)
    (distinct.sublist (List.filter_sublist.map name))).mpr
  intro k
  rw [List.mem_eraseDups, List.mem_map]
  constructor
  · intro hk
    obtain ⟨x, hx, rfl⟩ := h k hk
    exact ⟨x, List.mem_filter.mpr ⟨hx, decide_eq_true hk⟩, rfl⟩
  · rintro ⟨x, hx, rfl⟩
    exact of_decide_eq_true (List.mem_filter.mp hx).2

end Count

end PyValue
