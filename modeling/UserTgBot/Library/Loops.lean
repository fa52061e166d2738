import Mathlib.Data.List.AList

/-!
# Loops over the keys of a dictionary

A loop whose rounds touch only the part of the state that belongs to the key of the round does
to each part what the round of its own key does. `view` picks out the part of a key.

Dictionaries are `AList`s. Their order is of no account here: a loop that satisfies these lemmas
gives the same result in any order.
-/

namespace Loops

universe u v w x

variable {σ : Type u} {κ : Type v} {α : Type w} {β : Type x}

section Rounds

variable (key : β → κ) {round : σ → β → σ} (view : σ → κ → α) (effect : β → α → α)

/-- A part whose key does not come up is left alone. -/
theorem view_foldl_of_notMem
    (other : ∀ s b k, k ≠ key b → view (round s b) k = view s k)
    {bs : List β} {k : κ} (h : k ∉ bs.map key) (s : σ) :
    view (bs.foldl round s) k = view s k := by
  induction bs generalizing s with
  | nil => rfl
  | cons b bs ih =>
      rw [List.map_cons, List.mem_cons, not_or] at h
      obtain ⟨hne, hrest⟩ := h
      rw [List.foldl_cons, ih hrest, other s b k hne]

/-- A part whose key comes up undergoes the effect of its own round, and of no other. -/
theorem view_foldl_of_mem
    (own : ∀ s b, view (round s b) (key b) = effect b (view s (key b)))
    (other : ∀ s b k, k ≠ key b → view (round s b) k = view s k)
    {bs : List β} (distinct : (bs.map key).Nodup) {b : β} (h : b ∈ bs) (s : σ) :
    view (bs.foldl round s) (key b) = effect b (view s (key b)) := by
  induction bs generalizing s with
  | nil => cases h
  | cons b' bs ih =>
      obtain ⟨hfresh, hdistinct⟩ := List.nodup_cons.mp distinct
      rw [List.foldl_cons]
      cases List.mem_cons.mp h with
      | inl heq =>
          subst heq
          rw [view_foldl_of_notMem key view other hfresh, own]
      | inr hmem =>
          have hne : key b ≠ key b' := fun heq => hfresh (heq ▸ List.mem_map_of_mem hmem)
          rw [ih hdistinct hmem, other s b' (key b) hne]

end Rounds

/-- A dictionary with keys of one type and values of one type. -/
abbrev Dict (κ : Type v) (ν : Type w) : Type (max v w) := AList fun _ : κ => ν

namespace Dict

variable {ν : Type w} [DecidableEq κ]

/-- `{k: v for k, v in pairs}`: later pairs overwrite earlier ones. -/
def ofPairs (pairs : List (κ × ν)) : Dict κ ν :=
  pairs.foldl (fun d pair => d.insert pair.1 pair.2) ∅

theorem lookup_insert_eq (d : Dict κ ν) (k k' : κ) (v : ν) :
    (d.insert k v).lookup k' = if k' = k then some v else d.lookup k' := by
  by_cases heq : k' = k
  · subst heq
    rw [AList.lookup_insert, if_pos rfl]
  · rw [AList.lookup_insert_ne heq, if_neg heq]

theorem lookup_erase_eq (d : Dict κ ν) (k k' : κ) :
    (d.erase k).lookup k' = if k' = k then none else d.lookup k' := by
  by_cases heq : k' = k
  · subst heq
    rw [AList.lookup_erase, if_pos rfl]
  · rw [AList.lookup_erase_ne heq, if_neg heq]

/-- Without a repeated key every pair is found. -/
theorem lookup_ofPairs {pairs : List (κ × ν)} (distinct : (pairs.map Prod.fst).Nodup) {k : κ}
    {v : ν} : (ofPairs pairs).lookup k = some v ↔ (k, v) ∈ pairs := by
  have hown : ∀ (d : Dict κ ν) (pair : κ × ν),
      (d.insert pair.1 pair.2).lookup pair.1 = some pair.2 := fun d _ => AList.lookup_insert d
  have hother : ∀ (d : Dict κ ν) (pair : κ × ν) (k' : κ), k' ≠ pair.1 →
      (d.insert pair.1 pair.2).lookup k' = d.lookup k' := fun _ _ _ hne =>
    AList.lookup_insert_ne hne
  have hfound : ∀ pair ∈ pairs, (ofPairs pairs).lookup pair.1 = some pair.2 := fun pair hpair =>
    view_foldl_of_mem Prod.fst (fun (d : Dict κ ν) k => d.lookup k) (fun pair _ => some pair.2 : κ × ν → Option ν → Option ν)
      hown hother distinct hpair ∅
  constructor
  · intro hlookup
    by_cases hk : k ∈ pairs.map Prod.fst
    · obtain ⟨pair, hpair, rfl⟩ := List.mem_map.mp hk
      obtain rfl : pair.2 = v := Option.some.inj ((hfound pair hpair).symm.trans hlookup)
      exact hpair
    · have hnone : (ofPairs pairs).lookup k = none :=
        view_foldl_of_notMem Prod.fst (fun (d : Dict κ ν) k => d.lookup k) hother hk ∅
      cases hnone.symm.trans hlookup
  · exact hfound (k, v)

end Dict

end Loops
