import Mathlib.Data.List.Basic

/-!
# Lines of a joined text

A text that was made by joining lines with a newline can also be read as the join of
other pieces, since a piece may contain newlines itself. Whatever the pieces are, the
lines of a piece are lines of the whole (`mem_of_mem_lines_of_join_eq`). Pieces of the form
`key=value` are then read line by line: `value_of_joinEntries_eq` bounds what one map of
fields can turn into when its joined entries are split in another way.
-/

namespace Lines

universe u

variable {α : Type u} {nl sep : α}

/-- Join lines with a newline. -/
def join (nl : α) (lines : List (List α)) : List α := [nl].intercalate lines

theorem join_singleton (line : List α) : join nl [line] = line := by
  simp [join]

theorem join_cons (line next : List α) (rest : List (List α)) :
    join nl (line :: next :: rest) = line ++ nl :: join nl (next :: rest) := by
  simp [join, List.intercalate]

/-- Every line of a joined text occurs in it. -/
theorem mem_join_of_mem {line : List α} {lines : List (List α)} {c : α} (hc : c ∈ line)
    (hline : line ∈ lines) : c ∈ join nl lines := by
  induction lines with
  | nil => cases hline
  | cons first rest ih =>
      cases rest with
      | nil =>
          rw [join_singleton]
          rwa [List.mem_singleton.mp hline] at hc
      | cons next rest =>
          rw [join_cons]
          obtain rfl | hrest := List.mem_cons.mp hline
          · exact List.mem_append_left _ hc
          · exact List.mem_append_right _ (List.mem_cons_of_mem _ (ih hrest))

/-- `key=value`. -/
def entry (sep : α) (key value : List α) : List α := key ++ sep :: value

/-- Keys without the separator can be read off an entry. -/
theorem entry_inj {key key' value value' : List α} (hkey : sep ∉ key) (hkey' : sep ∉ key')
    (same : entry sep key value = entry sep key' value') : key = key' ∧ value = value' := by
  induction key generalizing key' with
  | nil =>
      cases key' with
      | nil => exact ⟨rfl, (List.cons.inj same).2⟩
      | cons c key' =>
          obtain ⟨hc, -⟩ := List.cons.inj same
          exact absurd (hc ▸ List.mem_cons_self) hkey'
  | cons c key ih =>
      cases key' with
      | nil =>
          obtain ⟨hc, -⟩ := List.cons.inj same
          exact absurd (hc ▸ List.mem_cons_self) hkey
      | cons c' key' =>
          obtain ⟨rfl, htail⟩ := List.cons.inj same
          obtain ⟨rfl, hvalue⟩ := ih (fun h => hkey (List.mem_cons_of_mem _ h))
            (fun h => hkey' (List.mem_cons_of_mem _ h)) htail
          exact ⟨rfl, hvalue⟩

variable [DecidableEq α]

/-- Splitting a joined text splits every piece. -/
theorem splitOn_join {pieces : List (List α)} (hne : pieces ≠ []) :
    (join nl pieces).splitOn nl = pieces.flatMap (List.splitOn nl) := by
  induction pieces with
  | nil => exact absurd rfl hne
  | cons piece rest ih =>
      cases rest with
      | nil => simp [join_singleton]
      | cons next rest =>
          rw [join_cons, List.splitOn_append_cons_self, ih (by simp), ← List.flatMap_cons]

/-- Read the joined lines as other pieces: every line of a piece is one of the lines. -/
theorem mem_of_mem_lines_of_join_eq {lines pieces : List (List α)} {piece line : List α}
    (plain : ∀ l ∈ lines, nl ∉ l) (hlines : lines ≠ []) (same : join nl pieces = join nl lines)
    (hpiece : piece ∈ pieces) (hline : line ∈ piece.splitOn nl) : line ∈ lines := by
  have hsplit : (join nl pieces).splitOn nl = lines := by
    rw [same, join, List.splitOn_intercalate nl plain hlines]
  rw [splitOn_join (List.ne_nil_of_mem hpiece)] at hsplit
  rw [← hsplit]
  exact List.mem_flatMap.mpr ⟨piece, hpiece, hline⟩

/-- A text is its first line, alone or followed by a newline and the others. -/
theorem eq_first_line (nl : α) (s : List α) :
    ∃ first rest, s.splitOn nl = first :: rest ∧
      (rest = [] ∧ s = first ∨ rest ≠ [] ∧ s = first ++ nl :: join nl rest) := by
  have hjoin : join nl (s.splitOn nl) = s := List.intercalate_splitOn nl
  cases hs : s.splitOn nl with
  | nil => exact absurd hs (List.splitOn_ne_nil nl s)
  | cons first rest =>
      rw [hs] at hjoin
      cases rest with
      | nil => exact ⟨first, [], rfl, .inl ⟨rfl, by rw [← hjoin, join_singleton]⟩⟩
      | cons next rest =>
          exact ⟨first, next :: rest, rfl, .inr ⟨by simp, by rw [← hjoin, join_cons]⟩⟩

/-- Text without a newline goes in front of the first line. -/
theorem splitOn_append {front s first : List α} {rest : List (List α)} (hfront : nl ∉ front)
    (hs : s.splitOn nl = first :: rest) :
    (front ++ s).splitOn nl = (front ++ first) :: rest := by
  induction front with
  | nil => exact hs
  | cons c front ih =>
      obtain ⟨hc, hfront⟩ := List.ne_and_not_mem_of_not_mem_cons hfront
      rw [List.cons_append, List.splitOn_cons_eq_if_modifyHead, ih hfront]
      simp [Ne.symm hc]

/-- The first line of an entry is an entry with the first line of the value. -/
theorem splitOn_entry {key value first : List α} {rest : List (List α)} (hkey : nl ∉ key)
    (hsep : sep ≠ nl) (hvalue : value.splitOn nl = first :: rest) :
    (entry sep key value).splitOn nl = entry sep key first :: rest := by
  have hfront : nl ∉ key ++ [sep] := by
    simp [hkey, Ne.symm hsep]
  simpa [entry] using splitOn_append hfront hvalue

/-- A field map and its joined entries. -/
def joinEntries (nl sep : α) (fields : List (List α × List α)) : List α :=
  join nl (fields.map fun field => entry sep field.1 field.2)

/-- Two field maps with the same joined entries, one of them without newlines in keys and
values and without separators in keys. A value of the other map, under a key of that kind,
is the value this map has there, or that value followed by lines which hold a separator. -/
theorem value_of_joinEntries_eq {fields plain : List (List α × List α)} {key value : List α}
    (hnl : ∀ field ∈ plain, nl ∉ field.1 ∧ nl ∉ field.2) (hsep : ∀ field ∈ plain, sep ∉ field.1)
    (hplain : plain ≠ []) (hne : sep ≠ nl) (hkeyNl : nl ∉ key) (hkeySep : sep ∉ key)
    (same : joinEntries nl sep fields = joinEntries nl sep plain)
    (hmem : (key, value) ∈ fields) :
    ∃ value', (key, value') ∈ plain ∧
      (value = value' ∨ ∃ rest, value = value' ++ nl :: rest ∧ sep ∈ rest) := by
  have hentries : ∀ line ∈ plain.map (fun field => entry sep field.1 field.2), nl ∉ line := by
    intro line hline
    obtain ⟨field, hfield, rfl⟩ := List.mem_map.mp hline
    simpa [entry, hnl field hfield] using Ne.symm hne
  have hlines : ∀ line ∈ (entry sep key value).splitOn nl,
      ∃ field ∈ plain, line = entry sep field.1 field.2 := by
    intro line hline
    have hmemLine := mem_of_mem_lines_of_join_eq hentries (by simpa using hplain) same
      (List.mem_map_of_mem hmem) hline
    obtain ⟨field, hfield, rfl⟩ := List.mem_map.mp hmemLine
    exact ⟨field, hfield, rfl⟩
  obtain ⟨first, rest, hvalue, hshape⟩ := eq_first_line nl value
  rw [splitOn_entry hkeyNl hne hvalue] at hlines
  obtain ⟨field, hfield, hfirst⟩ := hlines _ List.mem_cons_self
  obtain ⟨rfl, rfl⟩ := entry_inj hkeySep (hsep field hfield) hfirst
  refine ⟨field.2, hfield, ?_⟩
  obtain ⟨-, hvalue⟩ | ⟨hrest, hvalue⟩ := hshape
  · exact .inl hvalue
  · obtain ⟨line, hline⟩ := List.exists_mem_of_ne_nil rest hrest
    obtain ⟨other, -, rfl⟩ := hlines line (List.mem_cons_of_mem _ hline)
    exact .inr ⟨join nl rest, hvalue, mem_join_of_mem (by simp [entry]) hline⟩

end Lines
