import UserTgBot.Library.PyText

/-!
# Methods of `str`

Stripping, and splitting into lines and words.
-/

namespace PyText

/-- `s.strip()`. -/
def strip (s : Text) : Text := ((s.dropWhile isSpace).reverse.dropWhile isSpace).reverse

/-- Characters that end a line; a carriage return takes a newline that follows it with it. -/
def isLineBreak (c : CodePoint) : Bool :=
  (10 ≤ c.val && c.val ≤ 13) || (28 ≤ c.val && c.val ≤ 30) ||
    [0x85, 0x2028, 0x2029].contains c.val

def splitlinesFrom (line : Text) (afterReturn : Bool) : Text → List Text
  | [] => if line.isEmpty then [] else [line]
  | c :: rest =>
      if afterReturn && c = ofChar '\n' then splitlinesFrom [] false rest
      else if isLineBreak c then line :: splitlinesFrom [] (c = ofChar '\r') rest
      else splitlinesFrom (line ++ [c]) false rest

/-- `s.splitlines()`. -/
def splitlines (s : Text) : List Text := splitlinesFrom [] false s

/-- `s.replace(old, new)` for single characters. -/
def replace (s : Text) (old new : CodePoint) : Text :=
  s.map fun c => if c = old then new else c

/-- `s.split()`. -/
def splitWords (s : Text) : List Text := (s.splitOnP isSpace).filter (!·.isEmpty)

theorem mem_of_mem_strip {s : Text} {c : CodePoint} (h : c ∈ strip s) : c ∈ s := by
  rw [strip, List.mem_reverse] at h
  have hreverse := List.dropWhile_sublist isSpace |>.subset h
  exact List.dropWhile_sublist isSpace |>.subset (List.mem_reverse.mp hreverse)

/-- Neither end is white space. -/
theorem strip_eq_self {s : Text} (first : ∀ c ∈ s.head?, isSpace c = false)
    (last : ∀ c ∈ s.getLast?, isSpace c = false) : strip s = s := by
  have hdrop : ∀ {s : Text}, (∀ c ∈ s.head?, isSpace c = false) → s.dropWhile isSpace = s := by
    intro s hfirst
    cases s with
    | nil => rfl
    | cons c s => rw [List.dropWhile_cons, if_neg (by simp [hfirst c rfl])]
  rw [strip, hdrop first, hdrop (by rwa [List.head?_reverse]), List.reverse_reverse]

/-- No white space at either end. -/
structure Trimmed (s : Text) : Prop where
  first : ∀ c ∈ s.head?, isSpace c = false
  last : ∀ c ∈ s.getLast?, isSpace c = false

theorem Trimmed.strip_eq {s : Text} (h : Trimmed s) : strip s = s := strip_eq_self h.first h.last

theorem trimmed_nil : Trimmed [] := ⟨nofun, nofun⟩

/-- What is put between two trimmed texts does not matter. -/
theorem Trimmed.append {s s' : Text} (h : Trimmed s) (h' : Trimmed s') (hs : s ≠ [])
    (hs' : s' ≠ []) (sep : Text) : Trimmed (s ++ sep ++ s') where
  first := by
    intro c hc
    rw [List.append_assoc, List.head?_append_of_ne_nil s hs] at hc
    exact h.first c hc
  last := by
    intro c hc
    rw [List.getLast?_append_of_ne_nil _ hs'] at hc
    exact h'.last c hc

theorem trimmed_strip (s : Text) : Trimmed (strip s) := by
  have hdropped : ∀ (s : Text), ∀ c ∈ (s.dropWhile isSpace).head?, isSpace c = false := by
    intro s c hc
    have hfirst := List.head?_dropWhile_not isSpace s
    rw [Option.mem_def.mp hc] at hfirst
    simpa using hfirst
  constructor
  · -- The right end is cut off a text that has lost its left end already.
    intro c hc
    obtain ⟨cut, hcut⟩ := List.dropWhile_suffix (l := (s.dropWhile isSpace).reverse) isSpace
    have hprefix : strip s ++ cut.reverse = s.dropWhile isSpace := by
      rw [strip, ← List.reverse_append, hcut, List.reverse_reverse]
    apply hdropped s c
    rw [← hprefix, List.head?_append, Option.mem_def.mp hc]
    rfl
  · intro c hc
    rw [strip, List.getLast?_reverse] at hc
    exact hdropped _ c hc

theorem strip_eq_iff {s : Text} : strip s = s ↔ Trimmed s := by
  refine ⟨fun h => ?_, Trimmed.strip_eq⟩
  rw [← h]
  exact trimmed_strip s

theorem length_strip_le (s : Text) : (strip s).length ≤ s.length := by
  have hright := (List.dropWhile_sublist (l := (s.dropWhile isSpace).reverse) isSpace).length_le
  have hleft := (List.dropWhile_sublist (l := s) isSpace).length_le
  rw [List.length_reverse] at hright
  rw [strip, List.length_reverse]
  omega

/-! ## Parts -/

theorem partition_append {x y : Text} {sep : CodePoint} (h : sep ∉ x) :
    partition sep (x ++ sep :: y) = (x, y) := by
  have hall : ∀ c ∈ x, (decide (c ≠ sep)) = true := by
    intro c hc
    exact decide_eq_true fun heq => h (heq ▸ hc)
  rw [partition, List.takeWhile_append_of_pos hall, List.dropWhile_append_of_pos hall]
  simp

theorem append_partition {s : Text} {sep : CodePoint} (h : sep ∈ s) :
    s = (partition sep s).1 ++ sep :: (partition sep s).2 := by
  induction s with
  | nil => exact absurd h List.not_mem_nil
  | cons c s ih =>
      by_cases hc : c = sep
      · simp [partition, hc]
      · have hs := ih ((List.mem_cons.mp h).resolve_left (Ne.symm hc))
        simp only [partition, List.takeWhile_cons, List.dropWhile_cons] at hs ⊢
        rw [if_pos (decide_eq_true hc), if_pos (decide_eq_true hc), List.cons_append, ← hs]

theorem notMem_partition {s : Text} {sep : CodePoint} : sep ∉ (partition sep s).1 := by
  intro h
  have hkept := List.mem_takeWhile_imp h
  simp at hkept

/-- The words of a text, in their order, with separators between, before and behind them. -/
inductive Words (sep : CodePoint → Bool) : Text → List Text → Prop where
  | nil : Words sep [] []
  | skip {c s words} : sep c = true → Words sep s words → Words sep (c :: s) words
  | last {word} : word ≠ [] → (∀ c ∈ word, sep c = false) → Words sep word [word]
  | next {word c s words} : word ≠ [] → (∀ c ∈ word, sep c = false) → sep c = true →
      Words sep s words → Words sep (word ++ c :: s) (word :: words)

theorem exists_words (sep : CodePoint → Bool) (s : Text) : ∃ words, Words sep s words := by
  induction hk : s.length using Nat.strong_induction_on generalizing s with
  | _ k ih =>
      cases s with
      | nil => exact ⟨[], .nil⟩
      | cons c s =>
          rw [List.length_cons] at hk
          by_cases hc : sep c = true
          · obtain ⟨words, hwords⟩ := ih s.length (by omega) s rfl
            exact ⟨words, .skip hc hwords⟩
          · have hpure : ∀ c' ∈ c :: s.takeWhile (!sep ·), sep c' = false := by
              intro c' hc'
              obtain rfl | hc' := List.mem_cons.mp hc'
              · exact Bool.eq_false_of_not_eq_true hc
              · simpa using List.mem_takeWhile_imp hc'
            have hsplit : s.takeWhile (!sep ·) ++ s.dropWhile (!sep ·) = s :=
              List.takeWhile_append_dropWhile
            cases hrest : s.dropWhile (!sep ·) with
            | nil =>
                rw [hrest, List.append_nil] at hsplit
                rw [hsplit] at hpure
                exact ⟨_, .last (List.cons_ne_nil c s) hpure⟩
            | cons c' rest =>
                have hlength := congrArg List.length hsplit
                rw [hrest, List.length_append, List.length_cons] at hlength
                obtain ⟨words, hwords⟩ := ih rest.length (by omega) rest rfl
                have hc' : sep c' = true := by
                  have hhead := List.head?_dropWhile_not (!sep ·) s
                  rw [hrest] at hhead
                  simpa using hhead
                rw [hrest] at hsplit
                have hnext := Words.next (List.cons_ne_nil c _) hpure hc' hwords
                rw [List.cons_append, hsplit] at hnext
                exact ⟨_, hnext⟩

theorem splitWords_cons {c : CodePoint} (hc : isSpace c = true) (s : Text) :
    splitWords (c :: s) = splitWords s := by
  rw [splitWords, List.splitOnP_cons_eq_if_modifyHead, if_pos hc, List.filter_cons_of_neg (by simp)]
  rfl

/-- `s.replace(old, " ").split()` gives the words between blanks and the replaced characters. -/
theorem splitWords_replace_iff {old : CodePoint} {s : Text} {words : List Text} :
    splitWords (replace s old (ofChar ' ')) = words ↔
      Words (fun c => isSpace c || c = old) s words := by
  have hblank : ∀ c, (isSpace c || decide (c = old)) = true →
      isSpace (if c = old then ofChar ' ' else c) = true := by
    intro c hc
    rw [Bool.or_eq_true, decide_eq_true_eq] at hc
    split
    · decide
    · next hne => exact hc.resolve_right hne
  have hword : ∀ word : Text, (∀ c ∈ word, (isSpace c || decide (c = old)) = false) →
      replace word old (ofChar ' ') = word ∧ ∀ c ∈ word, isSpace c = false := by
    intro word hpure
    refine ⟨?_, fun c hc => (Bool.or_eq_false_iff.mp (hpure c hc)).1⟩
    rw [replace, List.map_congr_left fun c hc => if_neg (of_decide_eq_false
      (Bool.or_eq_false_iff.mp (hpure c hc)).2), List.map_id']
  have hsplit : ∀ {s words}, Words (fun c => isSpace c || c = old) s words →
      splitWords (replace s old (ofChar ' ')) = words := by
    intro s words h
    induction h with
    | nil => rfl
    | skip hc _ ih =>
        rw [replace, List.map_cons, splitWords_cons (hblank _ hc)]
        exact ih
    | @last word hne hpure =>
        obtain ⟨hsame, hspace⟩ := hword word hpure
        rw [hsame, splitWords, List.splitOnP_eq_singleton hspace,
          List.filter_cons_of_pos (by simpa using hne)]
        rfl
    | next hne hpure hc _ ih =>
        obtain ⟨hsame, hspace⟩ := hword _ hpure
        rw [replace] at hsame
        rw [replace, List.map_append, hsame, List.map_cons, splitWords,
          List.splitOnP_append_cons_of_forall_mem hspace _ (hblank _ hc),
          List.filter_cons_of_pos (by simpa using hne)]
        exact congrArg _ ih
  constructor
  · rintro rfl
    obtain ⟨words, hwords⟩ := exists_words (fun c => isSpace c || c = old) s
    rwa [hsplit hwords]
  · exact hsplit
end PyText
