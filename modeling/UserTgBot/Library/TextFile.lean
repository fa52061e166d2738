import UserTgBot.Library.PyStr
import UserTgBot.Library.Utf8

/-!
# Text files

`Path.write_text`, `Path.read_text` and a file that is open for appending, with UTF-8 and the
newlines of Linux. What is written in scalar values stands in the file as it is; what is read
has its carriage returns taken for newlines. `lines_append` says that a line which is appended
to a file of whole lines is the last of `splitlines`.
-/

namespace PyText

/-- The content of a file in UTF-8. -/
structure TextFile where
  content : Text
  scalar : Scalar content

namespace TextFile

def empty : TextFile := ⟨[], fun _ h => absurd h List.not_mem_nil⟩

/-- Universal newlines. -/
def newlines (afterReturn : Bool) : Text → Text
  | [] => []
  | c :: rest =>
      if c = ofChar '\r' then ofChar '\n' :: newlines true rest
      else if c = ofChar '\n' ∧ afterReturn = true then newlines false rest
      else c :: newlines false rest

/-- `read_text`. -/
def read (file : TextFile) : Text := newlines false file.content

/-- `write_text`; nothing if it raises a `UnicodeEncodeError`. -/
def write (s : Text) : Option TextFile :=
  if scalar : Scalar s then some ⟨s, scalar⟩ else none

/-- `write` on a file that is open for appending. -/
def append (file : TextFile) (s : Text) : Option TextFile := write (file.content ++ s)

theorem mem_newlines {b : Bool} {s : Text} {c : CodePoint} (h : c ∈ newlines b s) :
    c ∈ s ∨ c = ofChar '\n' := by
  induction s generalizing b with
  | nil => exact .inl h
  | cons d s ih =>
      rw [newlines] at h
      split at h
      · rcases List.mem_cons.mp h with heq | h
        · exact .inr heq
        · exact (ih h).imp_left (List.mem_cons_of_mem d)
      · split at h
        · exact (ih h).imp_left (List.mem_cons_of_mem d)
        · rcases List.mem_cons.mp h with rfl | h
          · exact .inl List.mem_cons_self
          · exact (ih h).imp_left (List.mem_cons_of_mem d)

theorem scalar_read (file : TextFile) : Scalar file.read := by
  intro c hc
  rcases mem_newlines hc with hc | rfl
  · exact file.scalar c hc
  · decide

/-- Nothing changes in a text without carriage returns. -/
theorem newlines_eq_self {s : Text} (h : ofChar '\r' ∉ s) : newlines false s = s := by
  induction s with
  | nil => rfl
  | cons c s ih =>
      rw [List.mem_cons, not_or] at h
      rw [newlines, if_neg (Ne.symm h.1), if_neg fun hboth => Bool.noConfusion hboth.2, ih h.2]

/-- What has been written is read. -/
theorem read_write {s : Text} (scalar : Scalar s) (h : ofChar '\r' ∉ s) :
    ∃ file, write s = some file ∧ file.read = s :=
  ⟨⟨s, scalar⟩, dif_pos scalar, newlines_eq_self h⟩

/-! ## Whole lines -/

/-- Each line has its newline. -/
def Complete (s : Text) : Prop := ∀ c ∈ s.getLast?, c = ofChar '\n'

instance (s : Text) : Decidable (Complete s) :=
  inferInstanceAs (Decidable (∀ c ∈ s.getLast?, c = ofChar '\n'))

theorem complete_nil : Complete [] := by
  intro c hc
  cases hc

theorem complete_append_newline (s : Text) : Complete (s ++ [ofChar '\n']) := by
  intro c hc
  rw [List.getLast?_concat] at hc
  exact (Option.some.inj hc).symm

theorem Complete.of_cons {c : CodePoint} {s : Text} (h : Complete (c :: s)) : Complete s := by
  cases s with
  | nil => exact complete_nil
  | cons d s => exact h

theorem Complete.of_singleton {c : CodePoint} (h : Complete [c]) : c = ofChar '\n' := h c rfl

/-- Universal newlines do not change what the lines are. -/
theorem splitlinesFrom_newlines (line : Text) (b : Bool) (hline : b = true → line = [])
    (s : Text) : splitlinesFrom line false (newlines b s) = splitlinesFrom line b s := by
  induction s generalizing line b with
  | nil =>
      cases b with
      | false => rfl
      | true => rw [hline rfl]; rfl
  | cons c s ih =>
      rw [newlines]
      by_cases hreturn : c = ofChar '\r'
      · subst hreturn
        have hbreak : ∀ b, splitlinesFrom line b (ofChar '\r' :: s) =
            line :: splitlinesFrom [] true s := by
          intro b
          cases b <;> rfl
        rw [if_pos rfl, hbreak]
        exact congrArg (line :: ·) (ih [] true fun _ => rfl)
      · rw [if_neg hreturn]
        by_cases hafter : c = ofChar '\n' ∧ b = true
        · obtain ⟨rfl, rfl⟩ := hafter
          rw [if_pos ⟨rfl, rfl⟩, hline rfl]
          exact ih [] false fun hb => Bool.noConfusion hb
        · have hfirst : (b && decide (c = ofChar '\n')) = false := by
            rw [Bool.and_eq_false_iff, decide_eq_false_iff_not]
            by_cases hc : c = ofChar '\n'
            · exact .inl (eq_false_of_ne_true fun hb => hafter ⟨hc, hb⟩)
            · exact .inr hc
          rw [if_neg hafter, splitlinesFrom, splitlinesFrom, hfirst, decide_eq_false hreturn,
            ih [] false fun hb => Bool.noConfusion hb,
            ih (line ++ [c]) false fun hb => Bool.noConfusion hb]
          rfl

theorem splitlines_read (file : TextFile) : splitlines file.read = splitlines file.content :=
  splitlinesFrom_newlines [] false (fun hb => Bool.noConfusion hb) file.content

theorem splitlinesFrom_append {s : Text} (complete : Complete s) (line : Text) (b : Bool)
    (hs : s = [] → line = [] ∧ b = false) (t : Text) :
    splitlinesFrom line b (s ++ t) = splitlinesFrom line b s ++ splitlines t := by
  induction s generalizing line b with
  | nil =>
      obtain ⟨rfl, rfl⟩ := hs rfl
      rfl
  | cons c s ih =>
      have htail := complete.of_cons
      rw [List.cons_append, splitlinesFrom, splitlinesFrom]
      split
      · exact ih htail [] false fun _ => ⟨rfl, rfl⟩
      · split
        · rw [ih htail [] _ fun hnil => ?_]
          · rfl
          · refine ⟨rfl, decide_eq_false ?_⟩
            subst hnil
            rw [complete.of_singleton]
            decide
        · next hbreak =>
            refine ih htail (line ++ [c]) false fun hnil => ?_
            subst hnil
            rw [complete.of_singleton] at hbreak
            exact absurd (by decide) hbreak

theorem splitlines_line {line : Text} (h : ∀ c ∈ line, isLineBreak c = false) :
    splitlines (line ++ [ofChar '\n']) = [line] := by
  have hfrom : ∀ front, splitlinesFrom front false (line ++ [ofChar '\n']) = [front ++ line] := by
    induction line with
    | nil =>
        intro front
        rw [List.append_nil]
        rfl
    | cons c line ih =>
        intro front
        obtain ⟨hc, hline⟩ := List.forall_mem_cons.mp h
        have hfirst : (false && decide (c = ofChar '\n')) = true ↔ False := by simp
        rw [List.cons_append, splitlinesFrom, if_neg hfirst.mp, hc,
          if_neg (fun hbreak => Bool.noConfusion hbreak), ih hline, List.append_assoc]
        rfl
  exact hfrom []

/-- A line that is appended to whole lines is the last of them. -/
theorem lines_append {file : TextFile} (complete : Complete file.content) {line : Text}
    (scalar : Scalar line) (h : ∀ c ∈ line, isLineBreak c = false) :
    ∃ file', file.append (line ++ [ofChar '\n']) = some file' ∧ Complete file'.content ∧
      splitlines file'.read = splitlines file.read ++ [line] := by
  have hnewline : Scalar (line ++ [ofChar '\n']) := by
    intro c hc
    rcases List.mem_append.mp hc with hc | hc
    · exact scalar c hc
    · rw [List.mem_singleton.mp hc]
      decide
  have hscalar : Scalar (file.content ++ (line ++ [ofChar '\n'])) := fun c hc =>
    (List.mem_append.mp hc).elim (file.scalar c) (hnewline c)
  refine ⟨⟨_, hscalar⟩, dif_pos hscalar, ?_, ?_⟩
  · show Complete (file.content ++ (line ++ [ofChar '\n']))
    rw [← List.append_assoc]
    exact complete_append_newline _
  · rw [splitlines_read, splitlines_read]
    show splitlines (file.content ++ (line ++ [ofChar '\n'])) = _
    rw [splitlines, splitlinesFrom_append complete [] false fun _ => ⟨rfl, rfl⟩,
      splitlines_line h]
    rfl

end TextFile

end PyText
