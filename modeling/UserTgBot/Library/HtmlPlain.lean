import UserTgBot.Library.Html

/-!
# Texts that were not escaped

A text is read as itself exactly if it has no `<` and no reference. A `<` starts a tag, so that
the characters shown before the first tag are too few. A reference is read as one
character, so that there are too few without a tag as well.
-/

namespace Html

open PyText

section Plain

variable (d : Dialect)

/-- A reference that the dialect knows. -/
def IsReference (r : Text) : Prop :=
  ∃ name e, (∀ c ∈ name, isNameChar c = true) ∧ d.entity name = some e ∧
    r = ofChar '&' :: name ++ [ofChar ';']

def NoReference (s : Text) : Prop := ∀ r, IsReference d r → ¬r <:+: s

/-- Neither a tag nor a reference is in the text. -/
structure Plain (s : Text) : Prop where
  noTag : ofChar '<' ∉ s
  noReference : NoReference d s

end Plain

section References

variable {d : Dialect} {s t name : Text} {c : CodePoint}

theorem noReference_of_no_amp (h : ofChar '&' ∉ s) : NoReference d s := by
  rintro r ⟨name, e, -, -, rfl⟩ hsub
  exact h (hsub.subset List.mem_cons_self)

theorem noReference_of_no_semicolon (h : ofChar ';' ∉ s) : NoReference d s := by
  rintro r ⟨name, e, -, -, rfl⟩ hsub
  exact h (hsub.subset (List.mem_append_right _ List.mem_cons_self))

theorem noReference_cons (hc : c ≠ ofChar '&') :
    NoReference d (c :: s) ↔ NoReference d s := by
  constructor
  · intro h r hr hsub
    exact h r hr (List.infix_cons hsub)
  · rintro h r hr hsub
    obtain hprefix | hsub := List.infix_cons_iff.mp hsub
    · obtain ⟨name, e, -, -, rfl⟩ := hr
      exact hc (List.cons_prefix_cons.mp hprefix).1.symm
    · exact h r hr hsub

theorem noReference_append_name (hname : ∀ c ∈ name, isNameChar c = true) :
    NoReference d (name ++ s) ↔ NoReference d s := by
  induction name with
  | nil => exact Iff.rfl
  | cons c name ih =>
      obtain ⟨hc, hname⟩ := List.forall_mem_cons.mp hname
      rw [List.cons_append, noReference_cons (ne_of_isNameChar hc _ (by decide)), ih hname]

/-- Names end at the same place. -/
theorem eq_of_name_prefix {name' : Text} {x : CodePoint}
    (hname : ∀ c ∈ name, isNameChar c = true) (hname' : ∀ c ∈ name', isNameChar c = true)
    (hx : isNameChar x = false) (hc : isNameChar c = false)
    (h : name' ++ [x] <+: name ++ c :: s) : name' = name ∧ x = c := by
  induction name generalizing name' with
  | nil =>
      cases name' with
      | nil => exact ⟨rfl, (List.cons_prefix_cons.mp h).1⟩
      | cons c' name' =>
          have hhead := (List.cons_prefix_cons.mp h).1
          exact absurd hhead (ne_of_isNameChar (hname' c' List.mem_cons_self) _ hc)
  | cons c' name ih =>
      obtain ⟨hc', hafter⟩ := List.forall_mem_cons.mp hname
      cases name' with
      | nil =>
          have hhead := (List.cons_prefix_cons.mp h).1
          exact absurd hhead.symm (ne_of_isNameChar hc' _ hx)
      | cons c'' name' =>
          obtain ⟨rfl, hrest⟩ := List.cons_prefix_cons.mp h
          obtain ⟨rfl, rfl⟩ := ih hafter (List.forall_mem_cons.mp hname').2 hrest
          exact ⟨rfl, rfl⟩

/-- A name after an `&` is a reference only if a semicolon ends it. -/
theorem noReference_flush (hname : ∀ c ∈ name, isNameChar c = true)
    (hc : isNameChar c = false) :
    NoReference d (flush name ++ c :: s) ↔
      (c = ofChar ';' → d.entity name = none) ∧ NoReference d (c :: s) := by
  constructor
  · intro h
    refine ⟨?_, ?_⟩
    · rintro rfl
      by_contra hentity
      obtain ⟨e, he⟩ := Option.ne_none_iff_exists'.mp hentity
      refine h _ ⟨name, e, hname, he, rfl⟩ (List.IsPrefix.isInfix ⟨s, ?_⟩)
      rw [List.append_assoc]
      rfl
    · have hrest := (noReference_append_name (d := d) (s := c :: s) hname).mp
      apply hrest
      intro r hr hsub
      exact h r hr (List.infix_cons hsub)
  · rintro ⟨hentity, hrest⟩ r hr hsub
    obtain hprefix | hsub := List.infix_cons_iff.mp hsub
    · obtain ⟨name', e, hname', he, rfl⟩ := hr
      have hnames := (List.cons_prefix_cons.mp hprefix).2
      obtain ⟨rfl, hsemicolon⟩ := eq_of_name_prefix hname hname' (by decide) hc hnames
      rw [hentity hsemicolon.symm] at he
      cases he
    · exact (noReference_append_name hname).mpr hrest r hr hsub

end References

/-! ## Reading a text without tags -/

/-- The machine is between tags. -/
def InText : Mode → Prop
  | .text => True
  | .entity name => ∀ c ∈ name, isNameChar c = true
  | _ => False

/-- What has been read and not been shown yet. -/
def pending : Mode → Text
  | .entity name => flush name
  | _ => []

/-- All of the text is shown if there is no reference in it, and less else. -/
structure Faithful (d : Dialect) (s out : Text) : Prop where
  same : NoReference d s → out = s
  fewer : ¬NoReference d s → out.length < s.length

section Read

variable {d : Dialect} {s t out : Text} {m : Mode} {c : CodePoint}

theorem Faithful.length_le (h : Faithful d s out) : out.length ≤ s.length := by
  by_cases hs : NoReference d s
  · rw [h.same hs]
  · exact Nat.le_of_lt (h.fewer hs)

theorem Faithful.same_iff (h : Faithful d s out) : out = s ↔ NoReference d s := by
  refine ⟨fun heq => ?_, h.same⟩
  by_contra hs
  have hlt := h.fewer hs
  rw [heq] at hlt
  exact Nat.lt_irrefl _ hlt

/-- What is shown at once is no part of a reference. -/
theorem Faithful.prepend (h : Faithful d s out) (shown : Text)
    (hiff : NoReference d (shown ++ s) ↔ NoReference d s) :
    Faithful d (shown ++ s) (shown ++ out) where
  same hs := congrArg (shown ++ ·) (h.same (hiff.mp hs))
  fewer hs := by
    have hlt := h.fewer fun hno => hs (hiff.mpr hno)
    rw [List.length_append, List.length_append]
    omega

theorem faithful_pending (hm : InText m) : Faithful d (pending m) (pending m) where
  same _ := rfl
  fewer hs := by
    refine absurd (noReference_of_no_semicolon ?_) hs
    cases m with
    | entity name =>
        intro hmem
        obtain hamp | hmem := List.mem_cons.mp hmem
        · exact absurd hamp (by decide)
        · exact absurd (hm _ hmem) (by decide)
    | _ => exact List.not_mem_nil

/-- One character other than `<`: what it shows, and how the rest goes on. -/
def ReadsOn (d : Dialect) (m : Mode) (c : CodePoint) : Prop :=
  ∃ shown m', step d m c = some (chars shown, m') ∧ InText m' ∧
    ∀ s out, Faithful d (pending m' ++ s) out → Faithful d (pending m ++ c :: s) (shown ++ out)

theorem readsOn_text (hlt : c ≠ ofChar '<') : ReadsOn d .text c := by
  by_cases hamp : c = ofChar '&'
  · refine ⟨[], .entity [], ?_, List.forall_mem_nil _, fun s out h => ?_⟩
    · rw [step, stepText, if_neg hlt, if_pos hamp]
      rfl
    · rw [hamp]
      exact h
  · refine ⟨[c], .text, ?_, trivial, fun s out h => ?_⟩
    · rw [step, stepText, if_neg hlt, if_neg hamp]
      rfl
    · exact h.prepend [c] (noReference_cons hamp)

/-- The name goes on. -/
theorem readsOn_name {name : Text} (hname : InText (.entity name)) (hc : isNameChar c = true) :
    ReadsOn d (.entity name) c := by
  refine ⟨[], .entity (name ++ [c]), if_pos hc, ?_, fun s out h => ?_⟩
  · intro c' hc'
    obtain hc' | hc' := List.mem_append.mp hc'
    · exact hname c' hc'
    · rw [List.mem_singleton.mp hc', hc]
  · have hpending : pending (.entity (name ++ [c])) ++ s = flush name ++ c :: s := by
      simp [pending, flush]
    rw [hpending] at h
    exact h

/-- The name ends with a semicolon. -/
theorem readsOn_semicolon {name : Text} (hname : InText (.entity name)) :
    ReadsOn d (.entity name) (ofChar ';') := by
  have hplain : isNameChar (ofChar ';') = false := by decide
  have hflush : ∀ s, NoReference d (flush name ++ ofChar ';' :: s) ↔
      d.entity name = none ∧ NoReference d s := by
    intro s
    have hrest : NoReference d (ofChar ';' :: s) ↔ NoReference d s :=
      noReference_cons (by decide)
    rw [noReference_flush hname hplain, hrest, imp_iff_right rfl]
  cases hentity : d.entity name with
  | some e =>
      refine ⟨[e], .text, ?_, trivial, fun s out h => ⟨fun hno => ?_, fun _ => ?_⟩⟩
      · rw [step, hplain, if_neg Bool.false_ne_true, if_pos rfl, hentity]
        rfl
      · have hnone := ((hflush s).mp hno).1
        rw [hentity] at hnone
        cases hnone
      · have hle := h.length_le
        simp only [pending, flush, List.length_append, List.length_cons, List.length_nil]
          at hle ⊢
        omega
  | none =>
      refine ⟨flush name ++ [ofChar ';'], .text, ?_, trivial, fun s out h => ?_⟩
      · rw [step, hplain, if_neg Bool.false_ne_true, if_pos rfl, hentity]
      · have hprepend := h.prepend (flush name ++ [ofChar ';'])
        simp only [pending, List.nil_append, List.append_assoc] at hprepend ⊢
        exact hprepend ((hflush s).trans (and_iff_right hentity))

/-- Something else comes after the name, which is then shown as it is. -/
theorem readsOn_other {name : Text} (hname : InText (.entity name)) (hlt : c ≠ ofChar '<')
    (hc : isNameChar c = false) (hsemicolon : c ≠ ofChar ';') :
    ReadsOn d (.entity name) c := by
  obtain ⟨shown, m', hstep, hm', hrest⟩ := readsOn_text (d := d) hlt
  refine ⟨flush name ++ shown, m', ?_, hm', fun s out h => ?_⟩
  · have hout : stepText c = (chars shown, m') := Option.some.inj hstep
    rw [step, hc, if_neg Bool.false_ne_true, if_neg hsemicolon, hout, chars_append]
  · rw [List.append_assoc]
    refine (hrest s out h).prepend (flush name) ?_
    exact (noReference_flush hname hc).trans (and_iff_right fun heq => absurd heq hsemicolon)

theorem readsOn (hm : InText m) (hlt : c ≠ ofChar '<') : ReadsOn d m c := by
  cases m with
  | text => exact readsOn_text hlt
  | entity name =>
      by_cases hc : isNameChar c = true
      · exact readsOn_name hm hc
      by_cases hsemicolon : c = ofChar ';'
      · rw [hsemicolon]
        exact readsOn_semicolon hm
      · exact readsOn_other hm hlt (Bool.eq_false_of_not_eq_true hc) hsemicolon
  | _ => exact hm.elim

/-- Without a `<` the machine stays between tags, and it shows all of the text or fewer
characters. -/
theorem steps_text (hm : InText m) (hs : ofChar '<' ∉ s) :
    ∃ out m', steps d m s = some (chars out, m') ∧ InText m' ∧
      Faithful d (pending m ++ s) (out ++ pending m') := by
  induction s generalizing m with
  | nil =>
      refine ⟨[], m, rfl, hm, ?_⟩
      rw [List.append_nil, List.nil_append]
      exact faithful_pending hm
  | cons c s ih =>
      obtain ⟨hne, hs⟩ := List.ne_and_not_mem_of_not_mem_cons hs
      obtain ⟨shown, m₁, hstep, hm₁, hrest⟩ := readsOn (d := d) hm hne.symm
      obtain ⟨out, m', hsteps, hm', hfaithful⟩ := ih hm₁ hs
      refine ⟨shown ++ out, m', ?_, hm', ?_⟩
      · rw [steps_cons, hstep, Option.bind_some, hsteps, Option.map_some, chars_append]
      · rw [List.append_assoc]
        exact hrest s _ hfaithful

end Read

/-! ## A tag cuts the text off -/

theorem run_cons {d : Dialect} {m : Mode} {c : CodePoint} {out : List Token × Mode}
    (hstep : step d m c = some out) (s : Text) :
    run d m (c :: s) = (run d out.2 s).map fun rest => out.1 ++ rest := by
  have hone : steps d m [c] = some (out.1, out.2) := by
    rw [steps_cons, hstep]
    simp
  exact run_append hone s

/-- A `<` ends what might have been a reference. -/
theorem step_entity_lt (d : Dialect) (name : Text) :
    step d (.entity name) (ofChar '<') = some (chars (flush name), .opened) := by
  have hname : isNameChar (ofChar '<') = false := by decide
  rw [step, hname, if_neg Bool.false_ne_true, if_neg (by decide), stepText, if_pos rfl,
    List.append_nil]

/-- The machine is inside a tag. -/
def InTag : Mode → Prop
  | .text | .entity _ => False
  | _ => True

def IsTag (t : Token) : Prop := ∀ c, t ≠ .char c

section Tags

variable {d : Dialect} {s t : Text} {m : Mode} {c : CodePoint} {ts rest : List Token}

theorem inTag_stepValue {start : StartTag} {attr value : Text} {quote : CodePoint} :
    InTag (stepValue start attr quote value c) := by
  rw [stepValue]
  split_ifs <;> trivial

theorem step_tag {out : List Token × Mode} (hm : InTag m) (hstep : step d m c = some out) :
    (out.1 = [] ∧ InTag out.2) ∨ ∃ t, out.1 = [t] ∧ IsTag t := by
  have hfinish : ∀ {start}, finish d start = some out → ∃ t, out.1 = [t] ∧ IsTag t := by
    intro start hfinish
    rw [finish] at hfinish
    split at hfinish
    · cases hfinish
      exact ⟨_, rfl, fun _ hc => Token.noConfusion hc⟩
    · cases hfinish
  cases m with
  | text => exact hm.elim
  | entity name => exact hm.elim
  | opened =>
      rw [step] at hstep
      split_ifs at hstep <;> cases hstep <;> exact .inl ⟨rfl, trivial⟩
  | tagName tag =>
      rw [step] at hstep
      split_ifs at hstep
      · exact .inr (hfinish hstep)
      · cases hstep
        exact .inl ⟨rfl, trivial⟩
      · cases hstep
        exact .inl ⟨rfl, trivial⟩
  | gap start =>
      rw [step] at hstep
      split_ifs at hstep
      · exact .inr (hfinish hstep)
      · cases hstep
        exact .inl ⟨rfl, trivial⟩
      · cases hstep
        exact .inl ⟨rfl, trivial⟩
  | attrName start attr =>
      rw [step] at hstep
      split_ifs at hstep <;> cases hstep <;> exact .inl ⟨rfl, trivial⟩
  | equals start attr =>
      rw [step] at hstep
      split_ifs at hstep
      cases hstep
      exact .inl ⟨rfl, trivial⟩
  | value start attr quote value =>
      cases hstep
      exact .inl ⟨rfl, inTag_stepValue⟩
  | valueEntity start attr quote value name =>
      rw [step] at hstep
      split_ifs at hstep
      · cases hstep
        exact .inl ⟨rfl, trivial⟩
      · split at hstep <;> cases hstep <;> exact .inl ⟨rfl, trivial⟩
      · cases hstep
        exact .inl ⟨rfl, inTag_stepValue⟩
  | endTag tag =>
      rw [step] at hstep
      split_ifs at hstep
      · cases hstep
        exact .inr ⟨_, rfl, fun _ hc => Token.noConfusion hc⟩
      · cases hstep
        exact .inl ⟨rfl, trivial⟩

/-- What comes next inside a tag is the tag. -/
theorem run_tag (hm : InTag m) (hrun : run d m s = some ts) :
    ∃ t rest, ts = t :: rest ∧ IsTag t := by
  induction s generalizing m ts with
  | nil =>
      cases m with
      | text => exact hm.elim
      | entity name => exact hm.elim
      | _ => cases hrun
  | cons c s ih =>
      cases hstep : step d m c with
      | none =>
          rw [run, steps_cons, hstep] at hrun
          cases hrun
      | some out =>
          rw [run_cons hstep] at hrun
          obtain ⟨ts', hts', rfl⟩ := Option.map_eq_some_iff.mp hrun
          obtain ⟨hout, hm'⟩ | ⟨t, hout, ht⟩ := step_tag hm hstep
          · rw [hout]
            exact ih hm' hts'
          · rw [hout]
            exact ⟨t, ts', rfl, ht⟩

/-- A tag is no character. -/
theorem chars_ne_of_tag {x s : Text} {t : Token} (ht : IsTag t) (hlt : x.length < s.length) :
    chars x ++ t :: rest ≠ chars s ++ ts := by
  induction x generalizing s with
  | nil =>
      cases s with
      | nil => exact absurd hlt (Nat.lt_irrefl 0)
      | cons c s =>
          intro heq
          exact ht c (List.cons.inj heq).1
  | cons c x ih =>
      cases s with
      | nil => exact absurd hlt (Nat.not_lt_zero _)
      | cons c' s =>
          intro heq
          exact ih (Nat.lt_of_succ_lt_succ hlt) (List.cons.inj heq).2

end Tags

/-! ## Plain texts -/

section Plain

variable {d : Dialect} {s t : Text} {m : Mode} {c : CodePoint} {ts rest : List Token}

/-- What comes after a text cannot be part of its last reference. -/
def Boundary (t : Text) : Prop := ∀ c ∈ t.head?, isNameChar c = false ∧ c ≠ ofChar ';'

/-- What is pending is shown before a boundary. -/
theorem run_boundary (hm : InText m) (ht : Boundary t) :
    run d m t = (run d .text t).map (chars (pending m) ++ ·) := by
  cases m with
  | text => simp [pending]
  | entity name =>
      cases t with
      | nil => simp [run, atEnd, pending]
      | cons c t =>
          obtain ⟨hc, hsemicolon⟩ := ht c rfl
          have hstep : step d (.entity name) c =
              some (chars (flush name) ++ (stepText c).1, (stepText c).2) := by
            rw [step, hc, if_neg Bool.false_ne_true, if_neg hsemicolon]
          have htext : step d .text c = some (stepText c) := rfl
          rw [run_cons hstep, run_cons htext, Option.map_map]
          simp [pending, Function.comp_def]
  | _ => exact hm.elim

theorem chars_injective {s s' : Text} (h : chars s = chars s') : s = s' := by
  have hvisible := congrArg visible h
  rwa [visible_chars, visible_chars] at hvisible

/-- In front of what is read as `rest`, a text is read as itself exactly if it is plain. -/
theorem run_append_iff (hboundary : Boundary t) (ht : run d .text t = some rest) :
    run d .text (s ++ t) = some (chars s ++ rest) ↔ Plain d s := by
  by_cases htag : ofChar '<' ∈ s
  · have hnot : ¬Plain d s := fun h => h.noTag htag
    refine ⟨fun hrun => ?_, fun h => absurd h hnot⟩
    obtain ⟨before, after, rfl, hbefore⟩ := List.eq_append_cons_of_mem htag
    obtain ⟨out, m', hsteps, hm', hfaithful⟩ := steps_text (d := d) (m := .text) trivial hbefore
    have hle := hfaithful.length_le
    have hopen : steps d m' [ofChar '<'] = some (chars (pending m'), .opened) := by
      cases m' with
      | text => rfl
      | entity name =>
          rw [steps_cons, step_entity_lt, Option.bind_some, steps_nil, Option.map_some,
            List.append_nil]
          rfl
      | _ => exact hm'.elim
    have hall := run_append (steps_append_of hsteps hopen) (after ++ t)
    simp only [List.append_assoc, List.cons_append, List.nil_append] at hall hrun
    rw [hrun] at hall
    obtain ⟨ts, hts, heq⟩ := Option.map_eq_some_iff.mp hall.symm
    have hopened : InTag .opened := trivial
    obtain ⟨tag, ts', rfl, hIsTag⟩ := run_tag hopened hts
    rw [← List.append_assoc, ← chars_append] at heq
    refine absurd heq (chars_ne_of_tag hIsTag ?_)
    simp only [pending, List.nil_append, List.length_append, List.length_cons] at hle ⊢
    omega
  · obtain ⟨out, m', hsteps, hm', hfaithful⟩ := steps_text (d := d) (m := .text) trivial htag
    have hrun : run d .text (s ++ t) = some (chars (out ++ pending m') ++ rest) := by
      rw [run_append hsteps, run_boundary hm' hboundary, ht]
      simp
    have hplain : Plain d s ↔ NoReference d s := ⟨fun h => h.noReference, fun h => ⟨htag, h⟩⟩
    have hsame : out ++ pending m' = s ↔ NoReference d s := hfaithful.same_iff
    rw [hrun, hplain, ← hsame, Option.some.injEq, List.append_cancel_right_eq]
    exact ⟨chars_injective, congrArg chars⟩

theorem closes_chars (openTags : List Text) (s : Text) :
    closes openTags (chars s ++ rest) = closes openTags rest := by
  induction s with
  | nil => rfl
  | cons c s ih => rw [chars_cons, List.cons_append, closes_char, ih]

theorem parse_append_iff (hboundary : Boundary t) (ht : parse d t = some rest) :
    parse d (s ++ t) = some (chars s ++ rest) ↔ Plain d s := by
  obtain ⟨hrun, hcloses⟩ := Option.filter_eq_some_iff.mp ht
  rw [parse, Option.filter_eq_some_iff, closes_chars, run_append_iff hboundary hrun]
  exact and_iff_left hcloses

/-- A text is read as itself exactly if it is plain. -/
theorem parse_iff_plain : parse d s = some (chars s) ↔ Plain d s := by
  have hnil : parse d [] = some [] := rfl
  have hboundary : Boundary [] := nofun
  have happend := parse_append_iff (d := d) (s := s) hboundary hnil
  rwa [List.append_nil, List.append_nil] at happend

/-! ### Putting plain texts together -/

theorem plain_of_not_mem (hamp : ofChar '&' ∉ s) (hlt : ofChar '<' ∉ s) : Plain d s :=
  ⟨hlt, noReference_of_no_amp hamp⟩

/-- A character that is in no reference and in no tag. -/
def isNeutral (c : CodePoint) : Bool :=
  !isNameChar c && c ≠ ofChar '&' && c ≠ ofChar ';' && c ≠ ofChar '<'

theorem isNeutral_notMem {r : Text} (hc : isNeutral c = true) (hr : IsReference d r) :
    c ∉ r := by
  obtain ⟨name, e, hname, -, rfl⟩ := hr
  simp only [isNeutral, Bool.and_eq_true, Bool.not_eq_true', decide_eq_true_eq] at hc
  obtain ⟨⟨⟨hplain, hamp⟩, hsemicolon⟩, -⟩ := hc
  intro hmem
  obtain hmem | hmem := List.mem_append.mp hmem
  · obtain hmem | hmem := List.mem_cons.mp hmem
    · exact hamp hmem
    · rw [hname c hmem] at hplain
      cases hplain
  · exact hsemicolon (List.mem_singleton.mp hmem)

/-- References do not reach over a neutral character. -/
theorem plain_append_cons (hc : isNeutral c = true) :
    Plain d (s ++ c :: t) ↔ Plain d s ∧ Plain d t := by
  have hsides : ∀ r, IsReference d r → (r <:+: s ++ c :: t ↔ r <:+: s ∨ r <:+: t) := by
    intro r hr
    have hcr := isNeutral_notMem hc hr
    constructor
    · intro hsub
      obtain hleft | hright | ⟨left, right, rfl, hleft, hright⟩ := List.infix_append_iff.mp hsub
      · exact .inl hleft
      · obtain hprefix | hright := List.infix_cons_iff.mp hright
        · obtain rfl | ⟨r', rfl, -⟩ := List.prefix_cons_iff.mp hprefix
          · exact .inl List.nil_infix
          · exact absurd List.mem_cons_self hcr
        · exact .inr hright
      · obtain rfl | ⟨right', rfl, -⟩ := List.prefix_cons_iff.mp hright
        · rw [List.append_nil]
          exact .inl hleft.isInfix
        · exact absurd (List.mem_append_right _ List.mem_cons_self) hcr
    · rintro (hleft | hright)
      · exact List.infix_append_of_infix_left hleft
      · exact List.infix_append_of_infix_right (List.infix_cons hright)
  have hlt : c ≠ ofChar '<' := by
    simp only [isNeutral, Bool.and_eq_true, decide_eq_true_eq] at hc
    exact hc.2
  constructor
  · rintro ⟨htag, hno⟩
    rw [List.mem_append, List.mem_cons, not_or, not_or] at htag
    exact ⟨⟨htag.1, fun r hr h => hno r hr ((hsides r hr).mpr (.inl h))⟩,
      ⟨htag.2.2, fun r hr h => hno r hr ((hsides r hr).mpr (.inr h))⟩⟩
  · rintro ⟨⟨hleft, hnoLeft⟩, hright, hnoRight⟩
    refine ⟨?_, fun r hr h => ((hsides r hr).mp h).elim (hnoLeft r hr) (hnoRight r hr)⟩
    rw [List.mem_append, List.mem_cons, not_or, not_or]
    exact ⟨hleft, hlt.symm, hright⟩

theorem plain_nil : Plain d [] := plain_of_not_mem List.not_mem_nil List.not_mem_nil

theorem plain_neutral_append {sep : Text} (hsep : sep.all isNeutral = true) :
    Plain d (sep ++ t) ↔ Plain d t := by
  induction sep with
  | nil => exact Iff.rfl
  | cons c sep ih =>
      rw [List.all_cons, Bool.and_eq_true] at hsep
      have hcons := plain_append_cons (d := d) (s := []) (t := sep ++ t) hsep.1
      rw [← ih hsep.2]
      exact hcons.trans (and_iff_right plain_nil)

/-- The same for a separator of several neutral characters. -/
theorem plain_append_sep {sep : Text} (hne : sep ≠ []) (hsep : sep.all isNeutral = true) :
    Plain d (s ++ sep ++ t) ↔ Plain d s ∧ Plain d t := by
  cases sep with
  | nil => exact absurd rfl hne
  | cons c sep =>
      rw [List.all_cons, Bool.and_eq_true] at hsep
      rw [List.append_assoc, List.cons_append, plain_append_cons hsep.1,
        plain_neutral_append hsep.2]

theorem plain_intercalate {sep : Text} (hne : sep ≠ []) (hsep : sep.all isNeutral = true)
    (pieces : List Text) : Plain d (sep.intercalate pieces) ↔ ∀ s ∈ pieces, Plain d s := by
  induction pieces with
  | nil => exact iff_of_true plain_nil (List.forall_mem_nil _)
  | cons s pieces ih =>
      cases pieces with
      | nil => rw [List.intercalate_singleton, List.forall_mem_singleton]
      | cons s' pieces =>
          rw [List.intercalate_cons_cons, plain_append_sep hne hsep, ih]
          exact List.forall_mem_cons.symm

end Plain

end Html
