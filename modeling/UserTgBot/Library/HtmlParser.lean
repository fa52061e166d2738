import UserTgBot.Library.Html

/-!
# Markup that a client reads itself

Python's `html.parser` with `html.unescape`, as a client uses it that turns markup into a text
and entities before it sends anything. It refuses nothing. References need no semicolon, a `<`
that opens no tag is shown, and what the parser is still waiting for at the end is lost, since
nobody closes it. Markup that has been rendered is read back all the same.

The client feeds the parser UTF-16 units. That shows where characters are counted only, so that
texts are code points here, and a character outside the first plane counts twice.
-/

namespace Html

open PyText

/-- What `html` knows of references: names, which include their semicolon if they have one, and
the characters of numbers. -/
structure CharRefs where
  html5 : Text → Option Text
  ofNumber : Nat → Text
  html5_bounds : ∀ {name v}, html5 name = some v → 2 ≤ name.length ∧ v.length ≤ 2
  length_ofNumber : ∀ n, (ofNumber n).length ≤ 1
  amp : html5 (text "amp;") = some (text "&")
  lt : html5 (text "lt;") = some (text "<")
  gt : html5 (text "gt;") = some (text ">")
  quot : html5 (text "quot;") = some (text "\"")

/-- UTF-16 units. -/
def units (s : Text) : Nat := (s.map fun c => if c.val < 0x10000 then 1 else 2).sum

def takeUnits (n : Nat) : Text → Text
  | [] => []
  | c :: s => if units [c] ≤ n then c :: takeUnits (n - units [c]) s else []

theorem takeUnits_of_le {n : Nat} {s : Text} (h : units s ≤ n) : takeUnits n s = s := by
  induction s generalizing n with
  | nil => rfl
  | cons c s ih =>
      have hcons : units (c :: s) = units [c] + units s := by simp [units]
      rw [takeUnits, if_pos (by omega), ih (by omega)]

theorem takeUnits_initial (n : Nat) (s : Text) : takeUnits n s <+: s := by
  induction s generalizing n with
  | nil => exact List.prefix_rfl
  | cons c s ih =>
      rw [takeUnits]
      split
      · exact List.cons_prefix_cons.mpr ⟨rfl, ih _⟩
      · exact List.nil_prefix

/-! ## References -/

/-- A character that is not in a name: one of `\t\n\f <&#;`. -/
def endsName (c : CodePoint) : Bool :=
  [0x09, 0x0a, 0x0c, 0x20, 0x3c, 0x26, 0x23, 0x3b].contains c.val

def digitIn (base : Nat) (c : CodePoint) : Option Nat :=
  (if 0x30 ≤ c.val ∧ c.val ≤ 0x39 then some (c.val - 0x30)
    else if 0x41 ≤ c.val ∧ c.val ≤ 0x46 then some (c.val - 0x37)
    else if 0x61 ≤ c.val ∧ c.val ≤ 0x66 then some (c.val - 0x57)
    else none).filter (· < base)

/-- The semicolon that a text may begin with. -/
def semicolon (s : Text) : Text := (s.head?.filter (· = ofChar ';')).toList

namespace CharRefs

variable (r : CharRefs)

/-- The longest name among the first `n` characters, and its length. -/
def longestName (s : Text) : Nat → Option (Text × Nat)
  | 0 => none
  | n + 1 =>
      match r.html5 (s.take (n + 1)) with
      | some v => some (v, n + 1)
      | none => longestName s n

def namedRef (s : Text) : Option (Text × Nat) :=
  let name := takeUnits 32 (s.takeWhile fun c => !endsName c)
  let matched := name ++ semicolon (s.drop name.length)
  r.longestName matched matched.length

def numberRef (base : Nat) (s : Text) : Option (Text × Nat) :=
  let digits := s.takeWhile fun c => (digitIn base c).isSome
  if digits = [] then none
  else some
    (r.ofNumber (digits.foldl (fun n c => base * n + (digitIn base c).getD 0) 0),
      digits.length + (semicolon (s.drop digits.length)).length)

def hexRef : Text → Option (Text × Nat)
  | [] => none
  | c :: s =>
      if c = ofChar 'x' ∨ c = ofChar 'X' then
        (r.numberRef 16 s).map fun out => (out.1, out.2 + 1)
      else none

/-- What a text that comes after an `&` is replaced by and how much of it, if the two make a
reference. -/
def charRef : Text → Option (Text × Nat)
  | [] => none
  | c :: s =>
      if c = ofChar '#' then
        ((r.numberRef 10 s).or (r.hexRef s)).map fun out => (out.1, out.2 + 1)
      else r.namedRef (c :: s)

/-- `unescape`, with characters that belong to a reference still to be dropped. -/
def unescapeFrom : Nat → Text → Text
  | _, [] => []
  | n + 1, _ :: s => unescapeFrom n s
  | 0, c :: s =>
      if c = ofChar '&' then
        match r.charRef s with
        | some (v, n) => v ++ unescapeFrom n s
        | none => c :: unescapeFrom 0 s
      else c :: unescapeFrom 0 s

/-- `html.unescape`. -/
def unescape (s : Text) : Text := r.unescapeFrom 0 s

/-- No `&` begins a reference. -/
def Literal (s : Text) : Prop :=
  ∀ before after, s = before ++ ofChar '&' :: after → r.charRef after = none

section Unescape

variable {r} {s t v name : Text} {c : CodePoint} {n : Nat}

theorem unescapeFrom_eq (n : Nat) (s : Text) : r.unescapeFrom n s = r.unescape (s.drop n) := by
  induction n generalizing s with
  | zero => rfl
  | succ n ih =>
      cases s with
      | nil => rfl
      | cons c s => exact ih s

@[simp] theorem unescape_nil : r.unescape [] = [] := rfl

theorem unescape_cons (hc : c ≠ ofChar '&') : r.unescape (c :: s) = c :: r.unescape s :=
  if_neg hc

theorem unescape_ref (h : r.charRef s = some (v, n)) :
    r.unescape (ofChar '&' :: s) = v ++ r.unescape (s.drop n) := by
  rw [unescape, unescapeFrom, if_pos rfl, h]
  exact congrArg (v ++ ·) (unescapeFrom_eq n s)

theorem unescape_amp (h : r.charRef s = none) :
    r.unescape (ofChar '&' :: s) = ofChar '&' :: r.unescape s := by
  rw [unescape, unescapeFrom, if_pos rfl, h]
  rfl

theorem length_semicolon_drop (s : Text) (k : Nat) :
    k ≤ s.length → k + (semicolon (s.drop k)).length ≤ s.length := by
  intro hk
  cases hdrop : s.drop k with
  | nil => simpa [semicolon] using hk
  | cons c rest =>
      have hlength := congrArg List.length hdrop
      rw [List.length_drop, List.length_cons] at hlength
      have hone : (semicolon (c :: rest)).length ≤ 1 := Option.length_toList_le
      omega

theorem longestName_some (h : r.longestName s n = some (v, k)) :
    r.html5 (s.take k) = some v ∧ k ≤ n := by
  induction n with
  | zero => cases h
  | succ n ih =>
      rw [longestName] at h
      cases hname : r.html5 (s.take (n + 1)) with
      | some w =>
          rw [hname] at h
          cases h
          exact ⟨hname, Nat.le_refl _⟩
      | none =>
          rw [hname] at h
          obtain ⟨hfound, hle⟩ := ih h
          exact ⟨hfound, by omega⟩

theorem length_takeUnits_takeWhile (p : CodePoint → Bool) (s : Text) :
    (takeUnits n (s.takeWhile p)).length ≤ s.length :=
  (takeUnits_initial _ _).length_le.trans (List.takeWhile_prefix p).length_le

theorem namedRef_bounds (h : r.namedRef s = some (v, n)) : v.length ≤ n ∧ n ≤ s.length := by
  obtain ⟨hname, hn⟩ := longestName_some h
  obtain ⟨htwo, hvalue⟩ := r.html5_bounds hname
  rw [List.length_take] at htwo
  have hmatched := length_semicolon_drop s _
    (length_takeUnits_takeWhile (n := 32) (fun c => !endsName c) s)
  rw [List.length_append] at hn
  omega

theorem numberRef_bounds {base : Nat} (h : r.numberRef base s = some (v, n)) :
    v.length ≤ n ∧ n ≤ s.length := by
  rw [numberRef] at h
  obtain ⟨hdigits, heq⟩ := Option.ite_none_left_eq_some.mp h
  obtain ⟨rfl, rfl⟩ := Prod.mk.inj (Option.some.inj heq)
  have hone := r.length_ofNumber ((s.takeWhile fun c => (digitIn base c).isSome).foldl
    (fun n c => base * n + (digitIn base c).getD 0) 0)
  have hsome := List.length_pos_iff.mpr hdigits
  have hmatched := length_semicolon_drop s _
    (List.takeWhile_prefix fun c => (digitIn base c).isSome).length_le
  omega

theorem hexRef_bounds (h : r.hexRef s = some (v, n)) : v.length ≤ n ∧ n ≤ s.length := by
  cases s with
  | nil => cases h
  | cons c s =>
      obtain ⟨-, hhex⟩ := Option.ite_none_right_eq_some.mp h
      obtain ⟨⟨w, k⟩, hout, heq⟩ := Option.map_eq_some_iff.mp hhex
      obtain ⟨rfl, rfl⟩ := Prod.mk.inj heq
      obtain ⟨hvalue, hlength⟩ := numberRef_bounds hout
      exact ⟨Nat.le_succ_of_le hvalue, Nat.succ_le_succ hlength⟩

/-- A reference is longer than what it stands for. -/
theorem charRef_bounds (h : r.charRef s = some (v, n)) : v.length ≤ n ∧ n ≤ s.length := by
  cases s with
  | nil => cases h
  | cons c s =>
      rw [charRef] at h
      split at h
      · obtain ⟨⟨w, k⟩, hout, heq⟩ := Option.map_eq_some_iff.mp h
        obtain ⟨rfl, rfl⟩ := Prod.mk.inj heq
        have hbounds : w.length ≤ k ∧ k ≤ s.length := by
          obtain hdecimal | ⟨-, hhex⟩ := Option.or_eq_some_iff.mp hout
          · exact numberRef_bounds hdecimal
          · exact hexRef_bounds hhex
        exact ⟨Nat.le_succ_of_le hbounds.1, Nat.succ_le_succ hbounds.2⟩
      · exact namedRef_bounds h

theorem length_unescape_le (s : Text) : (r.unescape s).length ≤ s.length := by
  induction hk : s.length using Nat.strong_induction_on generalizing s with
  | _ k ih =>
      cases s with
      | nil => exact Nat.zero_le _
      | cons c s =>
          rw [List.length_cons] at hk
          have hrest : (r.unescape s).length ≤ s.length := ih s.length (by omega) s rfl
          by_cases hc : c = ofChar '&'
          · subst hc
            cases href : r.charRef s with
            | none =>
                rw [unescape_amp href, List.length_cons]
                omega
            | some out =>
                obtain ⟨v, n⟩ := out
                have hbounds := charRef_bounds href
                have hdrop := ih (s.drop n).length (by rw [List.length_drop]; omega) _ rfl
                rw [List.length_drop] at hdrop
                rw [unescape_ref href, List.length_append]
                omega
          · rw [unescape_cons hc, List.length_cons]
            omega

theorem literal_nil : r.Literal [] := by
  intro before after h
  cases before <;> cases h

theorem literal_cons (hc : c ≠ ofChar '&') : r.Literal (c :: s) ↔ r.Literal s := by
  constructor
  · intro h before after heq
    exact h (c :: before) after (congrArg (c :: ·) heq)
  · intro h before after heq
    cases before with
    | nil => exact absurd (List.cons.inj heq).1 hc
    | cons c' before => exact h before after (List.cons.inj heq).2

theorem literal_amp :
    r.Literal (ofChar '&' :: s) ↔ r.charRef s = none ∧ r.Literal s := by
  constructor
  · intro h
    exact ⟨h [] s rfl, fun before after heq => h (ofChar '&' :: before) after
      (congrArg (ofChar '&' :: ·) heq)⟩
  · rintro ⟨hfirst, h⟩ before after heq
    cases before with
    | nil =>
        obtain rfl := (List.cons.inj heq).2
        exact hfirst
    | cons c' before => exact h before after (List.cons.inj heq).2

/-- A text is as long as it was exactly if there is no reference in it. -/
theorem length_unescape_iff : (r.unescape s).length = s.length ↔ r.Literal s := by
  induction s with
  | nil => exact iff_of_true rfl literal_nil
  | cons c s ih =>
      by_cases hc : c = ofChar '&'
      · subst hc
        rw [literal_amp]
        cases href : r.charRef s with
        | none =>
            rw [unescape_amp href, List.length_cons, List.length_cons, Nat.add_right_cancel_iff, ih]
            exact (and_iff_right rfl).symm
        | some out =>
            obtain ⟨v, n⟩ := out
            have hbounds := charRef_bounds href
            have hdrop := length_unescape_le (r := r) (s.drop n)
            rw [List.length_drop] at hdrop
            rw [unescape_ref href, List.length_append, List.length_cons]
            refine iff_of_false (by omega) fun h => ?_
            cases h.1
      · rw [unescape_cons hc, literal_cons hc, List.length_cons, List.length_cons,
          Nat.add_right_cancel_iff, ih]

theorem Literal.unescape_eq (h : r.Literal s) : r.unescape s = s := by
  induction s with
  | nil => rfl
  | cons c s ih =>
      by_cases hc : c = ofChar '&'
      · subst hc
        obtain ⟨hfirst, hrest⟩ := literal_amp.mp h
        rw [unescape_amp hfirst, ih hrest]
      · rw [unescape_cons hc, ih ((literal_cons hc).mp h)]

/-! ### What comes after a reference -/

theorem takeWhile_append_stop (p : CodePoint → Bool) (hc : p c = false) :
    (s ++ c :: t).takeWhile p = s.takeWhile p := by
  induction s with
  | nil => simp [hc]
  | cons c' s ih => rw [List.cons_append, List.takeWhile_cons, List.takeWhile_cons, ih]

theorem semicolon_drop_newline {k : Nat} (hk : k ≤ s.length) :
    semicolon ((s ++ ofChar '\n' :: t).drop k) = semicolon (s.drop k) := by
  rw [List.drop_append_of_le_length hk]
  cases s.drop k with
  | nil => rfl
  | cons c rest => rfl

theorem namedRef_append_newline (s t : Text) :
    r.namedRef (s ++ ofChar '\n' :: t) = r.namedRef s := by
  have hstop := takeWhile_append_stop (s := s) (t := t) (c := ofChar '\n')
    (fun c => !endsName c) (by decide)
  have hlength := length_takeUnits_takeWhile (n := 32) (fun c => !endsName c) s
  rw [namedRef, namedRef]
  simp only [hstop, semicolon_drop_newline hlength]

theorem numberRef_append_newline (base : Nat) (s t : Text) :
    r.numberRef base (s ++ ofChar '\n' :: t) = r.numberRef base s := by
  have hstop := takeWhile_append_stop (s := s) (t := t) (c := ofChar '\n')
    (fun c => (digitIn base c).isSome) rfl
  have hlength := (List.takeWhile_prefix (l := s) fun c => (digitIn base c).isSome).length_le
  rw [numberRef, numberRef]
  simp only [hstop, semicolon_drop_newline hlength]

/-- A newline ends a reference. -/
theorem charRef_append_newline (s t : Text) :
    r.charRef (s ++ ofChar '\n' :: t) = r.charRef s := by
  cases s with
  | nil =>
      have hhash : ofChar '\n' ≠ ofChar '#' := by decide
      have hname : r.charRef (ofChar '\n' :: t) = r.namedRef (ofChar '\n' :: t) := by
        rw [charRef, if_neg hhash]
      exact hname.trans (namedRef_append_newline [] t)
  | cons c s =>
      have hhex : r.hexRef (s ++ ofChar '\n' :: t) = r.hexRef s := by
        cases s with
        | nil =>
            have hx : ¬(ofChar '\n' = ofChar 'x' ∨ ofChar '\n' = ofChar 'X') := by decide
            have hnone : r.hexRef (ofChar '\n' :: t) = none := by rw [hexRef, if_neg hx]
            exact hnone
        | cons x s => rw [List.cons_append, hexRef, hexRef, numberRef_append_newline]
      rw [List.cons_append, charRef, charRef, numberRef_append_newline, hhex,
        ← List.cons_append, namedRef_append_newline]

theorem unescape_append_newline (s t : Text) :
    r.unescape (s ++ ofChar '\n' :: t) = r.unescape s ++ ofChar '\n' :: r.unescape t := by
  induction hk : s.length using Nat.strong_induction_on generalizing s with
  | _ k ih =>
      cases s with
      | nil => exact unescape_cons (by decide)
      | cons c s =>
          rw [List.length_cons] at hk
          have hrest := ih s.length (by omega) s rfl
          rw [List.cons_append]
          by_cases hc : c = ofChar '&'
          · subst hc
            have hsame := charRef_append_newline (r := r) s t
            cases href : r.charRef s with
            | none =>
                rw [href] at hsame
                rw [unescape_amp hsame, unescape_amp href, hrest, List.cons_append]
            | some out =>
                obtain ⟨v, n⟩ := out
                have hbounds := charRef_bounds href
                rw [href] at hsame
                rw [unescape_ref hsame, unescape_ref href,
                  List.drop_append_of_le_length hbounds.2,
                  ih (s.drop n).length (by rw [List.length_drop]; omega) _ rfl,
                  List.append_assoc]
          · rw [unescape_cons hc, unescape_cons hc, hrest, List.cons_append]

/-! ### What has been escaped -/

/-- A name with a semicolon. -/
theorem charRef_name (hname : ∀ c ∈ name, endsName c = false) (hne : name ≠ [])
    (hunits : units name ≤ 32) (h : r.html5 (name ++ [ofChar ';']) = some v) (t : Text) :
    r.charRef (name ++ ofChar ';' :: t) = some (v, name.length + 1) := by
  have hstop : (name ++ ofChar ';' :: t).takeWhile (fun c => !endsName c) = name := by
    rw [takeWhile_append_stop (fun c => !endsName c) (by decide)]
    exact List.takeWhile_eq_self_iff.mpr fun c hc => by rw [hname c hc]; rfl
  have hfound : r.namedRef (name ++ ofChar ';' :: t) = some (v, name.length + 1) := by
    have hsemicolon : semicolon (ofChar ';' :: t) = [ofChar ';'] := rfl
    have htake : (name ++ [ofChar ';']).take (name.length + 1) = name ++ [ofChar ';'] :=
      List.take_of_length_le (by simp)
    rw [namedRef]
    simp only [hstop, takeUnits_of_le hunits, List.drop_left, hsemicolon, List.length_append,
      List.length_singleton]
    rw [longestName, htake, h]
  cases name with
  | nil => exact absurd rfl hne
  | cons c name =>
      have hc : c ≠ ofChar '#' := by
        rintro rfl
        exact absurd (hname _ List.mem_cons_self) (by decide)
      rw [List.cons_append, charRef, if_neg hc]
      exact hfound

/-- A reference that is a name with a semicolon. -/
theorem unescape_name {e : CodePoint} (hname : name.all fun c => !endsName c) (hne : name ≠ [])
    (hunits : units name ≤ 32) (h : r.html5 (name ++ [ofChar ';']) = some [e]) (t : Text) :
    r.unescape (ofChar '&' :: (name ++ ofChar ';' :: t)) = e :: r.unescape t := by
  have hends : ∀ c ∈ name, endsName c = false := fun c hc => by
    simpa using List.all_eq_true.mp hname c hc
  have hdrop : (name ++ ofChar ';' :: t).drop (name.length + 1) = t := by
    rw [← List.drop_drop, List.drop_left]
    rfl
  rw [unescape_ref (charRef_name hends hne hunits h t), hdrop]
  rfl

theorem unescape_escapeChar (c : CodePoint) (t : Text) :
    r.unescape (escapeChar c ++ t) = c :: r.unescape t := by
  rw [escapeChar]
  split_ifs with hamp hlt hgt
  · rw [hamp]
    exact @unescape_name r (text "amp") (ofChar '&') (by decide) (by decide) (by decide) r.amp t
  · rw [hlt]
    exact @unescape_name r (text "lt") (ofChar '<') (by decide) (by decide) (by decide) r.lt t
  · rw [hgt]
    exact @unescape_name r (text "gt") (ofChar '>') (by decide) (by decide) (by decide) r.gt t
  · exact unescape_cons hamp

theorem unescape_escapeAttrChar (c : CodePoint) (t : Text) :
    r.unescape (escapeAttrChar c ++ t) = c :: r.unescape t := by
  rw [escapeAttrChar]
  split_ifs with hamp hquot
  · rw [hamp]
    exact @unescape_name r (text "amp") (ofChar '&') (by decide) (by decide) (by decide) r.amp t
  · rw [hquot]
    exact @unescape_name r (text "quot") (ofChar '"') (by decide) (by decide) (by decide) r.quot
      t
  · exact unescape_cons hamp

/-- An address between double quotes. -/
theorem unescape_escapeAttr (s : Text) : r.unescape (escapeAttr s) = s := by
  induction s with
  | nil => rfl
  | cons c s ih =>
      rw [escapeAttr, List.flatMap_cons, ← escapeAttr, unescape_escapeAttrChar, ih]

end Unescape

end CharRefs

theorem quote_not_mem_escapeAttr (s : Text) : ofChar '"' ∉ escapeAttr s := by
  rw [escapeAttr, List.mem_flatMap]
  rintro ⟨c, -, hc⟩
  rw [escapeAttrChar] at hc
  split_ifs at hc with hamp hquot
  · exact absurd hc (by decide)
  · exact absurd hc (by decide)
  · exact hquot (List.mem_singleton.mp hc).symm

/-! ## The parser -/

/-- What the parser is made of besides its references. Only links are known of its tags: other
tags may be read in any way. -/
structure HtmlParser extends CharRefs where
  /-- White space, in the pattern that looks for the end of a reference. -/
  isBlank : CodePoint → Bool
  isBlank_newline : isBlank (ofChar '\n') = true
  /-- What is made of a `<` that opens a tag, from the text after it, and how many characters
  that takes; nothing while the tag is not complete. -/
  tagAt : Text → Option (List Token × Nat)
  tagAt_link : ∀ url s, ¬text "mailto:" <+: url →
    tagAt (text "a href=\"" ++ escapeAttr url ++ text "\">" ++ s) =
      some ([.opening (text "a") [(text "href", url)]], (escapeAttr url).length + 10)
  tagAt_linkEnd : ∀ s, tagAt (text "/a>" ++ s) = some ([.closing (text "a")], 3)

/-- A letter or one of `/!?` makes a tag of a `<` before it. -/
def opensTag (s : Text) : Bool :=
  s.head?.any fun c => (0x41 ≤ c.val && c.val ≤ 0x5a) || (0x61 ≤ c.val && c.val ≤ 0x7a) ||
    [ofChar '/', ofChar '!', ofChar '?'].contains c

namespace HtmlParser

variable (p : HtmlParser)

/-- What comes after the last `&`. -/
def afterAmp (data : Text) : Text := (data.reverse.takeWhile (· ≠ ofChar '&')).reverse

/-- The parser does not let go of a last piece that might end within a reference. -/
def waits (data : Text) : Bool :=
  ofChar '&' ∈ data && units (afterAmp data) < 34 &&
    (afterAmp data).all fun c => !p.isBlank c && c ≠ ofChar ';'

/-- `feed`, with characters of a tag still to be dropped, and a piece of text since the last
tag. -/
def feedFrom : Nat → Text → Text → List Token
  | _, data, [] => if p.waits data then [] else chars (p.unescape data)
  | n + 1, data, _ :: s => feedFrom n data s
  | 0, data, c :: s =>
      if c = ofChar '<' then
        chars (p.unescape data) ++
          if opensTag s then
            match p.tagAt s with
            | some (ts, n) => ts ++ feedFrom n [] s
            | none => []
          else if s = [] then [] else .char c :: feedFrom 0 [] s
      else feedFrom 0 (data ++ [c]) s

def feed (s : Text) : List Token := p.feedFrom 0 [] s

/-- The text of the message; white space around it is dropped. -/
def shown (s : Text) : Text := strip (visible (p.feed s))

section Feed

variable {p} {data s t : Text} {c : CodePoint} {n : Nat} {ts : List Token}

theorem feedFrom_drop (n : Nat) (data s : Text) :
    p.feedFrom n data s = p.feedFrom 0 data (s.drop n) := by
  induction n generalizing s with
  | zero => rfl
  | succ n ih =>
      cases s with
      | nil => rfl
      | cons c s => exact ih s

theorem feedFrom_nil (h : p.waits data = false) :
    p.feedFrom 0 data [] = chars (p.unescape data) := by
  rw [feedFrom, h, if_neg Bool.false_ne_true]

/-- Without a `<` a piece grows. -/
theorem feedFrom_append (hs : ofChar '<' ∉ s) (t : Text) :
    p.feedFrom 0 data (s ++ t) = p.feedFrom 0 (data ++ s) t := by
  induction s generalizing data with
  | nil => rw [List.nil_append, List.append_nil]
  | cons c s ih =>
      obtain ⟨hne, hs⟩ := List.ne_and_not_mem_of_not_mem_cons hs
      rw [List.cons_append, feedFrom, if_neg hne.symm, ih hs, List.append_assoc]
      rfl

/-- A tag that is read ends a piece. -/
theorem feedFrom_tag (hopens : opensTag s = true) (htag : p.tagAt s = some (ts, n)) :
    p.feedFrom 0 data (ofChar '<' :: s) =
      chars (p.unescape data) ++ (ts ++ p.feedFrom 0 [] (s.drop n)) := by
  rw [feedFrom, if_pos rfl, if_pos hopens, htag]
  exact congrArg (fun rest => chars (p.unescape data) ++ (ts ++ rest)) (feedFrom_drop n [] s)

theorem afterAmp_concat (hc : c ≠ ofChar '&') : afterAmp (s ++ [c]) = afterAmp s ++ [c] := by
  rw [afterAmp, List.reverse_append, List.reverse_singleton, List.singleton_append,
    List.takeWhile_cons, if_pos (decide_eq_true hc), List.reverse_cons]
  rfl

theorem afterAmp_amp (ht : ofChar '&' ∉ t) : afterAmp (s ++ ofChar '&' :: t) = t := by
  have hall : ∀ c ∈ t.reverse, decide (c ≠ ofChar '&') = true := fun c hc =>
    decide_eq_true fun heq => ht (heq ▸ List.mem_reverse.mp hc)
  rw [afterAmp, List.reverse_append, List.reverse_cons, List.append_assoc, List.singleton_append,
    CharRefs.takeWhile_append_stop _ (by simp), List.takeWhile_eq_self_iff.mpr hall,
    List.reverse_reverse]

/-- A piece that says nothing about what comes after it. -/
structure Closed (p : HtmlParser) (data : Text) : Prop where
  splits : ∀ t, p.unescape (data ++ t) = p.unescape data ++ p.unescape t
  settled : ofChar '&' ∈ data → ∃ c ∈ afterAmp data, p.isBlank c = true ∨ c = ofChar ';'

theorem closed_nil : Closed p [] where
  splits _ := rfl
  settled h := absurd h List.not_mem_nil

theorem Closed.not_waits (closed : Closed p data) : p.waits data = false := by
  by_contra h
  rw [Bool.not_eq_false, waits, Bool.and_eq_true, Bool.and_eq_true, decide_eq_true_eq] at h
  obtain ⟨⟨hamp, -⟩, hall⟩ := h
  obtain ⟨c, hc, hends⟩ := closed.settled hamp
  have hopen := List.all_eq_true.mp hall c hc
  rw [Bool.and_eq_true, Bool.not_eq_true', decide_eq_true_eq] at hopen
  obtain hblank | hsemicolon := hends
  · rw [hopen.1] at hblank
    cases hblank
  · exact hopen.2 hsemicolon

/-- An escaped character closes what it opens. -/
theorem Closed.escapeChar (closed : Closed p data) (c : CodePoint) :
    Closed p (data ++ escapeChar c) where
  splits t := by
    have hone := p.unescape_escapeChar c []
    rw [List.append_nil] at hone
    rw [List.append_assoc, closed.splits, closed.splits, hone, p.unescape_escapeChar,
      List.append_assoc]
    rfl
  settled h := by
    have hname : ∀ name : Text, ofChar '&' ∉ name ++ [ofChar ';'] →
        ∃ c ∈ afterAmp (data ++ ofChar '&' :: (name ++ [ofChar ';'])),
          p.isBlank c = true ∨ c = ofChar ';' := by
      intro name hname
      rw [afterAmp_amp hname]
      exact ⟨_, List.mem_append_right _ List.mem_cons_self, .inr rfl⟩
    rw [Html.escapeChar] at h ⊢
    split_ifs at h ⊢ with hamp hlt hgt
    · exact hname (text "amp") (by decide)
    · exact hname (text "lt") (by decide)
    · exact hname (text "gt") (by decide)
    · have hdata : ofChar '&' ∈ data := by
        rw [List.mem_append, List.mem_singleton] at h
        exact h.resolve_right (Ne.symm hamp)
      obtain ⟨c', hc', hends⟩ := closed.settled hdata
      rw [afterAmp_concat hamp]
      exact ⟨c', List.mem_append_left _ hc', hends⟩

/-- A newline closes any text. -/
theorem closed_append_newline (s : Text) : Closed p (s ++ [ofChar '\n']) where
  splits t := by
    have hnil := p.unescape_append_newline s []
    rw [List.append_assoc, List.singleton_append, p.unescape_append_newline, hnil,
      List.append_assoc]
    rfl
  settled _ := by
    rw [afterAmp_concat (by decide)]
    exact ⟨_, List.mem_append_right _ List.mem_cons_self, .inl p.isBlank_newline⟩

/-! ### Rendered markup -/

/-- A character, or a tag of a link that is no mail address. -/
def Readable : Token → Prop
  | .char _ => True
  | .opening tag attrs =>
      tag = text "a" ∧ ∃ url, attrs = [(text "href", url)] ∧ ¬text "mailto:" <+: url
  | .closing tag => tag = text "a"

theorem lt_not_mem_escapeChar (c : CodePoint) : ofChar '<' ∉ escapeChar c := by
  rw [escapeChar]
  split_ifs with hamp hlt hgt
  · decide
  · decide
  · decide
  · exact fun h => hlt (List.mem_singleton.mp h).symm

theorem feedFrom_link {url : Text} (hurl : ¬text "mailto:" <+: url) (t : Text) :
    p.feedFrom 0 data ((Token.opening (text "a") [(text "href", url)]).render ++ t) =
      chars (p.unescape data) ++
        (.opening (text "a") [(text "href", url)] :: p.feedFrom 0 [] t) := by
  have hrender : (Token.opening (text "a") [(text "href", url)]).render ++ t =
      ofChar '<' :: (text "a href=\"" ++ escapeAttr url ++ text "\">" ++ t) := by
    simp [Token.render, renderAttr, text]
  have hdrop : (text "a href=\"" ++ escapeAttr url ++ text "\">" ++ t).drop
      ((escapeAttr url).length + 10) = t := by
    apply List.drop_left'
    rw [List.length_append, List.length_append, show (text "a href=\"").length = 8 from rfl,
      show (text "\">").length = 2 from rfl]
    omega
  rw [hrender, feedFrom_tag rfl (p.tagAt_link url t hurl), hdrop]
  rfl

theorem feedFrom_linkEnd (t : Text) :
    p.feedFrom 0 data ((Token.closing (text "a")).render ++ t) =
      chars (p.unescape data) ++ (.closing (text "a") :: p.feedFrom 0 [] t) :=
  feedFrom_tag rfl (p.tagAt_linkEnd t)

/-- Markup is read as it was rendered, from a closed piece on. -/
theorem feedFrom_render (closed : Closed p data) (hts : ∀ t ∈ ts, Readable t) :
    p.feedFrom 0 data (render ts) = chars (p.unescape data) ++ ts := by
  induction ts generalizing data with
  | nil => rw [render_nil, feedFrom_nil closed.not_waits, List.append_nil]
  | cons t ts ih =>
      obtain ⟨ht, hrest⟩ := List.forall_mem_cons.mp hts
      rw [render_cons]
      cases t with
      | char c =>
          have hone := p.unescape_escapeChar c []
          rw [List.append_nil] at hone
          show p.feedFrom 0 data (escapeChar c ++ render ts) = _
          rw [feedFrom_append (lt_not_mem_escapeChar c), ih (closed.escapeChar c) hrest,
            closed.splits, hone, chars_append, List.append_assoc]
          rfl
      | opening tag attrs =>
          obtain ⟨rfl, url, rfl, hurl⟩ := ht
          rw [feedFrom_link hurl, ih closed_nil hrest]
          rfl
      | closing tag =>
          obtain rfl := ht
          rw [feedFrom_linkEnd, ih closed_nil hrest]
          rfl

theorem feed_render (hts : ∀ t ∈ ts, Readable t) : p.feed (render ts) = ts :=
  feedFrom_render closed_nil hts

/-! ### Texts that were not escaped -/

/-- A text without tags is read with its references replaced, unless the parser waits. -/
theorem feed_text (hs : ofChar '<' ∉ s) :
    p.feed s = if p.waits s then [] else chars (p.unescape s) := by
  have hfeed : p.feedFrom 0 [] (s ++ []) = p.feedFrom 0 ([] ++ s) [] := feedFrom_append hs []
  rw [List.append_nil, List.nil_append] at hfeed
  exact hfeed

/-- In front of markup on a line of its own the parser does not wait. -/
theorem feed_text_render (hs : ofChar '<' ∉ s) (hts : ∀ t ∈ ts, Readable t) :
    p.feed (s ++ text "\n\n" ++ render ts) =
      chars (p.unescape s ++ text "\n\n") ++ ts := by
  have hnone : ofChar '<' ∉ s ++ text "\n\n" := by
    rw [List.mem_append, not_or]
    exact ⟨hs, by decide⟩
  have hlines : s ++ text "\n\n" = s ++ [ofChar '\n'] ++ [ofChar '\n'] :=
    (List.append_assoc s [ofChar '\n'] [ofChar '\n']).symm
  have hunescape : p.unescape (s ++ text "\n\n") = p.unescape s ++ text "\n\n" :=
    p.unescape_append_newline s [ofChar '\n']
  have hfeed : p.feedFrom 0 [] (s ++ text "\n\n" ++ render ts) =
      p.feedFrom 0 ([] ++ (s ++ text "\n\n")) (render ts) := feedFrom_append hnone (render ts)
  have hclosed : Closed p (s ++ text "\n\n") := hlines ▸ closed_append_newline _
  rw [List.nil_append, feedFrom_render hclosed hts, hunescape] at hfeed
  exact hfeed

end Feed

section Shown

variable {p} {s : Text} {ts : List Token}

/-- Rendered markup is shown as it is, up to white space around it. -/
theorem shown_render_iff (hts : ∀ t ∈ ts, Readable t) :
    p.shown (render ts) = visible ts ↔ Trimmed (visible ts) := by
  rw [shown, feed_render hts, strip_eq_iff]

/-- A text is shown as it is if no part of it is taken for a reference or waited for. -/
theorem shown_text_iff (hs : ofChar '<' ∉ s) (htrimmed : Trimmed s) :
    p.shown s = s ↔ p.Literal s ∧ p.waits s = false := by
  rw [shown, feed_text hs]
  cases hwaits : p.waits s with
  | true =>
      have hamp : ofChar '&' ∈ s := by
        rw [waits, Bool.and_eq_true, Bool.and_eq_true, decide_eq_true_eq] at hwaits
        exact hwaits.1.1
      refine iff_of_false (fun h => ?_) fun h => Bool.noConfusion h.2
      rw [if_pos rfl] at h
      rw [← h] at hamp
      exact absurd hamp List.not_mem_nil
  | false =>
      rw [if_neg Bool.false_ne_true, visible_chars, and_iff_left rfl]
      constructor
      · intro h
        have hstrip := length_strip_le (p.unescape s)
        have hunescape := p.length_unescape_le s
        rw [h] at hstrip
        exact CharRefs.length_unescape_iff.mp (by omega)
      · intro h
        rw [h.unescape_eq, htrimmed.strip_eq]

/-- The same in front of rendered markup. -/
theorem shown_text_render_iff (hs : ofChar '<' ∉ s) (hts : ∀ t ∈ ts, Readable t) :
    p.shown (s ++ text "\n\n" ++ render ts) = s ++ text "\n\n" ++ visible ts ↔
      p.Literal s ∧ Trimmed (s ++ text "\n\n" ++ visible ts) := by
  rw [shown, feed_text_render hs hts, visible_append, visible_chars]
  constructor
  · intro h
    have hliteral : p.Literal s := by
      have hstrip := length_strip_le (p.unescape s ++ text "\n\n" ++ visible ts)
      have hunescape := p.length_unescape_le s
      rw [h] at hstrip
      simp only [List.length_append] at hstrip
      exact CharRefs.length_unescape_iff.mp (by omega)
    rw [hliteral.unescape_eq] at h
    exact ⟨hliteral, strip_eq_iff.mp h⟩
  · rintro ⟨hliteral, htrimmed⟩
    rw [hliteral.unescape_eq, htrimmed.strip_eq]

end Shown

end HtmlParser

end Html
