import UserTgBot.Library.JsonString
import UserTgBot.Library.PyInt

/-!
# JSON texts

`json.dumps` and `json.loads` of Python for values whose keys are strings: `encode` follows the
encoder with and without `indent`, `scan` the scanner with its separators, its numbers and its
constants. Floats are a parameter: what `repr` writes and `float` reads. `loads_dumps` is the
round trip for every value that is `Regular`, and `regular_of_loads` says that what has been
read from a text of scalar values is.
-/

namespace JsonText

open PyText

/-! ## Numbers -/

def isDigit (c : CodePoint) : Bool := 0x30 ≤ c.val && c.val ≤ 0x39

/-- The integer part of a number: a zero alone, or digits that begin with another. -/
def intPart : Text → Option (Text × Text)
  | [] => none
  | c :: rest =>
      if c = ofChar '0' then some ([c], rest)
      else if isDigit c then some (c :: rest.takeWhile isDigit, rest.dropWhile isDigit)
      else none

/-- A point with digits behind it. -/
def fracPart : Text → Text × Text
  | point :: d :: rest =>
      if point = ofChar '.' ∧ isDigit d = true then
        (point :: d :: rest.takeWhile isDigit, rest.dropWhile isDigit)
      else ([], point :: d :: rest)
  | s => ([], s)

/-- The digits of an exponent. -/
def expDigits (front : Text) (whole : Text) : Text → Text × Text
  | d :: rest =>
      if isDigit d then (front ++ d :: rest.takeWhile isDigit, rest.dropWhile isDigit)
      else ([], whole)
  | [] => ([], whole)

/-- An `e` with digits behind it, and a sign in between. -/
def expPart : Text → Text × Text
  | e :: sign :: rest =>
      if e = ofChar 'e' ∨ e = ofChar 'E' then
        if sign = ofChar '+' ∨ sign = ofChar '-' then
          expDigits [e, sign] (e :: sign :: rest) rest
        else expDigits [e] (e :: sign :: rest) (sign :: rest)
      else ([], e :: sign :: rest)
  | s => ([], s)

def signPart : Text → Text × Text
  | [] => ([], [])
  | c :: rest => if c = ofChar '-' then ([c], rest) else ([], c :: rest)

/-- `_match_number`: the number at the start, whether it is a float, and what stands behind. -/
def matchNumber (s : Text) : Option (Text × Bool × Text) :=
  (intPart (signPart s).2).map fun whole =>
    let frac := fracPart whole.2
    let exp := expPart frac.2
    ((signPart s).1 ++ (whole.1 ++ (frac.1 ++ exp.1)), !(frac.1 ++ exp.1).isEmpty, exp.2)

/-- The constants that stand for floats. -/
def constants : List Text := [text "NaN", text "Infinity", text "-Infinity"]

/-- What `float.__repr__` writes and `float` reads. -/
structure Floats (φ : Type) where
  repr : φ → Text
  parse : Text → φ
  /-- A float is written as a constant or as a number with a fraction or an exponent. -/
  repr_form : ∀ x, repr x ∈ constants ∨ matchNumber (repr x) = some (repr x, true, [])
  parse_repr : ∀ x, parse (repr x) = x

/-- Floats that are kept as `repr` writes them. -/
def literalFloats : Floats {t : Text // matchNumber t = some (t, true, [])} where
  repr := Subtype.val
  parse t := if h : matchNumber t = some (t, true, []) then ⟨t, h⟩ else ⟨text "0.0", by decide⟩
  repr_form x := .inr x.2
  parse_repr x := dif_pos x.2

/-! ## Values -/

inductive Value (φ : Type) where
  | null
  | bool (b : Bool)
  | int (n : Int)
  | float (x : φ)
  | str (s : Text)
  | list (elements : List (Value φ))
  | dict (entries : List (Text × Value φ))

variable {φ : Type}

mutual

/-- Whether a value and all that it holds has a property. -/
def Value.all (p : Value φ → Bool) : Value φ → Bool
  | .null => p .null
  | .bool b => p (.bool b)
  | .int n => p (.int n)
  | .float x => p (.float x)
  | .str s => p (.str s)
  | .list vs => p (.list vs) && Value.allElements p vs
  | .dict es => p (.dict es) && Value.allEntries p es

def Value.allElements (p : Value φ → Bool) : List (Value φ) → Bool
  | [] => true
  | v :: vs => Value.all p v && Value.allElements p vs

def Value.allEntries (p : Value φ → Bool) : List (Text × Value φ) → Bool
  | [] => true
  | (_, v) :: es => Value.all p v && Value.allEntries p es

end

/-- `str` raises for integers of more digits. -/
def Value.isShort : Value φ → Bool
  | .int n => (strOfNat n.natAbs).length ≤ maxStrDigits
  | _ => true

/-- No key twice, and no two surrogates that would be read as one code point. -/
def Value.isPlain : Value φ → Bool
  | .str s => Joined s
  | .dict es => (es.map Prod.fst).Nodup ∧ ∀ e ∈ es, Joined e.1
  | _ => true

/-- A value that is read back as it has been written. -/
def Value.Regular (v : Value φ) : Prop := v.all (fun w => w.isShort && w.isPlain) = true

instance (v : Value φ) : Decidable v.Regular :=
  inferInstanceAs (Decidable (Value.all _ v = true))

/-! ## Writing -/

/-- `indent`, as far as `dumps` has it. -/
def newline (indent : Option Nat) (level : Nat) : Text :=
  match indent with
  | none => []
  | some width => ofChar '\n' :: List.replicate (width * level) (ofChar ' ')

def separator (indent : Option Nat) (level : Nat) : Text :=
  match indent with
  | none => [ofChar ',', ofChar ' ']
  | some _ => ofChar ',' :: newline indent level

section Encoder

variable (floats : Floats φ) (indent : Option Nat)

mutual

/-- `_iterencode`. -/
def encode (level : Nat) : Value φ → Text
  | .null => text "null"
  | .bool true => text "true"
  | .bool false => text "false"
  | .int n => strOfInt n
  | .float x => floats.repr x
  | .str s => encodeString s
  | .list [] => [ofChar '[', ofChar ']']
  | .list (v :: vs) =>
      ofChar '[' :: (newline indent (level + 1) ++ (encodeElements (level + 1) (v :: vs) ++
        (newline indent level ++ [ofChar ']'])))
  | .dict [] => [ofChar '\x7b', ofChar '\x7d']
  | .dict (e :: es) =>
      ofChar '\x7b' :: (newline indent (level + 1) ++ (encodeEntries (level + 1) (e :: es) ++
        (newline indent level ++ [ofChar '\x7d'])))

/-- `_iterencode_list` between the brackets. -/
def encodeElements (level : Nat) : List (Value φ) → Text
  | [] => []
  | [v] => encode level v
  | v :: w :: ws => encode level v ++ (separator indent level ++ encodeElements level (w :: ws))

/-- `_iterencode_dict` between the braces. -/
def encodeEntries (level : Nat) : List (Text × Value φ) → Text
  | [] => []
  | [(key, v)] => encodeString key ++ (ofChar ':' :: ofChar ' ' :: encode level v)
  | (key, v) :: e :: es =>
      encodeString key ++ (ofChar ':' :: ofChar ' ' :: (encode level v ++
        (separator indent level ++ encodeEntries level (e :: es))))

end

/-- `json.dumps(value, indent=indent)`; nothing if an integer is too long. -/
def dumps (v : Value φ) : Option Text :=
  if v.all Value.isShort then some (encode floats indent 0 v) else none

end Encoder

/-! ## Reading -/

def isSpace (c : CodePoint) : Bool :=
  c = ofChar ' ' || c = ofChar '\t' || c = ofChar '\n' || c = ofChar '\r'

def skip (s : Text) : Text := s.dropWhile isSpace

/-- The character behind white space. -/
def next (s : Text) : Option (CodePoint × Text) :=
  match skip s with
  | [] => none
  | c :: rest => some (c, rest)

/-- `d[key] = value`: a key keeps its place. -/
def setItem {α : Type} (key : Text) (value : α) : List (Text × α) → List (Text × α)
  | [] => [(key, value)]
  | e :: es => if e.1 = key then (key, value) :: es else e :: setItem key value es

/-- The dictionary of pairs in order. -/
def dictOf {α : Type} (pairs : List (Text × α)) : List (Text × α) :=
  pairs.foldl (fun es e => setItem e.1 e.2 es) []

section Scanner

variable (floats : Floats φ)

/-- The names that stand for a value. -/
def names : List (Text × Value φ) :=
  [(text "null", .null), (text "true", .bool true), (text "false", .bool false)] ++
    constants.map fun name => (name, .float (floats.parse name))

def scanName (s : Text) : Option (Value φ × Text) :=
  (names floats).findSome? fun name => (name.1.isPrefixOf? s).map fun rest => (name.2, rest)

def scanNumber (s : Text) : Option (Value φ × Text) :=
  (matchNumber s).bind fun number =>
    if number.2.1 then some (.float (floats.parse number.1), number.2.2)
    else (intOfText number.1).map fun n => (.int n, number.2.2)

mutual

/-- `scan_once`; `none` is a `JSONDecodeError`. -/
def scan : Nat → Text → Option (Value φ × Text)
  | 0, _ => none
  | _, [] => none
  | fuel + 1, c :: rest =>
      if c = quote then (scanString fuel rest).map fun read => (.str read.1, read.2)
      else if c = ofChar '[' then
        (next rest).bind fun first =>
          if first.1 = ofChar ']' then some (.list [], first.2)
          else (scanElements fuel (first.1 :: first.2)).map fun read => (.list read.1, read.2)
      else if c = ofChar '\x7b' then
        (next rest).bind fun first =>
          if first.1 = ofChar '\x7d' then some (.dict [], first.2)
          else (scanEntries fuel (first.1 :: first.2)).map fun read =>
            (.dict (dictOf read.1), read.2)
      else (scanName floats (c :: rest)).or (scanNumber floats (c :: rest))

/-- The elements of a list from the first character of one on. -/
def scanElements : Nat → Text → Option (List (Value φ) × Text)
  | 0, _ => none
  | fuel + 1, s =>
      (scan fuel s).bind fun value => (next value.2).bind fun behind =>
        if behind.1 = ofChar ']' then some ([value.1], behind.2)
        else if behind.1 = ofChar ',' then
          (scanElements fuel (skip behind.2)).map fun read => (value.1 :: read.1, read.2)
        else none

/-- The pairs of a dictionary from the first character of one on. -/
def scanEntries : Nat → Text → Option (List (Text × Value φ) × Text)
  | 0, _ => none
  | _, [] => none
  | fuel + 1, c :: rest =>
      if c = quote then
        (scanString fuel rest).bind fun key => (next key.2).bind fun colon =>
          if colon.1 = ofChar ':' then
            (scan fuel (skip colon.2)).bind fun value => (next value.2).bind fun behind =>
              if behind.1 = ofChar '\x7d' then some ([(key.1, value.1)], behind.2)
              else if behind.1 = ofChar ',' then
                (scanEntries fuel (skip behind.2)).map fun read =>
                  ((key.1, value.1) :: read.1, read.2)
              else none
          else none
      else none

end

/-- `json.loads`; `none` is a `ValueError`. Two calls at most are made for each character. -/
def loads (s : Text) : Option (Value φ) :=
  if s.head? = some ⟨0xfeff, by decide⟩ then none
  else (scan floats (2 * s.length + 1) (skip s)).bind fun read =>
    if skip read.2 = [] then some read.1 else none

end Scanner

/-! ## Where a number ends -/

/-- A character that does not go on with a number. -/
def stops (c : CodePoint) : Bool :=
  !isDigit c && c ≠ ofChar '.' && c ≠ ofChar 'e' && c ≠ ofChar 'E' && c ≠ ofChar '+' &&
    c ≠ ofChar '-'

/-- A number that stands in front ends here. -/
def Stops (rest : Text) : Prop := ∀ c ∈ rest.head?, stops c = true

theorem stops_nil : Stops [] := by
  intro c hc
  cases hc

theorem stops_cons {c : CodePoint} (h : stops c = true) (rest : Text) : Stops (c :: rest) := by
  intro d hd
  cases hd
  exact h

section Stops

variable {s rest : Text}

theorem isDigit_of_stops {c : CodePoint} (h : stops c = true) : isDigit c = false := by
  simp only [stops, Bool.and_eq_true, Bool.not_eq_true'] at h
  exact h.1.1.1.1.1

theorem takeWhile_append (h : Stops rest) :
    (s ++ rest).takeWhile isDigit = s.takeWhile isDigit := by
  induction s with
  | nil =>
      cases rest with
      | nil => rfl
      | cons c rest =>
          rw [List.nil_append, List.takeWhile_cons, isDigit_of_stops (h c rfl)]
          rfl
  | cons c s ih =>
      rw [List.cons_append, List.takeWhile_cons, List.takeWhile_cons, ih]

theorem dropWhile_append (h : Stops rest) :
    (s ++ rest).dropWhile isDigit = s.dropWhile isDigit ++ rest := by
  induction s with
  | nil =>
      cases rest with
      | nil => rfl
      | cons c rest =>
          rw [List.nil_append, List.dropWhile_cons, isDigit_of_stops (h c rfl)]
          rfl
  | cons c s ih =>
      rw [List.cons_append, List.dropWhile_cons, List.dropWhile_cons, ih]
      split <;> rfl

theorem signPart_append (h : Stops rest) :
    signPart (s ++ rest) = ((signPart s).1, (signPart s).2 ++ rest) := by
  cases s with
  | nil =>
      cases rest with
      | nil => rfl
      | cons c rest =>
          have hc := h c rfl
          simp only [stops, Bool.and_eq_true, decide_eq_true_eq] at hc
          show (if c = ofChar '-' then ([c], rest) else ([], c :: rest)) = ([], c :: rest)
          rw [if_neg hc.2]
  | cons c s =>
      rw [List.cons_append, signPart, signPart]
      split <;> rfl

theorem intPart_append (h : Stops rest) :
    intPart (s ++ rest) = (intPart s).map fun whole => (whole.1, whole.2 ++ rest) := by
  cases s with
  | nil =>
      cases rest with
      | nil => rfl
      | cons c rest =>
          have hdigit := isDigit_of_stops (h c rfl)
          have hzero : c ≠ ofChar '0' := by
            rintro rfl
            cases hdigit
          show (if c = ofChar '0' then _ else if isDigit c = true then _ else none) = none
          rw [if_neg hzero, hdigit]
          rfl
  | cons c s =>
      rw [List.cons_append, intPart, intPart, takeWhile_append h, dropWhile_append h]
      split
      · rfl
      · split <;> rfl

theorem fracPart_append (h : Stops rest) :
    fracPart (s ++ rest) = ((fracPart s).1, (fracPart s).2 ++ rest) := by
  match s, rest with
  | [], [] => rfl
  | [], [c] => rfl
  | [], c :: d :: rest =>
      have hc := h c rfl
      simp only [stops, Bool.and_eq_true, decide_eq_true_eq] at hc
      rw [List.nil_append, fracPart, if_neg fun hpoint => hc.1.1.1.1.2 hpoint.1]
      rfl
  | [a], [] => rfl
  | [a], c :: rest =>
      have hdigit := isDigit_of_stops (h c rfl)
      rw [List.singleton_append, fracPart, hdigit, if_neg fun hpoint => nomatch hpoint.2]
      rfl
  | a :: b :: s, rest =>
      rw [List.cons_append, List.cons_append, fracPart, fracPart, takeWhile_append h,
        dropWhile_append h]
      split <;> rfl

theorem expDigits_append (h : Stops rest) (front whole : Text) :
    expDigits front (whole ++ rest) (s ++ rest) =
      ((expDigits front whole s).1, (expDigits front whole s).2 ++ rest) := by
  cases s with
  | nil =>
      cases rest with
      | nil => rfl
      | cons c rest =>
          rw [List.nil_append, expDigits, isDigit_of_stops (h c rfl)]
          rfl
  | cons c s =>
      rw [List.cons_append, expDigits, expDigits, takeWhile_append h, dropWhile_append h]
      split <;> rfl

theorem expPart_append (h : Stops rest) :
    expPart (s ++ rest) = ((expPart s).1, (expPart s).2 ++ rest) := by
  match s, rest with
  | [], [] => rfl
  | [], [c] => rfl
  | [], c :: d :: rest =>
      have hc := h c rfl
      simp only [stops, Bool.and_eq_true, decide_eq_true_eq] at hc
      rw [List.nil_append, expPart, if_neg]
      · rfl
      · rintro (he | he)
        · exact hc.1.1.1.2 he
        · exact hc.1.1.2 he
  | [a], [] => rfl
  | [a], c :: rest =>
      have hc := h c rfl
      have hdigit := isDigit_of_stops hc
      simp only [stops, Bool.and_eq_true, decide_eq_true_eq] at hc
      have hsign : ¬ (c = ofChar '+' ∨ c = ofChar '-') := by
        rintro (hplus | hminus)
        · exact hc.1.2 hplus
        · exact hc.2 hminus
      rw [List.singleton_append, expPart, if_neg hsign, expDigits, hdigit]
      split <;> rfl
  | a :: b :: s, rest =>
      have hsigned := expDigits_append (s := s) h [a, b] (a :: b :: s)
      have hplain := expDigits_append (s := b :: s) h [a] (a :: b :: s)
      rw [List.cons_append, List.cons_append] at hsigned hplain
      rw [List.cons_append, List.cons_append, expPart, expPart]
      split
      · split
        · exact hsigned
        · exact hplain
      · rfl

theorem matchNumber_append (h : Stops rest) :
    matchNumber (s ++ rest) =
      (matchNumber s).map fun number => (number.1, number.2.1, number.2.2 ++ rest) := by
  rw [matchNumber, matchNumber, signPart_append h, intPart_append h]
  cases intPart (signPart s).2 with
  | none => rfl
  | some whole =>
      simp only [Option.map_some, fracPart_append h, expPart_append h]

end Stops

/-! ## Integers -/

theorem isDigit_of_asciiDigit {c : CodePoint} (h : IsAsciiDigit c) : isDigit c = true := by
  rw [isDigit, Bool.and_eq_true, decide_eq_true_eq, decide_eq_true_eq]
  exact h

theorem intPart_strOfNat (n : Nat) : intPart (strOfNat n) = some (strOfNat n, []) := by
  by_cases hn : n = 0
  · subst hn
    rfl
  · obtain ⟨c, rest, hsplit⟩ := List.exists_cons_of_ne_nil (strOfNat_ne_nil n)
    have hdigits : ∀ d ∈ c :: rest, isDigit d = true := by
      intro d hd
      rw [← hsplit] at hd
      exact isDigit_of_asciiDigit (mem_strOfNat hd)
    have hzero : c ≠ ofChar '0' := by
      intro hc
      have hhead : (strOfNat n).head? = some c := by
        rw [hsplit]
        rfl
      rw [strOfNat, if_neg hn, List.head?_reverse, List.getLast?_map] at hhead
      have hne : Nat.digits 10 n ≠ [] := Nat.digits_ne_nil_iff_ne_zero.mpr hn
      rw [List.getLast?_eq_some_getLast hne, Option.map_some, hc] at hhead
      have hlast := Nat.getLast_digit_ne_zero 10 hn
      have hlt : (Nat.digits 10 n).getLast hne < 10 :=
        Nat.digits_lt_base (by decide) (List.getLast_mem hne)
      have hval := congrArg Fin.val (Option.some.inj hhead)
      have hdigit : ∀ d : Nat, (digit d).val = 0x30 + d % 10 := fun d => rfl
      rw [hdigit, Nat.mod_eq_of_lt hlt] at hval
      have hzeroval : (ofChar '0').val = 0x30 := rfl
      omega
    have hrest := (List.forall_mem_cons.mp hdigits).2
    rw [hsplit, intPart, if_neg hzero, if_pos (hdigits c List.mem_cons_self),
      List.takeWhile_eq_self_iff.mpr hrest, List.dropWhile_eq_nil_iff.mpr hrest]

theorem signPart_of_head {s : Text} {c : CodePoint} {rest : Text} (h : s = c :: rest)
    (hc : isDigit c = true) : signPart s = ([], s) := by
  subst h
  have hsign : c ≠ ofChar '-' := by
    rintro rfl
    cases hc
  rw [signPart, if_neg hsign]

theorem matchNumber_strOfInt (n : Int) :
    matchNumber (strOfInt n) = some (strOfInt n, false, []) := by
  have hwhole := intPart_strOfNat n.natAbs
  rw [strOfInt]
  split
  · rw [matchNumber, signPart, if_pos rfl, hwhole]
    simp [fracPart, expPart]
  · obtain ⟨c, rest, hsplit⟩ := List.exists_cons_of_ne_nil (strOfNat_ne_nil n.natAbs)
    have hdigit : isDigit c = true := by
      apply isDigit_of_asciiDigit
      apply mem_strOfNat (n := n.natAbs)
      rw [hsplit]
      exact List.mem_cons_self
    rw [matchNumber, signPart_of_head hsplit hdigit, hwhole]
    simp [fracPart, expPart]

/-- A number begins with a digit, or with a minus and a digit. -/
theorem number_head {s : Text} {number : Text × Bool × Text} (h : matchNumber s = some number) :
    ∃ c rest, isDigit c = true ∧ (s = c :: rest ∨ s = ofChar '-' :: c :: rest) := by
  obtain ⟨whole, hwhole, -⟩ := Option.map_eq_some_iff.mp h
  have hdigit : ∃ c rest, isDigit c = true ∧ (signPart s).2 = c :: rest := by
    cases hs : (signPart s).2 with
    | nil =>
        rw [hs] at hwhole
        cases hwhole
    | cons c rest =>
        refine ⟨c, rest, ?_, rfl⟩
        rw [hs, intPart] at hwhole
        split at hwhole
        · next hzero =>
            rw [hzero]
            decide
        · split at hwhole
          · next hc => exact hc
          · cases hwhole
  obtain ⟨c, rest, hc, htail⟩ := hdigit
  refine ⟨c, rest, hc, ?_⟩
  cases s with
  | nil => cases htail
  | cons d s =>
      rw [signPart] at htail
      split at htail
      · next hminus =>
          rw [hminus]
          exact .inr (congrArg _ htail)
      · exact .inl htail

/-! ## Names -/

/-- A text that no number begins with. -/
def isName : Text → Bool
  | c :: d :: _ => !isDigit c && (c ≠ ofChar '-' || !isDigit d)
  | _ => false

section Names

variable (floats : Floats φ)

theorem isName_of_mem {name : Text × Value φ} (h : name ∈ names floats) : isName name.1 = true := by
  have htexts : (names floats).map Prod.fst =
      [text "null", text "true", text "false"] ++ constants := rfl
  have hmem : name.1 ∈ [text "null", text "true", text "false"] ++ constants := by
    rw [← htexts]
    exact List.mem_map_of_mem h
  exact List.all_eq_true.mp
    (show ([text "null", text "true", text "false"] ++ constants).all isName = true by decide)
    _ hmem

/-- A number is no name. -/
theorem scanName_number {s : Text} {number : Text × Bool × Text}
    (h : matchNumber s = some number) : scanName floats s = none := by
  rw [scanName, List.findSome?_eq_none_iff]
  intro name hname
  rw [Option.map_eq_none_iff, Option.eq_none_iff_forall_ne_some]
  intro behind hprefix
  have hsplit := append_of_isPrefixOf? hprefix
  have hisName := isName_of_mem floats hname
  obtain ⟨c, rest, hc, hs⟩ := number_head h
  match name.1, hisName, hsplit with
  | a :: b :: _, hisName, hsplit =>
      simp only [isName, Bool.and_eq_true, Bool.not_eq_true', Bool.or_eq_true,
        decide_eq_true_eq] at hisName
      rw [hsplit] at hs
      rcases hs with hs | hs
      · cases hs
        rw [hc] at hisName
        cases hisName.1
      · cases hs
        rw [hc] at hisName
        rcases hisName.2 with hminus | hfalse
        · exact hminus rfl
        · cases hfalse

theorem scanName_constant {name : Text} (h : name ∈ constants) (rest : Text) :
    scanName floats (name ++ rest) = some (.float (floats.parse name), rest) := by
  simp only [constants, List.mem_cons, List.not_mem_nil, or_false] at h
  rcases h with rfl | rfl | rfl <;> rfl

theorem scan_name {s rest : Text} {v : Value φ} {c : CodePoint} {tail : Text} (hs : s = c :: tail)
    (hc : c ≠ quote ∧ c ≠ ofChar '[' ∧ c ≠ ofChar '\x7b')
    (h : scanName floats s = some (v, rest)) (fuel : Nat) :
    scan floats (fuel + 1) s = some (v, rest) := by
  subst hs
  rw [scan, if_neg hc.1, if_neg hc.2.1, if_neg hc.2.2, h]
  rfl

theorem ne_of_isDigit {c : CodePoint} (h : isDigit c = true) :
    c ≠ quote ∧ c ≠ ofChar '[' ∧ c ≠ ofChar '\x7b' := by
  refine ⟨?_, ?_, ?_⟩
  all_goals
    rintro rfl
    cases h

theorem scan_number {s : Text} {number : Text × Bool × Text} (h : matchNumber s = some number)
    (fuel : Nat) : scan floats (fuel + 1) s = scanNumber floats s := by
  have hname := scanName_number floats h
  obtain ⟨c, rest, hc, rfl | rfl⟩ := number_head h
  · obtain ⟨hquote, hbracket, hbrace⟩ := ne_of_isDigit hc
    rw [scan, if_neg hquote, if_neg hbracket, if_neg hbrace, hname, Option.none_or]
  · have hminus : ofChar '-' ≠ quote ∧ ofChar '-' ≠ ofChar '[' ∧ ofChar '-' ≠ ofChar '\x7b' := by
      decide
    rw [scan, if_neg hminus.1, if_neg hminus.2.1, if_neg hminus.2.2, hname, Option.none_or]

theorem scan_int {n : Int} (short : (strOfNat n.natAbs).length ≤ maxStrDigits) {rest : Text}
    (stop : Stops rest) (fuel : Nat) :
    scan floats (fuel + 1) (strOfInt n ++ rest) = some (.int n, rest) := by
  have hmatch : matchNumber (strOfInt n ++ rest) = some (strOfInt n, false, rest) := by
    rw [matchNumber_append stop, matchNumber_strOfInt]
    rfl
  rw [scan_number floats hmatch, scanNumber, hmatch, Option.bind_some]
  show (intOfText (strOfInt n)).map _ = _
  rw [intOfText_strOfInt short]
  rfl

theorem scan_float (x : φ) {rest : Text} (stop : Stops rest) (fuel : Nat) :
    scan floats (fuel + 1) (floats.repr x ++ rest) = some (.float x, rest) := by
  rcases floats.repr_form x with hconstant | hnumber
  · have hname := scanName_constant floats hconstant rest
    rw [floats.parse_repr] at hname
    simp only [constants, List.mem_cons, List.not_mem_nil, or_false] at hconstant
    rcases hconstant with h | h | h
    all_goals
      rw [h] at hname ⊢
      exact scan_name floats rfl (by decide) hname fuel
  · have hmatch : matchNumber (floats.repr x ++ rest) = some (floats.repr x, true, rest) := by
      rw [matchNumber_append stop, hnumber]
      rfl
    rw [scan_number floats hmatch, scanNumber, hmatch, Option.bind_some, if_pos rfl]
    show some (Value.float (floats.parse (floats.repr x)), rest) = _
    rw [floats.parse_repr]

end Names

/-! ## White space -/

/-- The first character of a value. -/
def starts (c : CodePoint) : Bool :=
  !isSpace c && c ≠ ofChar ']' && c ≠ ofChar '\x7d'

theorem skip_cons {c : CodePoint} (hc : isSpace c = false) (rest : Text) :
    skip (c :: rest) = c :: rest := by
  rw [skip, List.dropWhile_cons, hc]
  rfl

theorem skip_newline (indent : Option Nat) (level : Nat) (s : Text) :
    skip (newline indent level ++ s) = skip s := by
  cases indent with
  | none => rfl
  | some width =>
      have hspaces : ∀ n, skip (List.replicate n (ofChar ' ') ++ s) = skip s := by
        intro n
        induction n with
        | zero => rfl
        | succ n ih => exact ih
      exact hspaces _

theorem next_newline {c : CodePoint} (hc : isSpace c = false) (indent : Option Nat) (level : Nat)
    (rest : Text) : next (newline indent level ++ c :: rest) = some (c, rest) := by
  rw [next, skip_newline, skip_cons hc]

theorem isSpace_of_starts {c : CodePoint} (h : starts c = true) : isSpace c = false := by
  simp only [starts, Bool.and_eq_true, Bool.not_eq_true'] at h
  exact h.1.1

theorem starts_of_isDigit {c : CodePoint} (h : isDigit c = true) : starts c = true := by
  simp only [starts, isSpace, Bool.and_eq_true, Bool.not_eq_true', Bool.or_eq_false_iff,
    decide_eq_true_eq, decide_eq_false_iff_not]
  refine ⟨⟨⟨⟨⟨?_, ?_⟩, ?_⟩, ?_⟩, ?_⟩, ?_⟩
  all_goals
    rintro rfl
    cases h

theorem starts_number {s : Text} {number : Text × Bool × Text} (h : matchNumber s = some number) :
    ∃ c rest, s = c :: rest ∧ starts c = true := by
  obtain ⟨c, rest, hc, rfl | rfl⟩ := number_head h
  · exact ⟨c, rest, rfl, starts_of_isDigit hc⟩
  · exact ⟨ofChar '-', c :: rest, rfl, by decide⟩

theorem starts_encode (floats : Floats φ) (indent : Option Nat) (level : Nat) (v : Value φ) :
    ∃ c rest, encode floats indent level v = c :: rest ∧ starts c = true := by
  cases v with
  | null => exact ⟨_, _, rfl, by decide⟩
  | bool b => cases b <;> exact ⟨_, _, rfl, by decide⟩
  | int n => exact starts_number (matchNumber_strOfInt n)
  | float x =>
      rcases floats.repr_form x with hconstant | hnumber
      · simp only [constants, List.mem_cons, List.not_mem_nil, or_false] at hconstant
        rw [encode]
        rcases hconstant with h | h | h
        all_goals exact ⟨_, _, h, by decide⟩
      · exact starts_number hnumber
  | str s => exact ⟨_, _, rfl, by decide⟩
  | list vs => cases vs <;> exact ⟨_, _, rfl, by decide⟩
  | dict es => cases es <;> exact ⟨_, _, rfl, by decide⟩

/-! ## Dictionaries -/

section Dictionaries

variable {α : Type}

theorem setItem_of_not_mem {key : Text} {value : α} {es : List (Text × α)}
    (h : key ∉ es.map Prod.fst) : setItem key value es = es ++ [(key, value)] := by
  induction es with
  | nil => rfl
  | cons e es ih =>
      rw [List.map_cons, List.mem_cons, not_or] at h
      rw [setItem, if_neg fun heq => h.1 heq.symm, ih h.2, List.cons_append]

/-- Pairs with different keys are a dictionary already. -/
theorem dictOf_of_nodup {pairs : List (Text × α)} (h : (pairs.map Prod.fst).Nodup) :
    dictOf pairs = pairs := by
  have hfold : ∀ (es : List (Text × α)), ((es ++ pairs).map Prod.fst).Nodup →
      pairs.foldl (fun es e => setItem e.1 e.2 es) es = es ++ pairs := by
    clear h
    induction pairs with
    | nil =>
        intro es _
        rw [List.append_nil, List.foldl_nil]
    | cons e pairs ih =>
        intro es hnodup
        have hnew : e.1 ∉ es.map Prod.fst := by
          rw [List.map_append, List.nodup_append] at hnodup
          intro hmem
          exact hnodup.2.2 _ hmem _ (List.mem_map_of_mem List.mem_cons_self) rfl
        have hsplit : es ++ [e] ++ pairs = es ++ e :: pairs := List.append_cons es e pairs |>.symm
        rw [List.foldl_cons, setItem_of_not_mem hnew, ih (es ++ [e]) (by rwa [hsplit]), hsplit]
  exact hfold [] h

theorem keys_setItem (key : Text) (value : α) (es : List (Text × α)) :
    (setItem key value es).map Prod.fst =
      if key ∈ es.map Prod.fst then es.map Prod.fst else es.map Prod.fst ++ [key] := by
  induction es with
  | nil => rfl
  | cons e es ih =>
      rw [setItem]
      by_cases heq : e.1 = key
      · simp [heq]
      · rw [if_neg heq, List.map_cons, ih, List.map_cons]
        have hmem : key ∈ e.1 :: es.map Prod.fst ↔ key ∈ es.map Prod.fst := by
          rw [List.mem_cons]
          exact or_iff_right fun hkey => heq hkey.symm
        split <;> simp_all

theorem mem_setItem {key : Text} {value : α} {es : List (Text × α)} {e : Text × α}
    (h : e ∈ setItem key value es) : e = (key, value) ∨ e ∈ es := by
  induction es with
  | nil => exact .inl (List.mem_singleton.mp h)
  | cons d es ih =>
      rw [setItem] at h
      split at h
      · exact (List.mem_cons.mp h).imp_right (List.mem_cons_of_mem _)
      · rcases List.mem_cons.mp h with rfl | h
        · exact .inr List.mem_cons_self
        · exact (ih h).imp_right (List.mem_cons_of_mem _)

theorem mem_dictOf {pairs : List (Text × α)} {e : Text × α} (h : e ∈ dictOf pairs) :
    e ∈ pairs := by
  have hfold : ∀ es : List (Text × α),
      e ∈ pairs.foldl (fun es e => setItem e.1 e.2 es) es → e ∈ es ∨ e ∈ pairs := by
    clear h
    induction pairs with
    | nil => exact fun _ h => .inl h
    | cons d pairs ih =>
        intro es h
        rcases ih _ h with h | h
        · exact (mem_setItem h).elim (fun heq => .inr (heq ▸ List.mem_cons_self)) .inl
        · exact .inr (List.mem_cons_of_mem _ h)
  exact (hfold [] h).resolve_left List.not_mem_nil

theorem lookup_setItem (key key' : Text) (value : α) (es : List (Text × α)) :
    (setItem key value es).lookup key' = if key' = key then some value else es.lookup key' := by
  induction es with
  | nil =>
      rw [setItem, List.lookup_cons]
      by_cases heq : key' = key
      · rw [if_pos heq, beq_iff_eq.mpr heq]
      · rw [if_neg heq, beq_eq_false_iff_ne.mpr heq]
  | cons e es ih =>
      rw [setItem]
      by_cases hkey : e.1 = key
      · rw [if_pos hkey, List.lookup_cons, List.lookup_cons, hkey]
        by_cases heq : key' = key
        · rw [if_pos heq, beq_iff_eq.mpr heq]
        · rw [if_neg heq, beq_eq_false_iff_ne.mpr heq]
      · rw [if_neg hkey, List.lookup_cons, List.lookup_cons, ih]
        by_cases heq : key' = key
        · have hne : key' ≠ e.1 := fun h => hkey (h.symm.trans heq)
          rw [beq_eq_false_iff_ne.mpr hne, if_pos heq]
        · rw [if_neg heq, if_neg heq]

/-- Only the last of two values under one key stays. -/
theorem setItem_setItem (key : Text) (value value' : α) (es : List (Text × α)) :
    setItem key value (setItem key value' es) = setItem key value es := by
  induction es with
  | nil => exact if_pos rfl
  | cons e es ih =>
      rw [setItem, setItem]
      split
      · rw [setItem, if_pos rfl]
      · next hne => rw [setItem, if_neg hne, ih]

/-- A key that has the value already keeps the dictionary as it is. -/
theorem setItem_self {key : Text} {value : α} {es : List (Text × α)}
    (h : es.lookup key = some value) : setItem key value es = es := by
  induction es with
  | nil => cases h
  | cons e es ih =>
      rw [List.lookup_cons] at h
      rw [setItem]
      by_cases hkey : e.1 = key
      · rw [beq_iff_eq.mpr hkey.symm] at h
        have hvalue : e.2 = value := Option.some.inj h
        rw [if_pos hkey, ← hkey, ← hvalue]
      · rw [beq_eq_false_iff_ne.mpr (Ne.symm hkey)] at h
        rw [if_neg hkey, ih h]

theorem nodup_setItem {es : List (Text × α)} (h : (es.map Prod.fst).Nodup) (key : Text)
    (value : α) : ((setItem key value es).map Prod.fst).Nodup := by
  rw [keys_setItem]
  split
  · exact h
  · next hnew =>
      refine List.nodup_append.mpr ⟨h, List.nodup_singleton _, ?_⟩
      rintro a ha b hb rfl
      exact hnew (List.mem_singleton.mp hb ▸ ha)

/-- No key is twice in a dictionary. -/
theorem nodup_dictOf (pairs : List (Text × α)) : ((dictOf pairs).map Prod.fst).Nodup := by
  have hfold : ∀ es : List (Text × α), (es.map Prod.fst).Nodup →
      ((pairs.foldl (fun es e => setItem e.1 e.2 es) es).map Prod.fst).Nodup := by
    induction pairs with
    | nil => exact fun _ h => h
    | cons e pairs ih => exact fun es h => ih _ (nodup_setItem h e.1 e.2)
  exact hfold [] List.nodup_nil

end Dictionaries

/-! ## Everywhere in a value -/

mutual

theorem Value.all_mono {p q : Value φ → Bool} (h : ∀ v, p v = true → q v = true) :
    ∀ v : Value φ, v.all p = true → v.all q = true
  | .null, hp => h _ hp
  | .bool _, hp => h _ hp
  | .int _, hp => h _ hp
  | .float _, hp => h _ hp
  | .str _, hp => h _ hp
  | .list vs, hp => by
      rw [Value.all, Bool.and_eq_true] at hp ⊢
      exact ⟨h _ hp.1, Value.allElements_mono h vs hp.2⟩
  | .dict es, hp => by
      rw [Value.all, Bool.and_eq_true] at hp ⊢
      exact ⟨h _ hp.1, Value.allEntries_mono h es hp.2⟩

theorem Value.allElements_mono {p q : Value φ → Bool} (h : ∀ v, p v = true → q v = true) :
    ∀ vs : List (Value φ), Value.allElements p vs = true → Value.allElements q vs = true
  | [], _ => rfl
  | v :: vs, hp => by
      rw [Value.allElements, Bool.and_eq_true] at hp ⊢
      exact ⟨Value.all_mono h v hp.1, Value.allElements_mono h vs hp.2⟩

theorem Value.allEntries_mono {p q : Value φ → Bool} (h : ∀ v, p v = true → q v = true) :
    ∀ es : List (Text × Value φ), Value.allEntries p es = true → Value.allEntries q es = true
  | [], _ => rfl
  | (_, v) :: es, hp => by
      rw [Value.allEntries, Bool.and_eq_true] at hp ⊢
      exact ⟨Value.all_mono h v hp.1, Value.allEntries_mono h es hp.2⟩

end

theorem Value.allElements_iff {p : Value φ → Bool} {vs : List (Value φ)} :
    Value.allElements p vs = true ↔ ∀ v ∈ vs, v.all p = true := by
  induction vs with
  | nil => exact iff_of_true rfl fun _ h => absurd h List.not_mem_nil
  | cons v vs ih => rw [Value.allElements, Bool.and_eq_true, ih, List.forall_mem_cons]

theorem Value.allEntries_iff {p : Value φ → Bool} {es : List (Text × Value φ)} :
    Value.allEntries p es = true ↔ ∀ e ∈ es, e.2.all p = true := by
  induction es with
  | nil => exact iff_of_true rfl fun _ h => absurd h List.not_mem_nil
  | cons e es ih => rw [Value.allEntries, Bool.and_eq_true, ih, List.forall_mem_cons]

theorem regular_int {n : Int} (h : (strOfNat n.natAbs).length ≤ maxStrDigits) :
    (Value.int n : Value φ).Regular :=
  (Bool.and_eq_true _ _).mpr ⟨decide_eq_true h, rfl⟩

theorem regular_str {s : Text} (h : Joined s) : (Value.str s : Value φ).Regular :=
  (Bool.and_eq_true _ _).mpr ⟨rfl, decide_eq_true h⟩

theorem regular_list {vs : List (Value φ)} (h : ∀ v ∈ vs, v.Regular) :
    (Value.list vs).Regular :=
  (Bool.and_eq_true _ _).mpr ⟨rfl, Value.allElements_iff.mpr h⟩

theorem regular_dict {es : List (Text × Value φ)} (hnodup : (es.map Prod.fst).Nodup)
    (h : ∀ e ∈ es, Joined e.1 ∧ e.2.Regular) : (Value.dict es).Regular := by
  have hplain : (Value.dict es).isPlain = true := decide_eq_true ⟨hnodup, fun e he => (h e he).1⟩
  refine (Bool.and_eq_true _ _).mpr ⟨(Bool.and_eq_true _ _).mpr ⟨rfl, hplain⟩, ?_⟩
  exact Value.allEntries_iff.mpr fun e he => (h e he).2

theorem isShort_of_regular {v : Value φ} (h : v.Regular) : v.all Value.isShort = true :=
  Value.all_mono (fun _ hw => ((Bool.and_eq_true _ _).mp hw).1) v h

/-! ## The characters of a text -/

/-- `p` is a number or a part of one, and what stands behind it. -/
def Takes (s : Text) (p : Text × Text) : Prop := s = p.1 ++ p.2 ∧ ∀ c ∈ p.1, stops c = false

section Takes

variable {s t rest : Text}

theorem Takes.nil (s : Text) : Takes s ([], s) := ⟨rfl, fun _ h => absurd h List.not_mem_nil⟩

theorem Takes.append {p q : Text × Text} (hp : Takes s p) (hq : Takes p.2 q) :
    Takes s (p.1 ++ q.1, q.2) := by
  refine ⟨?_, fun c hc => (List.mem_append.mp hc).elim (hp.2 c) (hq.2 c)⟩
  have hrest : p.2 = q.1 ++ q.2 := hq.1
  rw [List.append_assoc, ← hrest]
  exact hp.1

theorem Takes.cons {c : CodePoint} (hc : stops c = false) (h : Takes s (t, rest)) :
    Takes (c :: s) (c :: t, rest) := by
  refine ⟨?_, fun d hd => ?_⟩
  · exact congrArg (c :: ·) h.1
  · rcases List.mem_cons.mp hd with rfl | hd
    · exact hc
    · exact h.2 d hd

theorem stops_of_isDigit {c : CodePoint} (h : isDigit c = true) : stops c = false := by
  apply eq_false_of_ne_true
  intro hstops
  rw [isDigit_of_stops hstops] at h
  cases h

theorem takes_digits (s : Text) : Takes s (s.takeWhile isDigit, s.dropWhile isDigit) :=
  ⟨List.takeWhile_append_dropWhile.symm, fun _ hc => stops_of_isDigit (List.mem_takeWhile_imp hc)⟩

theorem takes_signPart (s : Text) : Takes s (signPart s) := by
  cases s with
  | nil => exact Takes.nil []
  | cons c s =>
      rw [signPart]
      split
      · next hminus =>
          rw [hminus]
          exact (Takes.nil s).cons (by decide)
      · exact Takes.nil _

theorem takes_intPart {whole : Text × Text} (h : intPart s = some whole) : Takes s whole := by
  cases s with
  | nil => cases h
  | cons c s =>
      rw [intPart] at h
      split at h
      · next hzero =>
          cases h
          rw [hzero]
          exact (Takes.nil s).cons (by decide)
      · split at h
        · next hdigit =>
            cases h
            exact (takes_digits s).cons (stops_of_isDigit hdigit)
        · cases h

theorem takes_fracPart (s : Text) : Takes s (fracPart s) := by
  match s with
  | [] => exact Takes.nil _
  | [_] => exact Takes.nil _
  | point :: d :: s =>
      rw [fracPart]
      split
      · next hfrac =>
          rw [hfrac.1]
          exact ((takes_digits s).cons (stops_of_isDigit hfrac.2)).cons (by decide)
      · exact Takes.nil _

theorem takes_expDigits (front : Text) (hfront : ∀ c ∈ front, stops c = false) (s : Text) :
    Takes (front ++ s) (expDigits front (front ++ s) s) := by
  cases s with
  | nil => exact Takes.nil _
  | cons d s =>
      rw [expDigits]
      split
      · next hdigit =>
          have hstart : Takes (front ++ d :: s) (front, d :: s) := ⟨rfl, hfront⟩
          exact hstart.append ((takes_digits s).cons (stops_of_isDigit hdigit))
      · exact Takes.nil _

theorem takes_expPart (s : Text) : Takes s (expPart s) := by
  match s with
  | [] => exact Takes.nil _
  | [_] => exact Takes.nil _
  | e :: sign :: s =>
      rw [expPart]
      split
      · next he =>
          have hfirst : stops e = false := by
            rcases he with rfl | rfl
            · decide
            · decide
          split
          · next hsign =>
              have hsecond : stops sign = false := by
                rcases hsign with rfl | rfl
                · decide
                · decide
              refine takes_expDigits [e, sign] ?_ s
              rw [List.forall_mem_cons, List.forall_mem_singleton]
              exact ⟨hfirst, hsecond⟩
          · exact takes_expDigits [e] (List.forall_mem_singleton.mpr hfirst) (sign :: s)
      · exact Takes.nil _

theorem takes_matchNumber {b : Bool} (h : matchNumber s = some (t, b, rest)) :
    Takes s (t, rest) := by
  obtain ⟨whole, hwhole, h⟩ := Option.map_eq_some_iff.mp h
  obtain ⟨rfl, hrest⟩ := Prod.mk.inj h
  obtain ⟨-, rfl⟩ := Prod.mk.inj hrest
  have hfrac := (takes_fracPart whole.2).append (takes_expPart (fracPart whole.2).2)
  have hint := (takes_intPart hwhole).append hfrac
  exact (takes_signPart s).append hint

end Takes

theorem printable_of_stops {c : CodePoint} (h : stops c = false) : Printable c := by
  by_contra hprintable
  have hne : ∀ d : CodePoint, Printable d → c ≠ d := by
    rintro d hd rfl
    exact hprintable hd
  have hdigit : isDigit c = false := by
    apply eq_false_of_ne_true
    intro hdigit
    rw [isDigit, Bool.and_eq_true, decide_eq_true_eq, decide_eq_true_eq] at hdigit
    exact hprintable ⟨by omega, by omega⟩
  have hstops : stops c = true := by
    simp only [stops, hdigit, Bool.and_eq_true, decide_eq_true_eq, Bool.not_false, true_and]
    exact ⟨⟨⟨⟨hne _ (by decide), hne _ (by decide)⟩, hne _ (by decide)⟩, hne _ (by decide)⟩,
      hne _ (by decide)⟩
  rw [h] at hstops
  cases hstops

theorem printable_repr (floats : Floats φ) (x : φ) : ∀ c ∈ floats.repr x, Printable c := by
  intro c hc
  rcases floats.repr_form x with hconstant | hnumber
  · have hall : constants.all (fun name => name.all fun c => Printable c) = true := by decide
    have hname := List.all_eq_true.mp hall _ hconstant
    exact of_decide_eq_true (List.all_eq_true.mp hname c hc)
  · exact printable_of_stops ((takes_matchNumber hnumber).2 c hc)

theorem printable_strOfInt (n : Int) : ∀ c ∈ strOfInt n, Printable c := by
  intro c hc
  rcases mem_strOfInt hc with rfl | hdigit
  · decide
  · obtain ⟨hlow, hhigh⟩ := hdigit
    exact ⟨by omega, by omega⟩

/-- A character of a JSON text: printable ASCII, or a newline where there is an `indent`. -/
def Written (indent : Option Nat) (c : CodePoint) : Prop :=
  Printable c ∨ indent.isSome ∧ c = ofChar '\n'

section Written

variable (floats : Floats φ) (indent : Option Nat)

theorem written_newline (level : Nat) : ∀ c ∈ newline indent level, Written indent c := by
  intro c hc
  cases indent with
  | none => cases hc
  | some width =>
      rcases List.mem_cons.mp hc with rfl | hc
      · exact .inr ⟨rfl, rfl⟩
      · rw [List.eq_of_mem_replicate hc]
        exact .inl (by decide)

theorem written_separator (level : Nat) : ∀ c ∈ separator indent level, Written indent c := by
  intro c hc
  cases indent with
  | none =>
      rcases List.mem_pair.mp hc with rfl | rfl
      · exact .inl (by decide)
      · exact .inl (by decide)
  | some width =>
      rcases List.mem_cons.mp hc with rfl | hc
      · exact .inl (by decide)
      · exact written_newline (some width) level c hc

theorem written_text {s : Text} (h : s.all (fun c => Printable c) = true) :
    ∀ c ∈ s, Written indent c :=
  fun c hc => .inl (of_decide_eq_true (List.all_eq_true.mp h c hc))

theorem written_append {s t : Text} (hs : ∀ c ∈ s, Written indent c)
    (ht : ∀ c ∈ t, Written indent c) : ∀ c ∈ s ++ t, Written indent c :=
  fun c hc => (List.mem_append.mp hc).elim (hs c) (ht c)

theorem written_cons {d : CodePoint} {t : Text} (hd : Printable d)
    (ht : ∀ c ∈ t, Written indent c) : ∀ c ∈ d :: t, Written indent c :=
  List.forall_mem_cons.mpr ⟨.inl hd, ht⟩

theorem written_close {d : CodePoint} (hd : Printable d) (level : Nat) :
    ∀ c ∈ newline indent level ++ [d], Written indent c :=
  written_append indent (written_newline indent level) (List.forall_mem_singleton.mpr (.inl hd))

mutual

theorem written_encode : ∀ (v : Value φ) (level : Nat),
    ∀ c ∈ encode floats indent level v, Written indent c
  | .null, level => by
      rw [encode]
      exact written_text indent (by decide)
  | .bool true, level => by
      rw [encode]
      exact written_text indent (by decide)
  | .bool false, level => by
      rw [encode]
      exact written_text indent (by decide)
  | .int n, level => by
      rw [encode]
      exact fun c hc => .inl (printable_strOfInt n c hc)
  | .float x, level => by
      rw [encode]
      exact fun c hc => .inl (printable_repr floats x c hc)
  | .str s, level => by
      rw [encode]
      exact fun c hc => .inl (printable_encodeString s c hc)
  | .list [], level => by
      rw [encode]
      exact written_text indent (by decide)
  | .list (v :: vs), level => by
      rw [encode]
      refine written_cons indent (by decide) ?_
      refine written_append indent (written_newline indent _) ?_
      exact written_append indent (written_encodeElements (v :: vs) _)
        (written_close indent (by decide) level)
  | .dict [], level => by
      rw [encode]
      exact written_text indent (by decide)
  | .dict (e :: es), level => by
      rw [encode]
      refine written_cons indent (by decide) ?_
      refine written_append indent (written_newline indent _) ?_
      exact written_append indent (written_encodeEntries (e :: es) _)
        (written_close indent (by decide) level)

theorem written_encodeElements : ∀ (vs : List (Value φ)) (level : Nat),
    ∀ c ∈ encodeElements floats indent level vs, Written indent c
  | [], level => by
      rw [encodeElements]
      exact fun c hc => absurd hc List.not_mem_nil
  | [v], level => by
      rw [encodeElements]
      exact written_encode v level
  | v :: w :: ws, level => by
      rw [encodeElements]
      refine written_append indent (written_encode v level) ?_
      exact written_append indent (written_separator indent level)
        (written_encodeElements (w :: ws) level)

theorem written_encodeEntries : ∀ (es : List (Text × Value φ)) (level : Nat),
    ∀ c ∈ encodeEntries floats indent level es, Written indent c
  | [], level => by
      rw [encodeEntries]
      exact fun c hc => absurd hc List.not_mem_nil
  | [(key, v)], level => by
      rw [encodeEntries]
      refine written_append indent (fun c hc => .inl (printable_encodeString key c hc)) ?_
      exact written_cons indent (by decide)
        (written_cons indent (by decide) (written_encode v level))
  | (key, v) :: e :: es, level => by
      rw [encodeEntries]
      refine written_append indent (fun c hc => .inl (printable_encodeString key c hc)) ?_
      refine written_cons indent (by decide) (written_cons indent (by decide) ?_)
      refine written_append indent (written_encode v level) ?_
      exact written_append indent (written_separator indent level)
        (written_encodeEntries (e :: es) level)

end

/-- `json.dumps` writes printable ASCII, in one line if there is no `indent`. -/
theorem written_dumps {v : Value φ} {s : Text} (h : dumps floats indent v = some s) :
    ∀ c ∈ s, Written indent c := by
  rw [dumps] at h
  split at h
  · cases h
    exact written_encode floats indent v 0
  · cases h

end Written

/-! ## The round trip -/

section RoundTrip

variable (floats : Floats φ) (indent : Option Nat)

/-- A comma, and white space that is skipped. -/
theorem separator_eq (level : Nat) : ∃ blank, separator indent level = ofChar ',' :: blank ∧
    ∀ s, skip (blank ++ s) = skip s := by
  cases indent with
  | none => exact ⟨[ofChar ' '], rfl, fun _ => rfl⟩
  | some width => exact ⟨newline (some width) level, rfl, skip_newline _ level⟩

theorem stops_newline {c : CodePoint} (hc : stops c = true) (level : Nat) (rest : Text) :
    Stops (newline indent level ++ c :: rest) := by
  cases indent with
  | none => exact stops_cons hc rest
  | some width => exact stops_cons (by decide) _

theorem skip_encode (level : Nat) (v : Value φ) (rest : Text) :
    skip (encode floats indent level v ++ rest) = encode floats indent level v ++ rest := by
  obtain ⟨c, tail, hsplit, hc⟩ := starts_encode floats indent level v
  rw [hsplit, List.cons_append, skip_cons (isSpace_of_starts hc)]

/-- A list is not empty if it does not go on with a bracket. -/
theorem starts_encodeElements (level : Nat) (v : Value φ) (vs : List (Value φ)) :
    ∃ c rest, encodeElements floats indent level (v :: vs) = c :: rest ∧ starts c = true := by
  obtain ⟨c, tail, hsplit, hc⟩ := starts_encode floats indent level v
  cases vs with
  | nil => exact ⟨c, tail, hsplit, hc⟩
  | cons w ws =>
      rw [encodeElements, hsplit]
      exact ⟨c, _, rfl, hc⟩

theorem encodeEntries_cons (level : Nat) (key : Text) (v : Value φ)
    (es : List (Text × Value φ)) : ∃ tail, encodeEntries floats indent level ((key, v) :: es) =
      quote :: (key.flatMap escapeChar ++ quote :: ofChar ':' :: ofChar ' ' ::
        (encode floats indent level v ++ tail)) ∧
      tail = if es = [] then [] else separator indent level ++
        encodeEntries floats indent level es := by
  cases es with
  | nil =>
      refine ⟨[], ?_, rfl⟩
      rw [encodeEntries, encodeString]
      simp
  | cons e es =>
      refine ⟨_, ?_, rfl⟩
      rw [encodeEntries, encodeString, if_neg (List.cons_ne_nil e es)]
      simp

theorem skip_encodeEntries (level : Nat) (e : Text × Value φ) (es : List (Text × Value φ))
    (rest : Text) : skip (encodeEntries floats indent level (e :: es) ++ rest) =
      encodeEntries floats indent level (e :: es) ++ rest := by
  obtain ⟨tail, hsplit, -⟩ := encodeEntries_cons floats indent level e.1 e.2 es
  rw [hsplit]
  rfl

/-- The key of a pair and its value are read, whatever stands behind them. -/
theorem scanEntries_pair {key tail rest : Text} {v : Value φ} {fuel : Nat} (hkey : Joined key)
    (hfuel : (key.flatMap escapeChar).length < fuel) (hskip : skip tail = tail)
    (hvalue : scan floats fuel tail = some (v, rest)) :
    scanEntries floats (fuel + 1) (quote :: (key.flatMap escapeChar ++
        quote :: ofChar ':' :: ofChar ' ' :: tail)) =
      (next rest).bind fun behind =>
        if behind.1 = ofChar '\x7d' then some ([(key, v)], behind.2)
        else if behind.1 = ofChar ',' then
          (scanEntries floats fuel (skip behind.2)).map fun read => ((key, v) :: read.1, read.2)
        else none := by
  have hcolon : next (ofChar ':' :: ofChar ' ' :: tail) = some (ofChar ':', ofChar ' ' :: tail) :=
    rfl
  have hblank : skip (ofChar ' ' :: tail) = skip tail := rfl
  rw [scanEntries, if_pos rfl, scanString_encode hkey hfuel, Option.bind_some, hcolon,
    Option.bind_some, if_pos rfl, hblank, hskip, hvalue, Option.bind_some]

theorem length_encode_pos (level : Nat) (v : Value φ) :
    0 < (encode floats indent level v).length := by
  obtain ⟨c, tail, hsplit, -⟩ := starts_encode floats indent level v
  rw [hsplit]
  exact Nat.succ_pos _

mutual

/-- A value is read back from where it has been written. -/
theorem scan_encode : ∀ (v : Value φ) (level fuel : Nat) (rest : Text),
    v.all (fun w => w.isShort && w.isPlain) = true →
    (encode floats indent level v).length ≤ fuel → Stops rest →
      scan floats fuel (encode floats indent level v ++ rest) = some (v, rest)
  | v, level, 0, rest, _, hfuel, _ => by
      have hpos := length_encode_pos floats indent level v
      omega
  | .null, level, fuel + 1, rest, _, _, _ => rfl
  | .bool true, level, fuel + 1, rest, _, _, _ => rfl
  | .bool false, level, fuel + 1, rest, _, _, _ => rfl
  | .int n, level, fuel + 1, rest, hregular, _, hstop => by
      simp only [Value.all, Value.isShort, Bool.and_eq_true, decide_eq_true_eq] at hregular
      rw [encode]
      exact scan_int floats hregular.1 hstop fuel
  | .float x, level, fuel + 1, rest, _, _, hstop => by
      rw [encode]
      exact scan_float floats x hstop fuel
  | .str s, level, fuel + 1, rest, hregular, hfuel, _ => by
      simp only [Value.all, Value.isPlain, Bool.and_eq_true, decide_eq_true_eq] at hregular
      rw [encode, encodeString, List.length_cons, List.length_append] at hfuel
      have hscan := scanString_encode hregular.2 (Nat.lt_of_succ_lt_succ
        (Nat.lt_of_lt_of_le (Nat.lt_succ_self _) hfuel)) rest
      rw [encode, encodeString, List.cons_append, List.append_assoc, List.singleton_append, scan,
        if_pos rfl, hscan]
      rfl
  | .list [], level, fuel + 1, rest, _, _, _ => rfl
  | .list (v :: vs), level, fuel + 1, rest, hregular, hfuel, _ => by
      rw [Value.all, Bool.and_eq_true] at hregular
      rw [encode] at hfuel
      simp only [List.length_cons, List.length_append, List.length_nil] at hfuel
      have helements := scanElements_encode (v :: vs) (level + 1) fuel level rest
        (List.cons_ne_nil v vs) hregular.2 (by omega)
      obtain ⟨c, tail, hsplit, hc⟩ := starts_encodeElements floats indent (level + 1) v vs
      have hnext := next_newline (isSpace_of_starts hc) indent (level + 1)
        (tail ++ (newline indent level ++ ofChar ']' :: rest))
      have hbracket : c ≠ ofChar ']' := by
        simp only [starts, Bool.and_eq_true, decide_eq_true_eq] at hc
        exact hc.1.2
      rw [hsplit, List.cons_append] at helements
      rw [encode, hsplit]
      simp only [List.cons_append, List.append_assoc, List.nil_append, scan]
      rw [if_neg (by decide), if_pos trivial, hnext, Option.bind_some, if_neg hbracket, helements]
      rfl
  | .dict [], level, fuel + 1, rest, _, _, _ => rfl
  | .dict ((key, v) :: es), level, fuel + 1, rest, hregular, hfuel, _ => by
      rw [Value.all, Bool.and_eq_true] at hregular
      rw [encode] at hfuel
      simp only [List.length_cons, List.length_append, List.length_nil] at hfuel
      have hplain := hregular.1
      simp only [Value.isPlain, Bool.and_eq_true, decide_eq_true_eq] at hplain
      have hentries := scanEntries_encode ((key, v) :: es) (level + 1) fuel level rest
        (List.cons_ne_nil _ es) hplain.2.2 hregular.2 (by omega)
      obtain ⟨tail, hsplit, -⟩ := encodeEntries_cons floats indent (level + 1) key v es
      have hnext := next_newline (show isSpace quote = false by decide) indent (level + 1)
        (key.flatMap escapeChar ++ quote :: ofChar ':' :: ofChar ' ' ::
          (encode floats indent (level + 1) v ++ tail) ++
            (newline indent level ++ ofChar '\x7d' :: rest))
      rw [hsplit, List.cons_append] at hentries
      rw [encode, hsplit]
      simp only [List.cons_append, List.append_assoc, List.nil_append, scan] at hnext hentries ⊢
      rw [if_neg (by decide), if_neg (by decide), if_pos trivial, hnext, Option.bind_some,
        if_neg (show quote ≠ ofChar '\x7d' by decide), hentries, Option.map_some,
        dictOf_of_nodup hplain.2.1]

theorem scanElements_encode : ∀ (vs : List (Value φ)) (level fuel behind : Nat) (rest : Text),
    vs ≠ [] → Value.allElements (fun w => w.isShort && w.isPlain) vs = true →
    (encodeElements floats indent level vs).length + 1 ≤ fuel →
      scanElements floats fuel (encodeElements floats indent level vs ++
        (newline indent behind ++ ofChar ']' :: rest)) = some (vs, rest)
  | [], level, fuel, behind, rest, hne, _, _ => absurd rfl hne
  | _, level, 0, behind, rest, _, _, hfuel => by omega
  | [v], level, fuel + 1, behind, rest, _, hregular, hfuel => by
      rw [Value.allElements, Bool.and_eq_true] at hregular
      rw [encodeElements] at hfuel
      have hvalue := scan_encode v level fuel _ hregular.1 (by omega)
        (stops_newline indent (c := ofChar ']') (by decide) behind rest)
      have hnext := next_newline (show isSpace (ofChar ']') = false by decide) indent behind rest
      rw [encodeElements, scanElements, hvalue, Option.bind_some, hnext, Option.bind_some,
        if_pos rfl]
  | v :: w :: ws, level, fuel + 1, behind, rest, _, hregular, hfuel => by
      rw [Value.allElements, Bool.and_eq_true] at hregular
      obtain ⟨blank, hseparator, hskip⟩ := separator_eq indent level
      rw [encodeElements, hseparator] at hfuel
      simp only [List.length_cons, List.length_append] at hfuel
      have hmore := scanElements_encode (w :: ws) level fuel behind rest
        (List.cons_ne_nil w ws) hregular.2 (by omega)
      have hvalue := scan_encode v level fuel _ hregular.1 (by omega)
        (stops_cons (c := ofChar ',') (by decide) (blank ++ (encodeElements floats indent level
          (w :: ws) ++ (newline indent behind ++ ofChar ']' :: rest))))
      obtain ⟨c, tail, hsplit, hc⟩ := starts_encodeElements floats indent level w ws
      rw [hsplit, List.cons_append] at hmore hvalue
      rw [encodeElements, hseparator, hsplit]
      simp only [List.cons_append, List.append_assoc] at hvalue ⊢
      rw [scanElements, hvalue, Option.bind_some]
      show ((some (ofChar ',', _)).bind _ : Option (List (Value φ) × Text)) = _
      rw [Option.bind_some, if_neg (show ofChar ',' ≠ ofChar ']' by decide), if_pos rfl, hskip,
        skip_cons (isSpace_of_starts hc), hmore]
      rfl

theorem scanEntries_encode : ∀ (es : List (Text × Value φ)) (level fuel behind : Nat)
    (rest : Text), es ≠ [] → (∀ e ∈ es, Joined e.1) →
    Value.allEntries (fun w => w.isShort && w.isPlain) es = true →
    (encodeEntries floats indent level es).length + 1 ≤ fuel →
      scanEntries floats fuel (encodeEntries floats indent level es ++
        (newline indent behind ++ ofChar '\x7d' :: rest)) = some (es, rest)
  | [], level, fuel, behind, rest, hne, _, _, _ => absurd rfl hne
  | _, level, 0, behind, rest, _, _, _, hfuel => by omega
  | [(key, v)], level, fuel + 1, behind, rest, _, hjoined, hregular, hfuel => by
      rw [Value.allEntries, Bool.and_eq_true] at hregular
      obtain ⟨tail, hsplit, rfl⟩ := encodeEntries_cons floats indent level key v []
      rw [hsplit, if_pos rfl] at hfuel ⊢
      simp only [List.length_cons, List.length_append, List.length_nil] at hfuel
      have hvalue := scan_encode v level fuel _ hregular.1 (by omega)
        (stops_newline indent (c := ofChar '\x7d') (by decide) behind rest)
      have hnext := next_newline (show isSpace (ofChar '\x7d') = false by decide) indent behind
        rest
      have hkey : Joined key := hjoined _ List.mem_cons_self
      simp only [List.cons_append, List.append_assoc, List.nil_append]
      rw [scanEntries_pair floats hkey (by omega) (skip_encode floats indent level v _) hvalue,
        hnext, Option.bind_some, if_pos rfl]
  | (key, v) :: e :: es, level, fuel + 1, behind, rest, _, hjoined, hregular, hfuel => by
      rw [Value.allEntries, Bool.and_eq_true] at hregular
      obtain ⟨blank, hseparator, hskip⟩ := separator_eq indent level
      obtain ⟨tail, hsplit, rfl⟩ := encodeEntries_cons floats indent level key v (e :: es)
      rw [hsplit, if_neg (List.cons_ne_nil e es), hseparator] at hfuel ⊢
      simp only [List.length_cons, List.length_append] at hfuel
      have hvalue := scan_encode v level fuel _ hregular.1 (by omega)
        (stops_cons (c := ofChar ',') (by decide) (blank ++ (encodeEntries floats indent level
          (e :: es) ++ (newline indent behind ++ ofChar '\x7d' :: rest))))
      have hmore := scanEntries_encode (e :: es) level fuel behind rest (List.cons_ne_nil e es)
        (fun e' he' => hjoined e' (List.mem_cons_of_mem _ he')) hregular.2 (by omega)
      have hkey : Joined key := hjoined _ List.mem_cons_self
      simp only [List.cons_append, List.append_assoc]
      rw [scanEntries_pair floats hkey (by omega) (skip_encode floats indent level v _) hvalue]
      show ((some (ofChar ',', _)).bind _ : Option (List (Text × Value φ) × Text)) = _
      rw [Option.bind_some, if_neg (show ofChar ',' ≠ ofChar '\x7d' by decide), if_pos rfl, hskip,
        skip_encodeEntries, hmore]
      rfl

end

theorem loads_of_scan {s : Text} {v : Value φ} {c : CodePoint} {tail : Text} (hs : s = c :: tail)
    (hc : starts c = true) (hascii : c.val < 0x80)
    (hscan : scan floats (2 * s.length + 1) s = some (v, [])) : loads floats s = some v := by
  have hmark : s.head? ≠ some ⟨0xfeff, by decide⟩ := by
    rw [hs]
    intro heq
    have hval := congrArg Fin.val (Option.some.inj heq)
    change c.val = 0xfeff at hval
    omega
  have hskip : skip s = s := by
    rw [hs, skip_cons (isSpace_of_starts hc)]
  rw [loads, if_neg hmark, hskip, hscan, Option.bind_some]
  exact if_pos rfl

/-- A value that is written can be read again. -/
theorem loads_dumps {v : Value φ} (regular : v.Regular) :
    ∃ s, dumps floats indent v = some s ∧ loads floats s = some v := by
  refine ⟨encode floats indent 0 v, if_pos (isShort_of_regular regular), ?_⟩
  obtain ⟨c, tail, hsplit, hc⟩ := starts_encode floats indent 0 v
  have hscan := scan_encode floats indent v 0 (2 * (encode floats indent 0 v).length + 1) []
    regular (by omega) stops_nil
  rw [List.append_nil] at hscan
  refine loads_of_scan floats hsplit hc ?_ hscan
  have hmem : c ∈ encode floats indent 0 v := by
    rw [hsplit]
    exact List.mem_cons_self
  rcases written_encode floats indent v 0 c hmem with hprintable | ⟨-, rfl⟩
  · exact Nat.lt_of_le_of_lt hprintable.2 (by decide)
  · decide

end RoundTrip

/-! ## What is read -/

section Reading

variable (floats : Floats φ)

theorem skip_suffix (s : Text) : skip s <:+ s := List.dropWhile_suffix _

theorem next_suffix {s rest : Text} {c : CodePoint} (h : next s = some (c, rest)) :
    c :: rest <:+ s := by
  rw [next] at h
  split at h
  · cases h
  · next heq =>
      cases h
      rw [← heq]
      exact skip_suffix s

theorem tail_suffix {s rest : Text} {c : CodePoint} (h : c :: rest <:+ s) : rest <:+ s :=
  (List.suffix_cons c rest).trans h

theorem scanName_eq {s rest : Text} {v : Value φ} (h : scanName floats s = some (v, rest)) :
    v.Regular ∧ rest <:+ s := by
  obtain ⟨name, hname, h⟩ := List.exists_of_findSome?_eq_some h
  obtain ⟨behind, hprefix, h⟩ := Option.map_eq_some_iff.mp h
  cases h
  refine ⟨?_, ?_⟩
  · simp only [names, constants, List.map_cons, List.map_nil, List.cons_append, List.nil_append,
      List.mem_cons, List.not_mem_nil, or_false] at hname
    rcases hname with rfl | rfl | rfl | rfl | rfl | rfl <;> rfl
  · rw [append_of_isPrefixOf? hprefix]
    exact List.suffix_append _ _

theorem scanNumber_eq {s rest : Text} {v : Value φ} (h : scanNumber floats s = some (v, rest)) :
    v.Regular ∧ rest <:+ s := by
  obtain ⟨⟨t, b, behind⟩, hmatch, h⟩ := Option.bind_eq_some_iff.mp h
  have hsuffix : behind <:+ s := by
    have hsplit : s = t ++ behind := (takes_matchNumber hmatch).1
    rw [hsplit]
    exact List.suffix_append _ _
  split at h
  · cases h
    exact ⟨rfl, hsuffix⟩
  · obtain ⟨n, hn, h⟩ := Option.map_eq_some_iff.mp h
    cases h
    exact ⟨regular_int (short_of_intOfText hn), hsuffix⟩

/-- What the scanner returns is regular, and what it leaves is behind what it has read. -/
structure Sound (fuel : Nat) : Prop where
  value : ∀ {s rest : Text} {v : Value φ}, Scalar s → scan floats fuel s = some (v, rest) →
    v.Regular ∧ rest <:+ s
  elements : ∀ {s rest : Text} {vs : List (Value φ)}, Scalar s →
    scanElements floats fuel s = some (vs, rest) → (∀ v ∈ vs, v.Regular) ∧ rest <:+ s
  entries : ∀ {s rest : Text} {es : List (Text × Value φ)}, Scalar s →
    scanEntries floats fuel s = some (es, rest) →
      (∀ e ∈ es, Joined e.1 ∧ e.2.Regular) ∧ rest <:+ s

section Step

variable {floats} {fuel : Nat} (sound : Sound floats fuel) {s rest : Text}

include sound

theorem Sound.list (scalar : Scalar s) {v : Value φ}
    (h : (next s).bind (fun first =>
      if first.1 = ofChar ']' then some (Value.list [], first.2)
      else (scanElements floats fuel (first.1 :: first.2)).map fun read =>
        (.list read.1, read.2)) = some (v, rest)) : v.Regular ∧ rest <:+ s := by
  obtain ⟨⟨c, tail⟩, hnext, h⟩ := Option.bind_eq_some_iff.mp h
  have hsuffix := next_suffix hnext
  split at h
  · cases h
    exact ⟨rfl, tail_suffix hsuffix⟩
  · obtain ⟨⟨vs, behind⟩, hread, h⟩ := Option.map_eq_some_iff.mp h
    cases h
    obtain ⟨hregular, hbehind⟩ := sound.elements (scalar_of_suffix scalar hsuffix) hread
    exact ⟨regular_list hregular, hbehind.trans hsuffix⟩

theorem Sound.dict (scalar : Scalar s) {v : Value φ}
    (h : (next s).bind (fun first =>
      if first.1 = ofChar '\x7d' then some (Value.dict [], first.2)
      else (scanEntries floats fuel (first.1 :: first.2)).map fun read =>
        (.dict (dictOf read.1), read.2)) = some (v, rest)) : v.Regular ∧ rest <:+ s := by
  obtain ⟨⟨c, tail⟩, hnext, h⟩ := Option.bind_eq_some_iff.mp h
  have hsuffix := next_suffix hnext
  split at h
  · cases h
    exact ⟨rfl, tail_suffix hsuffix⟩
  · obtain ⟨⟨es, behind⟩, hread, h⟩ := Option.map_eq_some_iff.mp h
    cases h
    obtain ⟨hregular, hbehind⟩ := sound.entries (scalar_of_suffix scalar hsuffix) hread
    exact ⟨regular_dict (nodup_dictOf es) fun e he => hregular e (mem_dictOf he),
      hbehind.trans hsuffix⟩

theorem Sound.value_succ (scalar : Scalar s) {v : Value φ}
    (h : scan floats (fuel + 1) s = some (v, rest)) : v.Regular ∧ rest <:+ s := by
  cases s with
  | nil => cases h
  | cons c tail =>
      have htail : Scalar tail := scalar_of_suffix scalar (List.suffix_cons c tail)
      rw [scan] at h
      split at h
      · obtain ⟨⟨out, behind⟩, hread, h⟩ := Option.map_eq_some_iff.mp h
        cases h
        exact ⟨regular_str (joined_of_scanString htail hread),
          (scanString_suffix hread).trans (List.suffix_cons c tail)⟩
      · split at h
        · exact (sound.list htail h).imp_right (·.trans (List.suffix_cons c tail))
        · split at h
          · exact (sound.dict htail h).imp_right (·.trans (List.suffix_cons c tail))
          · rcases Option.or_eq_some_iff.mp h with h | ⟨-, h⟩
            · exact scanName_eq floats h
            · exact scanNumber_eq floats h

theorem Sound.elements_succ (scalar : Scalar s) {vs : List (Value φ)}
    (h : scanElements floats (fuel + 1) s = some (vs, rest)) :
    (∀ v ∈ vs, v.Regular) ∧ rest <:+ s := by
  obtain ⟨⟨v, tail⟩, hvalue, h⟩ := Option.bind_eq_some_iff.mp h
  obtain ⟨hregular, htail⟩ := sound.value scalar hvalue
  obtain ⟨⟨c, behind⟩, hnext, h⟩ := Option.bind_eq_some_iff.mp h
  have hbehind : behind <:+ s := (tail_suffix (next_suffix hnext)).trans htail
  split at h
  · cases h
    exact ⟨List.forall_mem_singleton.mpr hregular, hbehind⟩
  · split at h
    · obtain ⟨⟨ws, last⟩, hmore, h⟩ := Option.map_eq_some_iff.mp h
      cases h
      have hskip : skip behind <:+ s := (skip_suffix behind).trans hbehind
      obtain ⟨hrest, hlast⟩ := sound.elements (scalar_of_suffix scalar hskip) hmore
      exact ⟨List.forall_mem_cons.mpr ⟨hregular, hrest⟩, hlast.trans hskip⟩
    · cases h

theorem Sound.entries_succ (scalar : Scalar s) {es : List (Text × Value φ)}
    (h : scanEntries floats (fuel + 1) s = some (es, rest)) :
    (∀ e ∈ es, Joined e.1 ∧ e.2.Regular) ∧ rest <:+ s := by
  cases s with
  | nil => cases h
  | cons c tail =>
      rw [scanEntries] at h
      obtain ⟨-, h⟩ := Option.ite_none_right_eq_some.mp h
      obtain ⟨⟨key, behindKey⟩, hkey, h⟩ := Option.bind_eq_some_iff.mp h
      have htail : Scalar tail := scalar_of_suffix scalar (List.suffix_cons c tail)
      have hjoined := joined_of_scanString htail hkey
      obtain ⟨⟨colon, front⟩, hcolon, h⟩ := Option.bind_eq_some_iff.mp h
      obtain ⟨-, h⟩ := Option.ite_none_right_eq_some.mp h
      have hfront : skip front <:+ c :: tail :=
        ((skip_suffix front).trans (tail_suffix (next_suffix hcolon))).trans
          ((scanString_suffix hkey).trans (List.suffix_cons c tail))
      obtain ⟨⟨v, behindValue⟩, hvalue, h⟩ := Option.bind_eq_some_iff.mp h
      obtain ⟨hregular, hbehindValue⟩ := sound.value (scalar_of_suffix scalar hfront) hvalue
      obtain ⟨⟨d, behind⟩, hnext, h⟩ := Option.bind_eq_some_iff.mp h
      have hbehind : behind <:+ c :: tail :=
        (tail_suffix (next_suffix hnext)).trans (hbehindValue.trans hfront)
      split at h
      · cases h
        exact ⟨List.forall_mem_singleton.mpr ⟨hjoined, hregular⟩, hbehind⟩
      · split at h
        · obtain ⟨⟨more, last⟩, hmore, h⟩ := Option.map_eq_some_iff.mp h
          cases h
          have hskip : skip behind <:+ c :: tail := (skip_suffix behind).trans hbehind
          obtain ⟨hrest, hlast⟩ := sound.entries (scalar_of_suffix scalar hskip) hmore
          exact ⟨List.forall_mem_cons.mpr ⟨⟨hjoined, hregular⟩, hrest⟩, hlast.trans hskip⟩
        · cases h

end Step

theorem sound (fuel : Nat) : Sound floats fuel := by
  induction fuel with
  | zero =>
      refine ⟨?_, ?_, ?_⟩
      all_goals
        intro s rest v _ h
        cases h
  | succ fuel ih =>
      exact ⟨fun scalar h => ih.value_succ scalar h, fun scalar h => ih.elements_succ scalar h,
        fun scalar h => ih.entries_succ scalar h⟩

/-- What has been read from a text of scalar values can be written and read again. -/
theorem regular_of_loads {s : Text} {v : Value φ} (scalar : Scalar s)
    (h : loads floats s = some v) : v.Regular := by
  obtain ⟨-, h⟩ := Option.ite_none_left_eq_some.mp h
  obtain ⟨⟨w, rest⟩, hscan, h⟩ := Option.bind_eq_some_iff.mp h
  obtain ⟨-, h⟩ := Option.ite_none_right_eq_some.mp h
  cases h
  exact ((sound floats _).value (scalar_of_suffix scalar (skip_suffix s)) hscan).1

end Reading

end JsonText
