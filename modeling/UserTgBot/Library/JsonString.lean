import UserTgBot.Library.Utf8

/-!
# Strings in JSON

What Python's `json` module does with a string: `py_encode_basestring_ascii` writes it between
quotes in printable ASCII, `scanstring` reads it up to the closing quote. A code point above
`0xffff` is written as two surrogates, and two escaped surrogates that stand together are read
as one code point. A string that has such a pair as two code points is therefore not read back;
any other string is, and a string that has been read is never one of these.
-/

namespace JsonText

open PyText

def quote : CodePoint := ofChar '"'

def backslash : CodePoint := ofChar '\\'

/-! ## Writing -/

/-- What a letter behind a backslash stands for. -/
def shortEscapes : List (CodePoint × CodePoint) :=
  [(quote, quote), (backslash, backslash), (ofChar '\x08', ofChar 'b'),
    (ofChar '\x0c', ofChar 'f'), (ofChar '\n', ofChar 'n'), (ofChar '\r', ofChar 'r'),
    (ofChar '\t', ofChar 't')]

/-- A character that is written as it is. -/
def isPlain (c : CodePoint) : Bool :=
  0x20 ≤ c.val && c.val ≤ 0x7e && c ≠ quote && c ≠ backslash

def hexDigit (n : Nat) : CodePoint :=
  ⟨if n % 16 < 10 then 0x30 + n % 16 else 0x57 + n % 16, by split <;> omega⟩

/-- A UTF-16 unit as four digits. -/
def unitDigits (n : Nat) : Text :=
  [hexDigit (n / 4096), hexDigit (n / 256), hexDigit (n / 16), hexDigit n]

def unitMark : Text := [backslash, ofChar 'u']

/-- The surrogates of a code point above `0xffff`. -/
def highUnit (n : Nat) : Nat := 0xd800 + (n - 0x10000) / 0x400

def lowUnit (n : Nat) : Nat := 0xdc00 + (n - 0x10000) % 0x400

def escapeChar (c : CodePoint) : Text :=
  if isPlain c then [c]
  else match shortEscapes.lookup c with
    | some letter => [backslash, letter]
    | none =>
        if c.val < 0x10000 then unitMark ++ unitDigits c.val
        else unitMark ++ unitDigits (highUnit c.val) ++ (unitMark ++ unitDigits (lowUnit c.val))

/-- `py_encode_basestring_ascii`. -/
def encodeString (s : Text) : Text := quote :: (s.flatMap escapeChar ++ [quote])

/-! ## Reading -/

def hexValue? (c : CodePoint) : Option Nat :=
  if 0x30 ≤ c.val ∧ c.val ≤ 0x39 then some (c.val - 0x30)
  else if 0x61 ≤ c.val ∧ c.val ≤ 0x66 then some (c.val - 0x57)
  else if 0x41 ≤ c.val ∧ c.val ≤ 0x46 then some (c.val - 0x37)
  else none

/-- A UTF-16 unit and what stands behind its four digits. -/
def readUnit : Text → Option (Nat × Text)
  | a :: b :: c :: d :: rest =>
      (hexValue? a).bind fun a => (hexValue? b).bind fun b => (hexValue? c).bind fun c =>
        (hexValue? d).map fun d => (a * 4096 + b * 256 + c * 16 + d, rest)
  | _ => none

def isHigh (n : Nat) : Bool := 0xd800 ≤ n && n ≤ 0xdbff

def isLow (n : Nat) : Bool := 0xdc00 ≤ n && n ≤ 0xdfff

/-- The code point of two surrogates. -/
def joined (high low : Nat) : Nat := 0x10000 + (high - 0xd800) * 0x400 + (low - 0xdc00)

/-- The code point of a unit: a high surrogate takes a low one with it. -/
def joinUnit (n : Nat) (rest : Text) : Option (CodePoint × Text) :=
  if isHigh n then
    match unitMark.isPrefixOf? rest with
    | some digits => (readUnit digits).map fun next =>
        if isLow next.1 then (ofNumber (joined n next.1), next.2) else (ofNumber n, rest)
    | none => some (ofNumber n, rest)
  else some (ofNumber n, rest)

/-- What a letter other than `u` behind a backslash stands for. -/
def unescape (letter : CodePoint) : Option CodePoint :=
  if letter = ofChar '/' then some letter
  else (shortEscapes.find? fun escape => escape.2 = letter).map Prod.fst

/-- The character of an escape, from behind the backslash. -/
def readEscape : Text → Option (CodePoint × Text)
  | [] => none
  | letter :: rest =>
      if letter = ofChar 'u' then (readUnit rest).bind fun unit => joinUnit unit.1 unit.2
      else (unescape letter).map fun c => (c, rest)

/-- `scanstring` from behind the opening quote; `none` is a `JSONDecodeError`. Each call reads
a character, so that the length of the text is enough fuel. -/
def scanString : Nat → Text → Option (Text × Text)
  | 0, _ => none
  | _, [] => none
  | fuel + 1, c :: rest =>
      if c = quote then some ([], rest)
      else if c = backslash then
        (readEscape rest).bind fun escape =>
          (scanString fuel escape.2).map fun read => (escape.1 :: read.1, read.2)
      else if c.val < 0x20 then none
      else (scanString fuel rest).map fun read => (c :: read.1, read.2)

/-! ## What is written -/

/-- A character that `write_text` and `read_text` leave alone. -/
def Printable (c : CodePoint) : Prop := 0x20 ≤ c.val ∧ c.val ≤ 0x7e

instance (c : CodePoint) : Decidable (Printable c) :=
  inferInstanceAs (Decidable (0x20 ≤ c.val ∧ c.val ≤ 0x7e))

theorem printable_hexDigit (n : Nat) : Printable (hexDigit n) := by
  have hval : (hexDigit n).val = if n % 16 < 10 then 0x30 + n % 16 else 0x57 + n % 16 := rfl
  rw [Printable, hval]
  split <;> omega

theorem printable_unit (n : Nat) : ∀ c ∈ unitMark ++ unitDigits n, Printable c := by
  intro c hc
  simp only [unitMark, unitDigits, List.cons_append, List.nil_append, List.mem_cons,
    List.not_mem_nil, or_false] at hc
  rcases hc with rfl | rfl | rfl | rfl | rfl | rfl
  · decide
  · decide
  all_goals exact printable_hexDigit _

/-- An escape of one letter is read back, and the letter is none of `u` and `/`. -/
theorem escape_of_lookup {c letter : CodePoint} (h : shortEscapes.lookup c = some letter) :
    Printable letter ∧ letter ≠ ofChar 'u' ∧ unescape letter = some c := by
  obtain ⟨front, behind, hsplit, -⟩ := List.lookup_eq_some_iff.mp h
  have hmem : (c, letter) ∈ shortEscapes := by
    rw [hsplit]
    exact List.mem_append_right _ List.mem_cons_self
  have hall : shortEscapes.all (fun escape => Printable escape.2 ∧ escape.2 ≠ ofChar 'u' ∧
      unescape escape.2 = some escape.1) = true := by decide
  exact of_decide_eq_true (List.all_eq_true.mp hall _ hmem)

theorem printable_escapeChar (c : CodePoint) : ∀ d ∈ escapeChar c, Printable d := by
  intro d hd
  rw [escapeChar] at hd
  split at hd
  · next hplain =>
      rw [List.mem_singleton.mp hd]
      simp only [isPlain, Bool.and_eq_true, decide_eq_true_eq] at hplain
      exact hplain.1.1
  · split at hd
    · next letter hletter =>
        rcases List.mem_pair.mp hd with rfl | rfl
        · decide
        · exact (escape_of_lookup hletter).1
    · split at hd
      · exact printable_unit _ d hd
      · rcases List.mem_append.mp hd with hd | hd
        · exact printable_unit _ d hd
        · exact printable_unit _ d hd

theorem printable_encodeString (s : Text) : ∀ c ∈ encodeString s, Printable c := by
  intro c hc
  rw [encodeString, List.mem_cons, List.mem_append, List.mem_singleton, List.mem_flatMap] at hc
  rcases hc with rfl | ⟨d, -, hd⟩ | rfl
  · decide
  · exact printable_escapeChar d c hd
  · decide

theorem escapeChar_ne_nil (c : CodePoint) : escapeChar c ≠ [] := by
  rw [escapeChar]
  split
  · exact List.cons_ne_nil _ _
  · split
    · exact List.cons_ne_nil _ _
    · split <;> exact List.cons_ne_nil _ _

/-! ## Units -/

theorem hexValue?_hexDigit (n : Nat) : hexValue? (hexDigit n) = some (n % 16) := by
  have hval : (hexDigit n).val = if n % 16 < 10 then 0x30 + n % 16 else 0x57 + n % 16 := rfl
  rw [hexValue?, hval]
  by_cases hten : n % 16 < 10
  · rw [if_pos hten, if_pos (by omega)]
    exact congrArg some (by omega)
  · rw [if_neg hten, if_neg (by omega), if_pos (by omega)]
    exact congrArg some (by omega)

theorem readUnit_unitDigits {n : Nat} (hn : n < 0x10000) (rest : Text) :
    readUnit (unitDigits n ++ rest) = some (n, rest) := by
  simp only [unitDigits, List.cons_append, List.nil_append, readUnit, hexValue?_hexDigit,
    Option.bind_some, Option.map_some]
  have hvalue : n / 4096 % 16 * 4096 + n / 256 % 16 * 256 + n / 16 % 16 * 16 + n % 16 = n := by
    omega
  rw [hvalue]

theorem isPrefixOf?_append (s rest : Text) : s.isPrefixOf? (s ++ rest) = some rest := by
  induction s with
  | nil => rfl
  | cons c s ih =>
      rw [List.cons_append, List.isPrefixOf?, if_pos (beq_self_eq_true c)]
      exact ih

/-- A high surrogate is not joined with what stands in `rest`. -/
def Alone (rest : Text) : Prop := ∀ n, joinUnit n rest = some (ofNumber n, rest)

theorem joinUnit_of_not_high {n : Nat} (hhigh : isHigh n = false) (rest : Text) :
    joinUnit n rest = some (ofNumber n, rest) := by
  rw [joinUnit, hhigh]
  rfl

theorem alone_unit {n : Nat} (hn : n < 0x10000) (hlow : isLow n = false) (rest : Text) :
    Alone (unitMark ++ unitDigits n ++ rest) := by
  intro m
  rw [joinUnit]
  split
  · rw [List.append_assoc, isPrefixOf?_append]
    simp [readUnit_unitDigits hn, hlow]
  · rfl

theorem alone_cons {c : CodePoint} (hc : c ≠ backslash) (rest : Text) : Alone (c :: rest) := by
  intro m
  have hmark : unitMark.isPrefixOf? (c :: rest) = none := by
    simp [unitMark, List.isPrefixOf?, Ne.symm hc]
  rw [joinUnit, hmark]
  split <;> rfl

theorem alone_letter {letter : CodePoint} (hletter : letter ≠ ofChar 'u') (rest : Text) :
    Alone (backslash :: letter :: rest) := by
  intro m
  have hmark : unitMark.isPrefixOf? (backslash :: letter :: rest) = none := by
    simp [unitMark, List.isPrefixOf?, Ne.symm hletter]
  rw [joinUnit, hmark]
  split <;> rfl

theorem isHigh_highUnit {c : CodePoint} (hc : ¬ c.val < 0x10000) :
    isHigh (highUnit c.val) = true := by
  have hlt : c.val < 0x110000 := c.isLt
  rw [isHigh, highUnit, Bool.and_eq_true, decide_eq_true_eq, decide_eq_true_eq]
  omega

theorem isLow_lowUnit (n : Nat) : isLow (lowUnit n) = true := by
  rw [isLow, lowUnit, Bool.and_eq_true, decide_eq_true_eq, decide_eq_true_eq]
  omega

theorem isLow_of_isHigh {n : Nat} (h : isHigh n = true) : isLow n = false := by
  rw [isHigh, Bool.and_eq_true, decide_eq_true_eq, decide_eq_true_eq] at h
  rw [isLow, Bool.and_eq_false_iff, decide_eq_false_iff_not, decide_eq_false_iff_not]
  omega

theorem joined_units {n : Nat} (hn : ¬ n < 0x10000) :
    joined (highUnit n) (lowUnit n) = n := by
  have hparts : ∀ a b c k : Nat, a + (b + k / 0x400 - b) * 0x400 + (c + k % 0x400 - c) = a + k := by
    intro a b c k
    rw [Nat.add_sub_cancel_left, Nat.add_sub_cancel_left, Nat.add_assoc, Nat.div_add_mod']
  calc joined (highUnit n) (lowUnit n) = 0x10000 + (n - 0x10000) := hparts _ _ _ _
    _ = n := Nat.add_sub_of_le (Nat.le_of_not_lt hn)

/-! ## The round trip -/

/-- Code points that are no pair of surrogates next to each other. -/
def Joined (s : Text) : Prop :=
  s.IsChain fun c d => ¬ (isHigh c.val = true ∧ isLow d.val = true)

instance (s : Text) : Decidable (Joined s) :=
  inferInstanceAs (Decidable (s.IsChain _))

theorem joined_of_not_high {s : Text} (h : ∀ c ∈ s, isHigh c.val = false) : Joined s := by
  induction s with
  | nil => exact List.isChain_nil
  | cons c s ih =>
      obtain ⟨hc, hs⟩ := List.forall_mem_cons.mp h
      refine List.isChain_cons.mpr ⟨fun d _ hpair => ?_, ih hs⟩
      rw [hc] at hpair
      cases hpair.1

theorem Joined.tail {c : CodePoint} {s : Text} (h : Joined (c :: s)) : Joined s :=
  List.IsChain.tail h

/-- An escaped character that is no low surrogate is not joined with the one in front. -/
theorem alone_escapeChar {c : CodePoint} (hc : isLow c.val = false) (rest : Text) :
    Alone (escapeChar c ++ rest) := by
  rw [escapeChar]
  split
  · next hplain =>
      simp only [isPlain, Bool.and_eq_true, decide_eq_true_eq] at hplain
      exact alone_cons hplain.2 rest
  · split
    · next letter hletter =>
        exact alone_letter (escape_of_lookup hletter).2.1 rest
    · split
      · next hsmall => exact alone_unit hsmall hc rest
      · next hbig =>
          have hlt : highUnit c.val < 0x10000 := by
            have hmax : c.val < 0x110000 := c.isLt
            rw [highUnit]
            omega
          rw [List.append_assoc]
          exact alone_unit hlt (isLow_of_isHigh (isHigh_highUnit hbig)) _

theorem scanString_escape {s rest : Text} {c : CodePoint} (h : readEscape s = some (c, rest))
    (fuel : Nat) : scanString (fuel + 1) (backslash :: s) =
      (scanString fuel rest).map fun read => (c :: read.1, read.2) := by
  have hquote : backslash ≠ quote := by decide
  rw [scanString, if_neg hquote, if_pos rfl, h, Option.bind_some]

theorem readEscape_unit {n : Nat} (hn : n < 0x10000) (rest : Text) :
    readEscape (ofChar 'u' :: (unitDigits n ++ rest)) = joinUnit n rest := by
  rw [readEscape, if_pos rfl, readUnit_unitDigits hn, Option.bind_some]

/-- A character that has been written is read, unless it is joined with what follows it. -/
theorem scanString_escapeChar {c : CodePoint} {rest : Text}
    (halone : isHigh c.val = true → Alone rest) (fuel : Nat) :
    scanString (fuel + 1) (escapeChar c ++ rest) =
      (scanString fuel rest).map fun read => (c :: read.1, read.2) := by
  rw [escapeChar]
  split
  · next hplain =>
      simp only [isPlain, Bool.and_eq_true, decide_eq_true_eq] at hplain
      obtain ⟨⟨⟨hlow, -⟩, hquote⟩, hbackslash⟩ := hplain
      rw [List.singleton_append, scanString, if_neg hquote, if_neg hbackslash,
        if_neg (Nat.not_lt.mpr hlow)]
  · split
    · next letter hletter =>
        obtain ⟨-, hne, hread⟩ := escape_of_lookup hletter
        apply scanString_escape
        show readEscape (letter :: rest) = some (c, rest)
        rw [readEscape, if_neg hne, hread, Option.map_some]
    · split
      · next hsmall =>
          apply scanString_escape
          show readEscape (ofChar 'u' :: (unitDigits c.val ++ rest)) = some (c, rest)
          rw [readEscape_unit hsmall]
          have hself : ofNumber c.val = c := ofNat_eq rfl
          by_cases hhigh : isHigh c.val = true
          · rw [halone hhigh c.val, hself]
          · rw [joinUnit_of_not_high (eq_false_of_ne_true hhigh), hself]
      · next hbig =>
          have hmax : c.val < 0x110000 := c.isLt
          have hhigh : highUnit c.val < 0x10000 := by
            rw [highUnit]
            omega
          have hlow : lowUnit c.val < 0x10000 := by
            rw [lowUnit]
            omega
          rw [List.append_assoc, List.append_assoc]
          apply scanString_escape
          show readEscape (ofChar 'u' :: (unitDigits (highUnit c.val) ++
            (unitMark ++ unitDigits (lowUnit c.val) ++ rest))) = some (c, rest)
          rw [readEscape_unit hhigh, joinUnit, if_pos (isHigh_highUnit hbig), List.append_assoc,
            isPrefixOf?_append]
          simp only [readUnit_unitDigits hlow, Option.map_some, isLow_lowUnit, if_true]
          rw [ofNat_eq (joined_units hbig)]

/-- A string is read back from where it has been written. -/
theorem scanString_encode {s : Text} (h : Joined s) {fuel : Nat}
    (hfuel : (s.flatMap escapeChar).length < fuel) (rest : Text) :
    scanString fuel (s.flatMap escapeChar ++ quote :: rest) = some (s, rest) := by
  induction s generalizing fuel with
  | nil =>
      cases fuel with
      | zero => omega
      | succ fuel => rfl
  | cons c s ih =>
      rw [List.flatMap_cons, List.length_append] at hfuel
      have hpos : 0 < (escapeChar c).length := List.length_pos_iff.mpr (escapeChar_ne_nil c)
      cases fuel with
      | zero => omega
      | succ fuel =>
          have halone : isHigh c.val = true → Alone (s.flatMap escapeChar ++ quote :: rest) := by
            intro hhigh
            cases s with
            | nil => exact alone_cons (by decide) rest
            | cons d s =>
                have hlow : isLow d.val = false := by
                  apply eq_false_of_ne_true
                  intro hlow
                  exact (List.isChain_cons_cons.mp h).1 ⟨hhigh, hlow⟩
                rw [List.flatMap_cons, List.append_assoc]
                exact alone_escapeChar hlow _
          rw [List.flatMap_cons, List.append_assoc, scanString_escapeChar halone,
            ih h.tail (by omega)]
          rfl

/-! ## What is read -/

theorem hexValue?_lt {c : CodePoint} {d : Nat} (h : hexValue? c = some d) : d < 16 := by
  rw [hexValue?] at h
  split at h
  · cases h
    omega
  · split at h
    · cases h
      omega
    · split at h
      · cases h
        omega
      · cases h

theorem readUnit_eq {s rest : Text} {n : Nat} (h : readUnit s = some (n, rest)) :
    n < 0x10000 ∧ ∃ digits, digits ≠ [] ∧ s = digits ++ rest := by
  match s, h with
  | a :: b :: c :: d :: tail, h =>
      obtain ⟨va, ha, h⟩ := Option.bind_eq_some_iff.mp h
      obtain ⟨vb, hb, h⟩ := Option.bind_eq_some_iff.mp h
      obtain ⟨vc, hc, h⟩ := Option.bind_eq_some_iff.mp h
      obtain ⟨vd, hd, h⟩ := Option.map_eq_some_iff.mp h
      cases h
      have hva := hexValue?_lt ha
      have hvb := hexValue?_lt hb
      have hvc := hexValue?_lt hc
      have hvd := hexValue?_lt hd
      exact ⟨by omega, [a, b, c, d], List.cons_ne_nil _ _, rfl⟩

theorem val_ofNumber {n : Nat} (hn : n < 0x110000) : (ofNumber n).val = n :=
  Nat.mod_eq_of_lt hn

/-- What a unit is read as: itself, or the code point of two surrogates. -/
inductive Unit (n : Nat) (rest : Text) : CodePoint → Text → Prop where
  | pair {m : Nat} {digits behind : Text} (mark : unitMark.isPrefixOf? rest = some digits)
      (read : readUnit digits = some (m, behind)) (high : isHigh n = true)
      (low : isLow m = true) : Unit n rest (ofNumber (joined n m)) behind
  | single (alone : isHigh n = true → ∀ {digits behind : Text} {m : Nat},
      unitMark.isPrefixOf? rest = some digits → readUnit digits = some (m, behind) →
        isLow m = false) : Unit n rest (ofNumber n) rest

theorem unit_of_joinUnit {n : Nat} {rest rest' : Text} {c : CodePoint}
    (h : joinUnit n rest = some (c, rest')) : Unit n rest c rest' := by
  rw [joinUnit] at h
  split at h
  · next hhigh =>
      split at h
      · next digits hmark =>
          obtain ⟨⟨m, behind⟩, hread, h⟩ := Option.map_eq_some_iff.mp h
          split at h
          · next hlow =>
              obtain ⟨hc, hrest⟩ := Prod.mk.inj h
              rw [← hc, ← hrest]
              exact .pair hmark hread hhigh hlow
          · next hlow =>
              cases h
              refine .single fun _ => ?_
              intro digits' behind' m' hmark' hread'
              cases hmark.symm.trans hmark'
              cases hread.symm.trans hread'
              exact eq_false_of_ne_true hlow
      · next hmark =>
          cases h
          refine .single fun _ => ?_
          intro digits' behind' m' hmark'
          cases hmark.symm.trans hmark'
  · next hhigh =>
      cases h
      exact .single fun hhigh' => absurd hhigh' hhigh

theorem joined_val {n m : Nat} (high : isHigh n = true) (low : isLow m = true) :
    0x10000 ≤ (ofNumber (joined n m)).val := by
  rw [isHigh, Bool.and_eq_true, decide_eq_true_eq, decide_eq_true_eq] at high
  rw [isLow, Bool.and_eq_true, decide_eq_true_eq, decide_eq_true_eq] at low
  have hparts : ∀ q r : Nat, q ≤ 0x3ff → r ≤ 0x3ff → 0x10000 + q * 0x400 + r < 0x110000 := by
    omega
  have hlt : joined n m < 0x110000 :=
    hparts _ _ (Nat.sub_le_of_le_add high.2) (Nat.sub_le_of_le_add low.2)
  rw [val_ofNumber hlt]
  exact Nat.le_trans (Nat.le_add_right _ _) (Nat.le_add_right _ _)

theorem append_of_isPrefixOf? {s rest digits : Text} (h : s.isPrefixOf? rest = some digits) :
    rest = s ++ digits := by
  induction s generalizing rest with
  | nil =>
      cases h
      rfl
  | cons c s ih =>
      cases rest with
      | nil => cases h
      | cons d rest =>
          rw [List.isPrefixOf?] at h
          split at h
          · next heq => rw [ih h, eq_of_beq heq, List.cons_append]
          · cases h

/-- The text behind a unit is a part of the text behind its digits. -/
theorem Unit.suffix {n : Nat} {rest rest' : Text} {c : CodePoint} (h : Unit n rest c rest') :
    rest' <:+ rest := by
  cases h with
  | pair mark read _ _ =>
      obtain ⟨-, digits, -, hsplit⟩ := readUnit_eq read
      rw [append_of_isPrefixOf? mark, hsplit, ← List.append_assoc]
      exact List.suffix_append _ _
  | single _ => exact List.suffix_refl _

/-- A letter stands for a character that is no surrogate. -/
theorem isSurrogate_unescape {letter c : CodePoint} (h : unescape letter = some c) :
    isSurrogate c = false := by
  rw [unescape] at h
  split at h
  · next hslash =>
      cases h
      rw [hslash]
      decide
  · obtain ⟨escape, hfind, rfl⟩ := Option.map_eq_some_iff.mp h
    have hall : shortEscapes.all (fun escape => !isSurrogate escape.1) = true := by decide
    have hmem := List.all_eq_true.mp hall escape (List.mem_of_find?_eq_some hfind)
    rwa [Bool.not_eq_true'] at hmem

theorem isHigh_isLow_of_scalar {c : CodePoint} (h : isSurrogate c = false) :
    isHigh c.val = false ∧ isLow c.val = false := by
  rw [isSurrogate, Bool.and_eq_false_iff, decide_eq_false_iff_not, decide_eq_false_iff_not] at h
  rw [isHigh, isLow, Bool.and_eq_false_iff, Bool.and_eq_false_iff, decide_eq_false_iff_not,
    decide_eq_false_iff_not, decide_eq_false_iff_not, decide_eq_false_iff_not]
  omega

/-- An escape stands for a character that is no surrogate, or for a unit. -/
theorem readEscape_eq {s rest : Text} {c : CodePoint} (h : readEscape s = some (c, rest)) :
    (isSurrogate c = false ∧ ∃ letter, s = letter :: rest) ∨
      ∃ digits n behind, s = ofChar 'u' :: digits ∧ readUnit digits = some (n, behind) ∧
        Unit n behind c rest := by
  cases s with
  | nil => cases h
  | cons letter tail =>
      rw [readEscape] at h
      split at h
      · next hletter =>
          obtain ⟨⟨n, behind⟩, hread, hjoin⟩ := Option.bind_eq_some_iff.mp h
          subst hletter
          exact .inr ⟨tail, n, behind, rfl, hread, unit_of_joinUnit hjoin⟩
      · obtain ⟨d, hunescape, h⟩ := Option.map_eq_some_iff.mp h
        cases h
        exact .inl ⟨isSurrogate_unescape hunescape, letter, rfl⟩

theorem readEscape_suffix {s rest : Text} {c : CodePoint} (h : readEscape s = some (c, rest)) :
    rest <:+ s := by
  obtain ⟨-, letter, rfl⟩ | ⟨tail, n, behind, rfl, hread, hunit⟩ := readEscape_eq h
  · exact List.suffix_cons _ _
  · obtain ⟨-, digits, -, rfl⟩ := readUnit_eq hread
    exact (hunit.suffix.trans (List.suffix_append _ _)).trans (List.suffix_cons _ _)

/-- The first character that `scanString` reads, and how it goes on. -/
inductive Reads (fuel : Nat) (rest : Text) : Text → Text → Prop where
  | done {tail : Text} (end_ : rest = tail) : Reads fuel rest (quote :: tail) []
  | plain {c : CodePoint} {tail out : Text} (more : scanString fuel tail = some (out, rest)) :
      Reads fuel rest (c :: tail) (c :: out)
  | escape {c : CodePoint} {tail behind out : Text} (read : readEscape tail = some (c, behind))
      (more : scanString fuel behind = some (out, rest)) :
      Reads fuel rest (backslash :: tail) (c :: out)

theorem reads_of_scanString {fuel : Nat} {s out rest : Text}
    (h : scanString (fuel + 1) s = some (out, rest)) : Reads fuel rest s out := by
  cases s with
  | nil => cases h
  | cons c tail =>
      rw [scanString] at h
      split at h
      · next hquote =>
          cases h
          rw [hquote]
          exact .done rfl
      · split at h
        · next hescape =>
            obtain ⟨⟨d, behind⟩, hread, h⟩ := Option.bind_eq_some_iff.mp h
            obtain ⟨⟨out', rest'⟩, hmore, h⟩ := Option.map_eq_some_iff.mp h
            cases h
            rw [hescape]
            exact .escape hread hmore
        · split at h
          · cases h
          · obtain ⟨⟨out', rest'⟩, hmore, h⟩ := Option.map_eq_some_iff.mp h
            cases h
            exact .plain hmore

theorem scanString_suffix {fuel : Nat} {s out rest : Text}
    (h : scanString fuel s = some (out, rest)) : rest <:+ s := by
  induction fuel generalizing s out with
  | zero => cases h
  | succ fuel ih =>
      cases reads_of_scanString h with
      | done heq =>
          rw [heq]
          exact List.suffix_cons _ _
      | plain more => exact (ih more).trans (List.suffix_cons _ _)
      | escape read more =>
          exact ((ih more).trans (readEscape_suffix read)).trans (List.suffix_cons _ _)

theorem scalar_of_suffix {s t : Text} (h : Scalar s) (hsuffix : t <:+ s) : Scalar t :=
  fun c hc => h c (hsuffix.subset hc)

/-- A low surrogate has been read from its escape. -/
theorem unit_of_isLow {fuel : Nat} {s out rest : Text} {c : CodePoint} (scalar : Scalar s)
    (h : scanString fuel s = some (c :: out, rest)) (hlow : isLow c.val = true) :
    ∃ digits m behind, unitMark.isPrefixOf? s = some digits ∧
      readUnit digits = some (m, behind) ∧ isLow m = true := by
  cases fuel with
  | zero => cases h
  | succ fuel =>
      cases reads_of_scanString h with
      | plain _ =>
          have hscalar := (isHigh_isLow_of_scalar (scalar c List.mem_cons_self)).2
          rw [hlow] at hscalar
          cases hscalar
      | escape read _ =>
          obtain ⟨hscalar, -⟩ | ⟨digits, n, behind, rfl, hread, hunit⟩ := readEscape_eq read
          · rw [(isHigh_isLow_of_scalar hscalar).2] at hlow
            cases hlow
          · refine ⟨digits, n, behind, isPrefixOf?_append unitMark digits, hread, ?_⟩
            cases hunit with
            | pair _ _ high low =>
                have hval := joined_val high low
                rw [isLow, Bool.and_eq_true, decide_eq_true_eq, decide_eq_true_eq] at hlow
                omega
            | single _ =>
                have hn : n < 0x110000 := Nat.lt_trans (readUnit_eq hread).1 (by decide)
                rwa [val_ofNumber hn] at hlow

/-- A string that has been read can be written and read again. -/
theorem joined_of_scanString {fuel : Nat} {s out rest : Text} (scalar : Scalar s)
    (h : scanString fuel s = some (out, rest)) : Joined out := by
  induction fuel generalizing s out with
  | zero => cases h
  | succ fuel ih =>
      cases reads_of_scanString h with
      | done _ => exact List.isChain_nil
      | @plain c tail out more =>
          have htail : Scalar tail := scalar_of_suffix scalar (List.suffix_cons _ _)
          refine List.isChain_cons.mpr ⟨?_, ih htail more⟩
          intro d _ hpair
          have hscalar := (isHigh_isLow_of_scalar (scalar c List.mem_cons_self)).1
          rw [hpair.1] at hscalar
          cases hscalar
      | @escape c tail behind out read more =>
          have hbehind : Scalar behind :=
            scalar_of_suffix scalar ((readEscape_suffix read).trans (List.suffix_cons _ _))
          refine List.isChain_cons.mpr ⟨?_, ih hbehind more⟩
          intro d hd hpair
          -- the escape in front of a low surrogate is no high one, or it would have taken it
          obtain ⟨out', rfl⟩ : ∃ out', out = d :: out' := by
            cases out with
            | nil => cases hd
            | cons d' out' =>
                cases hd
                exact ⟨out', rfl⟩
          obtain ⟨digits, m, behind', hmark, hread, hlow⟩ := unit_of_isLow hbehind more hpair.2
          obtain ⟨hscalar, -⟩ | ⟨first, n, front, rfl, hfirst, hunit⟩ := readEscape_eq read
          · have hnot := (isHigh_isLow_of_scalar hscalar).1
            rw [hpair.1] at hnot
            cases hnot
          · cases hunit with
            | pair _ _ high low =>
                have hval := joined_val high low
                have hhigh := hpair.1
                rw [isHigh, Bool.and_eq_true, decide_eq_true_eq, decide_eq_true_eq] at hhigh
                omega
            | single alone =>
                have hn : n < 0x110000 := Nat.lt_trans (readUnit_eq hfirst).1 (by decide)
                have hhigh := hpair.1
                rw [val_ofNumber hn] at hhigh
                rw [alone hhigh hmark hread] at hlow
                cases hlow

end JsonText
