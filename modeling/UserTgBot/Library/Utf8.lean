import UserTgBot.Library.PyText

/-!
# Cutting UTF-8

`raw[:n].decode("utf-8", errors="ignore")` for bytes that encode a text: the code points that
fit into `n` bytes are read back, and the bytes of the one that was cut are dropped. The decoder
is that of `PyText` with any text in place of the replacement character.
-/

namespace PyText

/-! ## Decoding with any error handler -/

theorem neZero_codePoints : NeZero 0x110000 := ⟨by decide⟩

/-- The code point with this number. -/
abbrev ofNumber (n : Nat) : CodePoint := @Fin.ofNat 0x110000 neZero_codePoints n

section Decoder

variable (onError : Text)

/-- `decodeFirst` with another text for a bad byte. -/
def decodeFirstWith (b : UInt8) : Text × Option Partial :=
  let n := b.toNat
  if n < 0x80 then ([ofNumber n], none)
  else if n < 0xc2 then (onError, none)
  else if n < 0xe0 then ([], some ⟨1, 0x80, 0xbf, n - 0xc0⟩)
  else if n < 0xf0 then
    ([], some ⟨2, if n = 0xe0 then 0xa0 else 0x80, if n = 0xed then 0x9f else 0xbf, n - 0xe0⟩)
  else if n < 0xf5 then
    ([], some ⟨3, if n = 0xf0 then 0x90 else 0x80, if n = 0xf4 then 0x8f else 0xbf, n - 0xf0⟩)
  else (onError, none)

def decodeByteWith (open? : Option Partial) (b : UInt8) : Text × Option Partial :=
  match open? with
  | none => decodeFirstWith onError b
  | some p =>
      if p.low ≤ b.toNat ∧ b.toNat ≤ p.high then
        let value := 64 * p.value + b.toNat % 64
        if p.missing = 1 then ([ofNumber value], none)
        else ([], some ⟨p.missing - 1, 0x80, 0xbf, value⟩)
      else
        let out := decodeFirstWith onError b
        (onError ++ out.1, out.2)

def decodeWith : Option Partial → List UInt8 → Text
  | none, [] => []
  | some _, [] => onError
  | open?, b :: bytes =>
      let out := decodeByteWith onError open? b
      out.1 ++ decodeWith out.2 bytes

end Decoder

/-- `bytes.decode("utf-8", errors="ignore")`. -/
def decodeUtf8Ignore (bytes : List UInt8) : Text := decodeWith [] none bytes

/-! ## One code point -/

/-- From the given position on, the bytes are those of one code point. -/
inductive Spells (onError : Text) : Option Partial → List UInt8 → CodePoint → Prop where
  | last {open? : Option Partial} {b : UInt8} {c : CodePoint} :
      decodeByteWith onError open? b = ([c], none) → Spells onError open? [b] c
  | more {open? : Option Partial} {b : UInt8} {p : Partial} {bytes : List UInt8} {c : CodePoint} :
      decodeByteWith onError open? b = ([], some p) → Spells onError (some p) bytes c →
        Spells onError open? (b :: bytes) c

section OneCodePoint

variable {onError : Text} {open? : Option Partial} {bytes : List UInt8} {c : CodePoint}
variable {p : Partial} {n : Nat}

theorem Spells.decode (h : Spells onError open? bytes c) (rest : List UInt8) :
    decodeWith onError open? (bytes ++ rest) = c :: decodeWith onError none rest := by
  induction h with
  | last hbyte => simp [decodeWith, hbyte]
  | more hbyte _ ih => simp [decodeWith, hbyte, ih]

/-- A code point that is cut leaves no trace if errors are ignored. -/
theorem Spells.decode_take (h : Spells [] open? bytes c) (hn : n < bytes.length) :
    decodeWith [] open? (bytes.take n) = [] := by
  induction h generalizing n with
  | @last open? b c hbyte =>
      rw [List.length_singleton] at hn
      obtain rfl : n = 0 := by omega
      cases open? <;> rfl
  | @more open? b p bytes c hbyte _ ih =>
      cases n with
      | zero => cases open? <;> rfl
      | succ n =>
          rw [List.length_cons] at hn
          rw [List.take_succ_cons, decodeWith, hbyte, ih (by omega)]
          rfl

theorem toNat_ofNat (h : n < 256) : (UInt8.ofNat n).toNat = n := by
  rw [UInt8.toNat_ofNat', Nat.mod_eq_of_lt h]

theorem ofNat_eq (h : n = c.val) : ofNumber n = c := by
  apply Fin.ext
  rw [h]
  exact Nat.mod_eq_of_lt c.isLt

/-- The byte ends the code point. -/
theorem decodeByteWith_last (hlow : p.low ≤ n) (hhigh : n ≤ p.high) (hbyte : n < 256)
    (hone : p.missing = 1) (hvalue : 64 * p.value + n % 64 = c.val) :
    decodeByteWith onError (some p) (.ofNat n) = ([c], none) := by
  rw [decodeByteWith, toNat_ofNat hbyte]
  simp only [hlow, hhigh, and_self, if_true, hone, ofNat_eq hvalue]

theorem decodeByteWith_more (hlow : p.low ≤ n) (hhigh : n ≤ p.high) (hbyte : n < 256)
    (hmore : p.missing ≠ 1) : decodeByteWith onError (some p) (.ofNat n) =
      ([], some ⟨p.missing - 1, 0x80, 0xbf, 64 * p.value + n % 64⟩) := by
  rw [decodeByteWith, toNat_ofNat hbyte]
  simp only [hlow, hhigh, and_self, if_true, hmore, if_false]

/-- A first byte that says how many are to follow. -/
theorem decodeFirstWith_two (hlow : 0xc2 ≤ n) (hhigh : n < 0xe0) :
    decodeFirstWith onError (.ofNat n) = ([], some ⟨1, 0x80, 0xbf, n - 0xc0⟩) := by
  rw [decodeFirstWith, toNat_ofNat (by omega), if_neg (by omega), if_neg (by omega),
    if_pos hhigh]

theorem decodeFirstWith_three (hlow : 0xe0 ≤ n) (hhigh : n < 0xf0) :
    decodeFirstWith onError (.ofNat n) = ([], some
      ⟨2, if n = 0xe0 then 0xa0 else 0x80, if n = 0xed then 0x9f else 0xbf, n - 0xe0⟩) := by
  rw [decodeFirstWith, toNat_ofNat (by omega), if_neg (by omega), if_neg (by omega),
    if_neg (by omega), if_pos hhigh]

theorem decodeFirstWith_four (hlow : 0xf0 ≤ n) (hhigh : n < 0xf5) :
    decodeFirstWith onError (.ofNat n) = ([], some
      ⟨3, if n = 0xf0 then 0x90 else 0x80, if n = 0xf4 then 0x8f else 0xbf, n - 0xf0⟩) := by
  rw [decodeFirstWith, toNat_ofNat (by omega), if_neg (by omega), if_neg (by omega),
    if_neg (by omega), if_neg (by omega), if_pos hhigh]

/-- What `encode` writes for a code point is read as this code point. -/
theorem spells_encodeChar (h : encodeChar c = some bytes) : Spells onError none bytes c := by
  have hmax := c.isLt
  simp only [encodeChar, Nat.pow_zero, Nat.div_one, Nat.reducePow] at h
  split at h
  · next hone =>
      obtain rfl := Option.some.inj h
      apply Spells.last
      rw [decodeByteWith, decodeFirstWith, toNat_ofNat (by omega), if_pos hone, ofNat_eq rfl]
  · split at h
    · obtain rfl := Option.some.inj h
      refine .more (decodeFirstWith_two (by omega) (by omega)) (.last ?_)
      refine decodeByteWith_last ?_ ?_ (by omega) rfl ?_
      all_goals
        dsimp only
        omega
    · split at h
      · cases h
      · next hsurrogate =>
          have hscalar : c.val < 0xd800 ∨ 0xdfff < c.val := by
            simp only [isSurrogate, Bool.and_eq_true, decide_eq_true_eq] at hsurrogate
            omega
          have hmore : ∀ n : Nat, n + 2 ≠ 1 := by
            intro n
            omega
          split at h
          · obtain rfl := Option.some.inj h
            refine .more (decodeFirstWith_three (by omega) (by omega)) ?_
            refine .more (decodeByteWith_more ?_ ?_ (by omega) (hmore 0)) (.last ?_)
            · dsimp only
              split <;> omega
            · dsimp only
              split <;> omega
            · refine decodeByteWith_last ?_ ?_ (by omega) rfl ?_
              all_goals
                dsimp only
                omega
          · obtain rfl := Option.some.inj h
            refine .more (decodeFirstWith_four (by omega) (by omega)) ?_
            refine .more (decodeByteWith_more ?_ ?_ (by omega) (hmore 1)) ?_
            · dsimp only
              split <;> omega
            · dsimp only
              split <;> omega
            · refine .more (decodeByteWith_more ?_ ?_ (by omega) (hmore 0)) (.last ?_)
              · dsimp only
                omega
              · dsimp only
                omega
              · refine decodeByteWith_last ?_ ?_ (by omega) rfl ?_
                all_goals
                  dsimp only
                  omega

end OneCodePoint

/-! ## Prefixes that fit -/

/-- How many bytes `encode` writes for a code point. -/
def width (c : CodePoint) : Nat := ((encodeChar c).getD []).length

/-- The length of the encoded text. -/
def byteCount (s : Text) : Nat := (s.map width).sum

@[simp] theorem byteCount_nil : byteCount [] = 0 := rfl

@[simp] theorem byteCount_cons (c : CodePoint) (s : Text) :
    byteCount (c :: s) = width c + byteCount s := rfl

theorem byteCount_append (s t : Text) : byteCount (s ++ t) = byteCount s + byteCount t := by
  rw [byteCount, List.map_append, List.sum_append]
  rfl

/-- A text of Unicode scalar values. -/
def Scalar (s : Text) : Prop := ∀ c ∈ s, isSurrogate c = false

instance (s : Text) : Decidable (Scalar s) :=
  List.decidableBAll (fun c => isSurrogate c = false) s

/-- As many code points from the start as fit into the budget. -/
def fitting (budget : Nat) : Text → Text
  | [] => []
  | c :: s => if width c ≤ budget then c :: fitting (budget - width c) s else []

/-- The prefix is the longest one whose encoding fits into the budget. -/
structure LongestFitting (budget : Nat) (s p : Text) : Prop where
  isPrefix : p <+: s
  fits : byteCount p ≤ budget
  longest : ∀ q, q <+: s → byteCount q ≤ budget → q <+: p

section Fitting

variable {s t : Text} {c : CodePoint} {budget : Nat} {raw : List UInt8}

theorem width_pos (h : isSurrogate c = false) : ∃ bytes, encodeChar c = some bytes ∧
    bytes.length = width c ∧ 0 < width c := by
  have hsome : ∃ bytes, encodeChar c = some bytes ∧ 0 < bytes.length := by
    simp only [encodeChar, h, Bool.false_eq_true, if_false]
    split
    · exact ⟨_, rfl, Nat.zero_lt_one⟩
    · split
      · exact ⟨_, rfl, by simp⟩
      · split
        · exact ⟨_, rfl, by simp⟩
        · exact ⟨_, rfl, by simp⟩
  obtain ⟨bytes, hbytes, hpos⟩ := hsome
  have hwidth : bytes.length = width c := by
    rw [width, hbytes]
    rfl
  exact ⟨bytes, hbytes, hwidth, hwidth ▸ hpos⟩

/-- An ASCII character is one byte. -/
theorem width_of_ascii (h : c.val < 0x80) : width c = 1 := by
  rw [width, encodeChar]
  simp only [h, if_true]
  rfl

theorem encodeUtf8_cons {bytes : List UInt8} (hc : encodeChar c = some bytes) :
    encodeUtf8 (c :: s) = (encodeUtf8 s).map (bytes ++ ·) := by
  rw [encodeUtf8, List.mapM_cons, hc, encodeUtf8]
  cases s.mapM encodeChar <;> rfl

theorem encodeUtf8_scalar (h : Scalar s) :
    ∃ raw, encodeUtf8 s = some raw ∧ raw.length = byteCount s := by
  induction s with
  | nil => exact ⟨[], rfl, rfl⟩
  | cons c s ih =>
      obtain ⟨hc, hs⟩ := List.forall_mem_cons.mp h
      obtain ⟨bytes, hbytes, hwidth, -⟩ := width_pos hc
      obtain ⟨raw, hraw, hlength⟩ := ih hs
      refine ⟨bytes ++ raw, ?_, ?_⟩
      · rw [encodeUtf8_cons hbytes, hraw]
        rfl
      · rw [List.length_append, hwidth, hlength, byteCount_cons]

/-- Decoding the first bytes gives the code points that fit into them. -/
theorem decodeUtf8Ignore_take (h : Scalar s) (hraw : encodeUtf8 s = some raw) (budget : Nat) :
    decodeUtf8Ignore (raw.take budget) = fitting budget s := by
  induction s generalizing raw budget with
  | nil =>
      obtain rfl := Option.some.inj hraw
      exact congrArg decodeUtf8Ignore List.take_nil
  | cons c s ih =>
      obtain ⟨hc, hs⟩ := List.forall_mem_cons.mp h
      obtain ⟨bytes, hbytes, hwidth, -⟩ := width_pos hc
      obtain ⟨rest, hrest, -⟩ := encodeUtf8_scalar hs
      rw [encodeUtf8_cons hbytes, hrest] at hraw
      obtain rfl := Option.some.inj hraw
      have hspells : Spells [] none bytes c := spells_encodeChar hbytes
      rw [fitting, decodeUtf8Ignore]
      by_cases hfits : width c ≤ budget
      · have htake : (bytes ++ rest).take budget =
            bytes ++ rest.take (budget - width c) := by
          rw [List.take_append, List.take_of_length_le (by omega), hwidth]
        rw [if_pos hfits, htake, hspells.decode]
        exact congrArg (c :: ·) (ih hs hrest (budget - width c))
      · have htake : (bytes ++ rest).take budget = bytes.take budget :=
          List.take_append_of_le_length (by omega)
        rw [if_neg hfits, htake]
        exact hspells.decode_take (by omega)

theorem fitting_isPrefix (budget : Nat) (s : Text) : fitting budget s <+: s := by
  induction s generalizing budget with
  | nil => exact List.prefix_rfl
  | cons c s ih =>
      rw [fitting]
      split
      · exact List.cons_prefix_cons.mpr ⟨rfl, ih _⟩
      · exact List.nil_prefix

theorem byteCount_fitting_le (budget : Nat) (s : Text) :
    byteCount (fitting budget s) ≤ budget := by
  induction s generalizing budget with
  | nil => exact Nat.zero_le _
  | cons c s ih =>
      rw [fitting]
      split
      · have hrest := ih (budget - width c)
        rw [byteCount_cons]
        omega
      · exact Nat.zero_le _

theorem isPrefix_fitting {q : Text} (hq : q <+: s) (hfits : byteCount q ≤ budget) :
    q <+: fitting budget s := by
  induction q generalizing s budget with
  | nil => exact List.nil_prefix
  | cons c q ih =>
      obtain ⟨rest, rfl⟩ := hq
      rw [byteCount_cons] at hfits
      rw [List.cons_append, fitting, if_pos (by omega)]
      exact List.cons_prefix_cons.mpr ⟨rfl, ih (List.prefix_append q rest) (by omega)⟩

theorem longestFitting_fitting (budget : Nat) (s : Text) :
    LongestFitting budget s (fitting budget s) :=
  ⟨fitting_isPrefix budget s, byteCount_fitting_le budget s, fun _ => isPrefix_fitting⟩

/-- A text that fits is its own longest prefix. -/
theorem fitting_eq_self (h : byteCount s ≤ budget) : fitting budget s = s :=
  (fitting_isPrefix budget s).eq_of_length_le
    (isPrefix_fitting List.prefix_rfl h).length_le

end Fitting

end PyText
