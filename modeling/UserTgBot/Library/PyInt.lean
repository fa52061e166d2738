import UserTgBot.Library.PaddedDecimal
import UserTgBot.Library.PyStr

/-!
# Integers as texts

`str` of an integer is its decimal with a sign, and `int` reads it back. The decimal has no
leading zero, so a number below a power of ten has no more digits than the exponent.
-/

namespace PyText

/-- `str(n)` for a number that is not negative. -/
def strOfNat (n : Nat) : Text :=
  if n = 0 then [digit 0] else ((Nat.digits 10 n).map digit).reverse

/-- `str(n)`. -/
def strOfInt (n : Int) : Text :=
  if n < 0 then ofChar '-' :: strOfNat n.natAbs else strOfNat n.natAbs

/-- An ASCII digit. -/
def IsAsciiDigit (c : CodePoint) : Prop := 0x30 ≤ c.val ∧ c.val ≤ 0x39

instance (c : CodePoint) : Decidable (IsAsciiDigit c) :=
  inferInstanceAs (Decidable (0x30 ≤ c.val ∧ c.val ≤ 0x39))

theorem decimalValue_of_asciiDigit {c : CodePoint} (h : IsAsciiDigit c) :
    decimalValue c = some (c.val - 0x30) := by
  have hfind : decimalZeros.find? (fun first => first ≤ c.val && c.val < first + 10) =
      some 0x30 := by
    rw [decimalZeros, List.find?_cons_of_pos]
    simp only [Bool.and_eq_true, decide_eq_true_eq]
    exact ⟨h.1, Nat.lt_succ_of_le h.2⟩
  rw [decimalValue, hfind]
  rfl

theorem isSpace_of_asciiDigit {c : CodePoint} (h : IsAsciiDigit c) : isSpace c = false := by
  obtain ⟨hlow, hhigh⟩ := h
  simp [isSpace]
  omega

theorem isAsciiDigit_digit (n : Nat) : IsAsciiDigit (digit n) := by
  have hval : (digit n).val = 0x30 + n % 10 := rfl
  rw [IsAsciiDigit, hval]
  omega

theorem decimalValue_digit (n : Nat) : decimalValue (digit n) = some (n % 10) := by
  have hval : (digit n).val = 0x30 + n % 10 := rfl
  rw [decimalValue_of_asciiDigit (isAsciiDigit_digit n), hval, Nat.add_sub_cancel_left]

/-- A number is written in digits only. -/
theorem mem_strOfNat {n : Nat} {c : CodePoint} (h : c ∈ strOfNat n) : IsAsciiDigit c := by
  rw [strOfNat] at h
  split at h
  · rw [List.mem_singleton.mp h]
    exact isAsciiDigit_digit 0
  · rw [List.mem_reverse, List.mem_map] at h
    obtain ⟨d, -, rfl⟩ := h
    exact isAsciiDigit_digit d

theorem strOfNat_ne_nil (n : Nat) : strOfNat n ≠ [] := by
  rw [strOfNat]
  split
  · exact List.cons_ne_nil _ _
  · next hne =>
      rw [Ne, List.reverse_eq_nil_iff, List.map_eq_nil_iff]
      exact Nat.digits_ne_nil_iff_ne_zero.mpr hne

theorem length_strOfNat_le {n k : Nat} (hk : 0 < k) (h : n < 10 ^ k) :
    (strOfNat n).length ≤ k := by
  rw [strOfNat]
  split
  · exact hk
  · rw [List.length_reverse, List.length_map]
    exact (Nat.digits_length_le_iff (by decide) n).mpr h

/-- The digits of a number are read back. -/
theorem intOfDigits_strOfNat {n : Nat} (short : (strOfNat n).length ≤ maxStrDigits) :
    intOfDigits (strOfNat n) = some n := by
  rw [intOfDigits, if_pos short, strOfNat]
  by_cases hzero : n = 0
  · subst hzero
    rfl
  · have hread : ∀ {digits : List Nat}, (∀ d ∈ digits, d < 10) →
        (digits.map digit).mapM decimalValue = some digits := by
      intro digits hdigits
      induction digits with
      | nil => rfl
      | cons d digits ih =>
          rw [List.forall_mem_cons] at hdigits
          rw [List.map_cons, List.mapM_cons, decimalValue_digit, ih hdigits.2,
            Nat.mod_eq_of_lt hdigits.1]
          rfl
    have hlt : ∀ d ∈ (Nat.digits 10 n).reverse, d < 10 := fun d hd =>
      Nat.digits_lt_base (by decide) (List.mem_reverse.mp hd)
    rw [if_neg hzero, ← List.map_reverse, hread hlt, Option.map_some, List.foldl_reverse]
    have hvalue := Nat.ofDigits_digits 10 n
    rw [Nat.ofDigits_eq_foldr] at hvalue
    apply congrArg some
    calc (Nat.digits 10 n).foldr (fun d m => 10 * m + d) 0
        = (Nat.digits 10 n).foldr (fun d m => d + 10 * m) 0 := by
          simp only [Nat.add_comm]
      _ = n := hvalue

theorem mem_strOfInt {n : Int} {c : CodePoint} (h : c ∈ strOfInt n) :
    c = ofChar '-' ∨ IsAsciiDigit c := by
  rw [strOfInt] at h
  split at h
  · exact (List.mem_cons.mp h).imp_right mem_strOfNat
  · exact .inr (mem_strOfNat h)

theorem strip_strOfInt (n : Int) : strip (strOfInt n) = strOfInt n := by
  have hspace : ∀ c ∈ strOfInt n, isSpace c = false := by
    intro c hc
    obtain rfl | hdigit := mem_strOfInt hc
    · decide
    · exact isSpace_of_asciiDigit hdigit
  exact strip_eq_self (fun c hc => hspace c (List.mem_of_head? hc))
    fun c hc => hspace c (List.mem_of_getLast? hc)

/-- `int(str(n))`, unless there are too many digits. -/
theorem intOfText_strOfInt {n : Int} (short : (strOfNat n.natAbs).length ≤ maxStrDigits) :
    intOfText (strOfInt n) = some n := by
  have hplain : ofChar '_' ∉ strOfNat n.natAbs := fun hmem =>
    absurd (mem_strOfNat hmem) (by decide)
  have hgroups : (strOfNat n.natAbs).splitOn (ofChar '_') = [strOfNat n.natAbs] :=
    List.splitOn_eq_singleton hplain
  have hvalue : (intOfDigits [strOfNat n.natAbs].flatten) = some n.natAbs := by
    rw [List.flatten_singleton, intOfDigits_strOfNat short]
  have hnonempty : [strOfNat n.natAbs].all (!·.isEmpty) = true := by
    simp [strOfNat_ne_nil]
  have hbody : (((strOfInt n).dropWhile isSpace).reverse.dropWhile isSpace).reverse =
      strOfInt n := strip_strOfInt n
  simp only [intOfText, hbody]
  by_cases hneg : n < 0
  · have hstr : strOfInt n = ofChar '-' :: strOfNat n.natAbs := if_pos hneg
    simp only [hstr, List.head?_cons, List.drop_succ_cons, List.drop_zero, true_or, if_true,
      hgroups, hnonempty, hvalue]
    have hsign : -(n.natAbs : Int) = n := by omega
    exact congrArg some hsign
  · have hstr : strOfInt n = strOfNat n.natAbs := if_neg hneg
    have hhead : ∀ c, ¬IsAsciiDigit c → ¬(strOfNat n.natAbs).head? = some c := by
      intro c hc hhead
      exact hc (mem_strOfNat (List.mem_of_head? hhead))
    have hminus := hhead (ofChar '-') (by decide)
    have hplus := hhead (ofChar '+') (by decide)
    simp only [hstr, hminus, hplus, or_self, if_false, hgroups, hnonempty, hvalue, if_true]
    have hsign : (n.natAbs : Int) = n := by omega
    exact congrArg some hsign

/-! ## What `int` returns -/

theorem decimalValue_lt {c : CodePoint} {d : Nat} (h : decimalValue c = some d) : d < 10 := by
  obtain ⟨first, hfind, hd⟩ := Option.map_eq_some_iff.mp h
  have hrange := List.find?_some hfind
  rw [Bool.and_eq_true, decide_eq_true_eq, decide_eq_true_eq] at hrange
  omega

/-- Digits stand for a number below the power of ten of their count. -/
theorem foldl_digits_lt {digits : List Nat} (h : ∀ d ∈ digits, d < 10) (n : Nat) :
    digits.foldl (fun n d => 10 * n + d) n < (n + 1) * 10 ^ digits.length := by
  induction digits generalizing n with
  | nil =>
      rw [List.foldl_nil, List.length_nil, Nat.pow_zero, Nat.mul_one]
      exact Nat.lt_succ_self n
  | cons d digits ih =>
      obtain ⟨hd, hdigits⟩ := List.forall_mem_cons.mp h
      rw [List.foldl_cons, List.length_cons, Nat.pow_succ']
      calc digits.foldl (fun n d => 10 * n + d) (10 * n + d)
          < (10 * n + d + 1) * 10 ^ digits.length := ih hdigits _
        _ ≤ ((n + 1) * 10) * 10 ^ digits.length := Nat.mul_le_mul_right _ (by omega)
        _ = (n + 1) * (10 * 10 ^ digits.length) := Nat.mul_assoc _ _ _

theorem mapM_decimalValue {s : Text} {digits : List Nat} (h : s.mapM decimalValue = some digits) :
    digits.length = s.length ∧ ∀ d ∈ digits, d < 10 := by
  induction s generalizing digits with
  | nil =>
      cases h
      exact ⟨rfl, fun _ hd => absurd hd List.not_mem_nil⟩
  | cons c s ih =>
      rw [List.mapM_cons] at h
      obtain ⟨d, hd, h⟩ := Option.bind_eq_some_iff.mp h
      obtain ⟨rest, hrest, h⟩ := Option.bind_eq_some_iff.mp h
      cases h
      obtain ⟨hlength, hlt⟩ := ih hrest
      exact ⟨congrArg (· + 1) hlength, List.forall_mem_cons.mpr ⟨decimalValue_lt hd, hlt⟩⟩

theorem lt_of_intOfDigits {s : Text} {n : Nat} (h : intOfDigits s = some n) :
    n < 10 ^ maxStrDigits := by
  obtain ⟨hlength, h⟩ := Option.ite_none_right_eq_some.mp h
  obtain ⟨digits, hdigits, rfl⟩ := Option.map_eq_some_iff.mp h
  obtain ⟨hsame, hlt⟩ := mapM_decimalValue hdigits
  calc digits.foldl (fun n d => 10 * n + d) 0 < (0 + 1) * 10 ^ digits.length :=
        foldl_digits_lt hlt 0
    _ = 10 ^ s.length := by rw [hsame, Nat.zero_add, Nat.one_mul]
    _ ≤ 10 ^ maxStrDigits := Nat.pow_le_pow_right (by decide) hlength

/-- What `int` has read, `str` can write. -/
theorem short_of_intOfText {s : Text} {n : Int} (h : intOfText s = some n) :
    (strOfNat n.natAbs).length ≤ maxStrDigits := by
  obtain ⟨-, h⟩ := Option.ite_none_right_eq_some.mp h
  obtain ⟨m, hm, rfl⟩ := Option.map_eq_some_iff.mp h
  obtain ⟨k, hk, hm⟩ := Option.bind_eq_some_iff.mp hm
  cases hm
  have habs : ∀ b : Prop, [Decidable b] → (if b then -(k : Int) else k).natAbs = k := by
    intro b _
    split <;> omega
  rw [habs]
  exact length_strOfNat_le (by decide) (lt_of_intOfDigits hk)

end PyText
