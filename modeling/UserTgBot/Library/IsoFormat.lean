import UserTgBot.Library.PaddedDecimal

/-!
# ISO timestamps

`datetime.isoformat` of a naive datetime, and `datetime.fromisoformat` for the texts that it
makes. The fraction is left out if it is zero.
-/

namespace PyText

/-- `calendar.monthrange(year, month)[1]`. -/
def daysInMonth (year month : Nat) : Nat :=
  if month = 2 then
    if year % 4 = 0 ∧ (year % 100 ≠ 0 ∨ year % 400 = 0) then 29 else 28
  else if month ∈ [4, 6, 9, 11] then 30
  else 31

/-- The fields of a `datetime` without `tzinfo`. -/
structure Timestamp where
  year : Nat
  month : Nat
  day : Nat
  hour : Nat
  minute : Nat
  second : Nat
  microsecond : Nat
  valid : (1 ≤ year ∧ year < 10000) ∧ (1 ≤ month ∧ month ≤ 12) ∧
    (1 ≤ day ∧ day ≤ daysInMonth year month) ∧ hour < 24 ∧ minute < 60 ∧ second < 60 ∧
      microsecond < 1000000
deriving DecidableEq

theorem daysInMonth_le (year month : Nat) : daysInMonth year month ≤ 31 := by
  rw [daysInMonth]
  split_ifs <;> omega

/-! ## Reading -/

/-- The next character. -/
def literal (c : Char) : Text → Option Text
  | c' :: s => if c' = ofChar c then some s else none
  | [] => none

def digitOf (c : CodePoint) : Option Nat :=
  if 0x30 ≤ c.val ∧ c.val ≤ 0x39 then some (c.val - 0x30) else none

/-- The number in the next `width` digits, after the digits that make `n`. -/
def decimal : Nat → Nat → Text → Option (Nat × Text)
  | 0, n, s => some (n, s)
  | _ + 1, _, [] => none
  | width + 1, n, c :: s => (digitOf c).bind fun d => decimal width (10 * n + d) s

theorem literal_cons (c : Char) (s : Text) : literal c (ofChar c :: s) = some s := if_pos rfl

theorem digitOf_digit (n : Nat) : digitOf (digit n) = some (n % 10) := by
  have hlt : n % 10 < 10 := Nat.mod_lt n (by decide)
  rw [digitOf, if_pos]
  · show some (0x30 + n % 10 - 0x30) = some (n % 10)
    rw [Nat.add_sub_cancel_left]
  · show 0x30 ≤ 0x30 + n % 10 ∧ 0x30 + n % 10 ≤ 0x39
    omega

/-- Of the digits of two numbers, one after the other, the first are read first. -/
theorem decimal_append {width : Nat} (more n : Nat) (s t : Text) (length : s.length = width) :
    decimal (width + more) n (s ++ t) =
      (decimal width n s).bind fun read => decimal more read.1 t := by
  induction width generalizing n s with
  | zero =>
      rw [List.length_eq_zero_iff.mp length, Nat.zero_add]
      rfl
  | succ width ih =>
      cases s with
      | nil => cases length
      | cons c s =>
          rw [Nat.add_right_comm, List.cons_append, decimal, decimal]
          cases digitOf c with
          | none => rfl
          | some d => exact ih (10 * n + d) s (Nat.succ.inj length)

/-- A padded number is read back. -/
theorem decimal_padded {width n : Nat} (fits : n < 10 ^ width) (before : Nat) (s : Text) :
    decimal width before (padded width n ++ s) = some (before * 10 ^ width + n, s) := by
  induction width generalizing n s with
  | zero =>
      have hzero : n = 0 := by omega
      rw [hzero, padded, decimal, pow_zero, Nat.mul_one]
      rfl
  | succ width ih =>
      have hfits : n / 10 < 10 ^ width := by
        rw [pow_succ] at fits
        omega
      have hfirst := ih hfits []
      rw [List.append_nil] at hfirst
      rw [padded, List.append_assoc, decimal_append 1 before _ _ (length_padded width (n / 10)),
        hfirst, Option.bind_some, List.singleton_append, decimal, digitOf_digit, Option.bind_some,
        decimal]
      refine congrArg some (Prod.ext ?_ rfl)
      show 10 * (before * 10 ^ width + n / 10) + n % 10 = before * 10 ^ (width + 1) + n
      have hdiv := Nat.div_add_mod n 10
      rw [pow_succ, Nat.mul_add, Nat.add_assoc, hdiv]
      ring

namespace Timestamp

/-- A field of two digits after its separator. -/
def part (c : Char) (n : Nat) (rest : Text) : Text := ofChar c :: (padded 2 n ++ rest)

/-- The fraction of a second. -/
def fraction (microsecond : Nat) : Text :=
  if microsecond = 0 then [] else ofChar '.' :: padded 6 microsecond

/-- `isoformat()`. -/
def isoformat (t : Timestamp) : Text :=
  padded 4 t.year ++ part '-' t.month (part '-' t.day (part 'T' t.hour
    (part ':' t.minute (part ':' t.second (fraction t.microsecond)))))

def readPart (c : Char) (s : Text) : Option (Nat × Text) := (literal c s).bind (decimal 2 0)

def readFraction : Text → Option (Nat × Text)
  | [] => some (0, [])
  | s => (literal '.' s).bind (decimal 6 0)

/-- `datetime.fromisoformat`, for what `isoformat` makes. -/
def fromisoformat (s : Text) : Option Timestamp := do
  let (year, s) ← decimal 4 0 s
  let (month, s) ← readPart '-' s
  let (day, s) ← readPart '-' s
  let (hour, s) ← readPart 'T' s
  let (minute, s) ← readPart ':' s
  let (second, s) ← readPart ':' s
  let (microsecond, s) ← readFraction s
  if valid : s = [] ∧ (1 ≤ year ∧ year < 10000) ∧ (1 ≤ month ∧ month ≤ 12) ∧
      (1 ≤ day ∧ day ≤ daysInMonth year month) ∧ hour < 24 ∧ minute < 60 ∧ second < 60 ∧
        microsecond < 1000000 then
    some ⟨year, month, day, hour, minute, second, microsecond, valid.2⟩
  else none

theorem readPart_part {n : Nat} (lt : n < 100) (c : Char) (rest : Text) :
    readPart c (part c n rest) = some (n, rest) := by
  rw [readPart, part, literal_cons, Option.bind_some, decimal_padded lt, Nat.zero_mul,
    Nat.zero_add]

theorem readFraction_fraction {microsecond : Nat} (lt : microsecond < 1000000) :
    readFraction (fraction microsecond) = some (microsecond, []) := by
  by_cases hzero : microsecond = 0
  · rw [fraction, if_pos hzero, hzero]
    rfl
  · have hread : decimal 6 0 (padded 6 microsecond ++ []) = some (0 * 10 ^ 6 + microsecond, []) :=
      decimal_padded lt 0 []
    rw [List.append_nil, Nat.zero_mul, Nat.zero_add] at hread
    rw [fraction, if_neg hzero, readFraction, literal_cons, Option.bind_some, hread]
    exact List.cons_ne_nil _ _

/-- A timestamp survives as its text. -/
theorem fromisoformat_isoformat (t : Timestamp) : fromisoformat t.isoformat = some t := by
  obtain ⟨hyear, hmonth, hday, hhour, hminute, hsecond, hmicrosecond⟩ := t.valid
  have hlast := daysInMonth_le t.year t.month
  have hread : decimal 4 0 t.isoformat = some (t.year, part '-' t.month (part '-' t.day
      (part 'T' t.hour (part ':' t.minute (part ':' t.second (fraction t.microsecond)))))) := by
    rw [isoformat, decimal_padded hyear.2, Nat.zero_mul, Nat.zero_add]
  simp only [fromisoformat, hread, Option.bind_eq_bind, Option.bind_some,
    readPart_part (show t.month < 100 by omega), readPart_part (show t.day < 100 by omega),
    readPart_part (show t.hour < 100 by omega), readPart_part (show t.minute < 100 by omega),
    readPart_part (show t.second < 100 by omega), readFraction_fraction hmicrosecond]
  exact dif_pos ⟨trivial, t.valid⟩

end Timestamp

end PyText
