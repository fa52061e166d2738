import Mathlib.Data.Prod.Lex
import Mathlib.Tactic.Common

/-!
# Dates

`datetime.date` with its order, and the calendar month of a date.
-/

def PyDate.isLeap (year : Nat) : Bool := year % 4 = 0 && (year % 100 != 0 || year % 400 = 0)

def PyDate.daysInMonth (year month : Nat) : Nat :=
  if month = 2 then if PyDate.isLeap year then 29 else 28
  else if month ∈ [4, 6, 9, 11] then 30
  else 31

structure PyDate where
  year : Nat
  month : Nat
  day : Nat
  month_pos : 1 ≤ month
  month_le : month ≤ 12
  day_mem : 1 ≤ day ∧ day ≤ PyDate.daysInMonth year month
deriving DecidableEq

namespace PyDate

variable {d d' : PyDate}

/-- The month that a date lies in. -/
def calendarMonth (d : PyDate) : ℕ ×ₗ ℕ := toLex (d.year, d.month)

def key (d : PyDate) : (ℕ ×ₗ ℕ) ×ₗ ℕ := toLex (d.calendarMonth, d.day)

theorem key_injective : Function.Injective key := by
  rintro ⟨year, month, day, hpos, hle, hday⟩ ⟨year', month', day', hpos', hle', hday'⟩ h
  obtain ⟨hcalendar, rfl⟩ := Prod.mk.inj (toLex.injective h)
  obtain ⟨rfl, rfl⟩ := Prod.mk.inj (toLex.injective hcalendar)
  rfl

instance : LinearOrder PyDate := LinearOrder.lift' key key_injective

theorem lt_iff : d < d' ↔ d.calendarMonth < d'.calendarMonth ∨
    d.calendarMonth = d'.calendarMonth ∧ d.day < d'.day :=
  Prod.Lex.toLex_lt_toLex

theorem calendarMonth_mono (h : d ≤ d') : d.calendarMonth ≤ d'.calendarMonth := by
  obtain hlt | ⟨heq, -⟩ := Prod.Lex.toLex_le_toLex.mp (show key d ≤ key d' from h)
  · exact hlt.le
  · exact heq.le

theorem one_le_daysInMonth (year month : Nat) : 1 ≤ daysInMonth year month := by
  rw [daysInMonth]
  split_ifs <;> omega

/-- `replace(day=1)`. -/
def monthStart (d : PyDate) : PyDate :=
  { d with day := 1, day_mem := ⟨le_rfl, one_le_daysInMonth _ _⟩ }

@[simp] theorem calendarMonth_monthStart : d.monthStart.calendarMonth = d.calendarMonth := rfl

theorem monthStart_lt_iff :
    d.monthStart < d'.monthStart ↔ d.calendarMonth < d'.calendarMonth := by
  rw [lt_iff]
  exact or_iff_left fun h => lt_irrefl 1 h.2

end PyDate
