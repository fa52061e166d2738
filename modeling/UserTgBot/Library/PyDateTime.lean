import Mathlib.Data.Int.Notation

/-!
# Naive and aware datetimes

A Python `datetime` is a reading of a clock, in microseconds, and possibly the offset of that
clock from UTC. Aware datetimes are compared by the instant, naive ones by the reading, and
an order comparison of an aware one with a naive one raises a `TypeError`.
-/

structure PyDateTime where
  reading : Int
  utcOffset : Option Int
deriving DecidableEq, Repr

namespace PyDateTime

/-- A datetime without `tzinfo`. -/
def naive (reading : Int) : PyDateTime := ⟨reading, none⟩

/-- A datetime in `timezone.utc`. -/
def utc (instant : Int) : PyDateTime := ⟨instant, some 0⟩

/-- `dt.replace(tzinfo=timezone.utc)` unless `dt` is aware. -/
def asAware (dt : PyDateTime) : PyDateTime :=
  match dt.utcOffset with
  | some _ => dt
  | none => { dt with utcOffset := some 0 }

/-- `dt.replace(tzinfo=None)`. -/
def dropZone (dt : PyDateTime) : PyDateTime := { dt with utcOffset := none }

/-- `dt > dt'`; nothing if it raises. -/
def gt? (dt dt' : PyDateTime) : Option Bool :=
  match dt.utcOffset, dt'.utcOffset with
  | none, none => some (dt'.reading < dt.reading)
  | some offset, some offset' => some (dt'.reading - offset' < dt.reading - offset)
  | _, _ => none

@[simp] theorem dropZone_utc (instant : Int) : (utc instant).dropZone = naive instant := rfl

theorem gt?_naive (a b : Int) : (naive a).gt? (naive b) = some (b < a : Bool) := rfl

/-- A naive reading that counts as UTC is compared by what it reads. -/
theorem gt?_asAware_utc (a b : Int) : (naive a).asAware.gt? (utc b) = some (b < a : Bool) := by
  simp [naive, asAware, utc, gt?]

end PyDateTime
