import Mathlib.Algebra.Order.ToIntervalMod
import Mathlib.Algebra.Order.Archimedean.Basic

/-!
# Times of day

Python's `datetime.time` and half-open arcs of a circle. On the circle of circumference `p` the
arc from `a` to `b` holds what comes, going on from `a`, before `b`. On times of day written as
numbers below `p` this is an interval, or the complement of one where the arc passes
midnight.
-/

namespace Arc

universe u

variable {α : Type u} [AddCommGroup α] [LinearOrder α] [IsOrderedAddMonoid α] [Archimedean α]
variable {p a b t : α}

/-- Going on from `a`, `t` is passed before `b`. -/
def Between (hp : 0 < p) (a b t : α) : Prop := toIcoMod hp a t < toIcoMod hp a b

theorem toIcoMod_of_le (hp : 0 < p) (ha : 0 ≤ a) (hle : a ≤ t) (ht : t < p) :
    toIcoMod hp a t = t :=
  (toIcoMod_eq_self hp).mpr ⟨hle, ht.trans_le (le_add_of_nonneg_left ha)⟩

theorem toIcoMod_of_lt (hp : 0 < p) (ha : a < p) (ht : 0 ≤ t) (hlt : t < a) :
    toIcoMod hp a t = t + p := by
  rw [← toIcoMod_add_right]
  exact (toIcoMod_eq_self hp).mpr
    ⟨ha.le.trans (le_add_of_nonneg_left ht), add_lt_add_left hlt p⟩

/-- An arc that does not pass zero. -/
theorem between_iff_of_lt (hp : 0 < p) (ha : 0 ≤ a) (hb : b < p) (h : a < b) (ht : 0 ≤ t)
    (htp : t < p) : Between hp a b t ↔ a ≤ t ∧ t < b := by
  rw [Between, toIcoMod_of_le hp ha h.le hb]
  by_cases hle : a ≤ t
  · rw [toIcoMod_of_le hp ha hle htp]
    exact (and_iff_right hle).symm
  · have hout : ¬t + p < b := not_lt.mpr (hb.le.trans (le_add_of_nonneg_left ht))
    rw [toIcoMod_of_lt hp (h.trans hb) ht (not_le.mp hle)]
    exact iff_of_false hout fun hin => hle hin.1

/-- An arc that passes zero. -/
theorem between_iff_of_gt (hp : 0 < p) (ha : a < p) (hb : 0 ≤ b) (h : b < a) (ht : 0 ≤ t)
    (htp : t < p) : Between hp a b t ↔ a ≤ t ∨ t < b := by
  rw [Between, toIcoMod_of_lt hp ha hb h]
  by_cases hle : a ≤ t
  · rw [toIcoMod_of_le hp (hb.trans h.le) hle htp]
    exact iff_of_true (htp.trans_le (le_add_of_nonneg_left hb)) (.inl hle)
  · rw [toIcoMod_of_lt hp ha ht (not_le.mp hle), add_lt_add_iff_right]
    exact (or_iff_right hle).symm

/-- The arcs between two different points are complementary. -/
theorem between_swap (hp : 0 < p) (ha : 0 ≤ a) (hap : a < p) (hb : 0 ≤ b) (hbp : b < p)
    (hne : a ≠ b) (ht : 0 ≤ t) (htp : t < p) : Between hp b a t ↔ ¬Between hp a b t := by
  obtain hlt | hgt := lt_or_gt_of_ne hne
  · rw [between_iff_of_lt hp ha hbp hlt ht htp, between_iff_of_gt hp hbp ha hlt ht htp,
      not_and_or, not_le, not_lt, or_comm]
  · rw [between_iff_of_gt hp hap hb hgt ht htp, between_iff_of_lt hp hb hap hgt ht htp, not_or,
      not_le, not_lt, and_comm]

end Arc

/-- A `datetime.time` without `tzinfo`. -/
structure PyTime where
  hour : Fin 24
  minute : Fin 60
  second : Fin 60
  microsecond : Fin 1000000
deriving DecidableEq, Repr

namespace PyTime

def midnight : PyTime := ⟨0, 0, 0, 0⟩

/-- The number of microseconds in a day. -/
def day : Int := 86400000000

theorem day_pos : 0 < day := by decide

/-- The microseconds since midnight. -/
def micros (t : PyTime) : Int :=
  ((t.hour * 60 + t.minute) * 60 + t.second) * 1000000 + t.microsecond

theorem micros_nonneg (t : PyTime) : 0 ≤ t.micros := by
  rw [micros]
  omega

theorem micros_lt (t : PyTime) : t.micros < day := by
  rw [micros, day]
  omega

theorem micros_injective : Function.Injective micros := by
  rintro ⟨h, m, s, us⟩ ⟨h', m', s', us'⟩ heq
  simp only [micros] at heq
  rw [mk.injEq]
  omega

/-- Times are compared by hour, minute, second and microsecond in this order. -/
instance : LinearOrder PyTime := LinearOrder.lift' micros micros_injective

theorem lt_iff {t t' : PyTime} : t < t' ↔ t.micros < t'.micros := .rfl

/-- `time(hour, minute)`; `none` is a `ValueError`. -/
def ofHourMinute (hour minute : Int) : Option PyTime :=
  if h : (0 ≤ hour ∧ hour < 24) ∧ 0 ≤ minute ∧ minute < 60 then
    some ⟨⟨hour.toNat, by omega⟩, ⟨minute.toNat, by omega⟩, 0, 0⟩
  else none

/-- A time of day that is given by its hour and its minute. -/
theorem ofHourMinute_natCast {hour minute : Nat} (hhour : hour < 24) (hminute : minute < 60) :
    ofHourMinute hour minute = some ⟨⟨hour, hhour⟩, ⟨minute, hminute⟩, 0, 0⟩ := by
  rw [ofHourMinute, dif_pos (by omega)]
  rfl

/-- The moment comes, going on from `start`, before `stop`. -/
def Between (start stop t : PyTime) : Prop :=
  Arc.Between day_pos start.micros stop.micros t.micros

theorem between_iff_of_lt {start stop t : PyTime} (h : start < stop) :
    Between start stop t ↔ start ≤ t ∧ t < stop :=
  Arc.between_iff_of_lt day_pos start.micros_nonneg stop.micros_lt h t.micros_nonneg t.micros_lt

theorem between_iff_of_gt {start stop t : PyTime} (h : stop < start) :
    Between start stop t ↔ start ≤ t ∨ t < stop :=
  Arc.between_iff_of_gt day_pos start.micros_lt stop.micros_nonneg h t.micros_nonneg t.micros_lt

theorem between_swap {start stop : PyTime} (hne : start ≠ stop) (t : PyTime) :
    Between stop start t ↔ ¬Between start stop t :=
  Arc.between_swap day_pos start.micros_nonneg start.micros_lt stop.micros_nonneg stop.micros_lt
    (fun heq => hne (micros_injective heq)) t.micros_nonneg t.micros_lt

end PyTime
