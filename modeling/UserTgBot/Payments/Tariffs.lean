import Mathlib.Algebra.Order.Field.Rat

/-!
# Tariffs and durations

The tables of `shared/tariffs.py` and the price before fees. Floating-point amounts are
rational numbers here.
-/

namespace UserTgBot.Payments

inductive Tariff where
  | standard
  | pro
  | premium
deriving DecidableEq, Repr

/-- `Tariff(value)`; nothing if it raises a `ValueError`. -/
def Tariff.ofValue? : String → Option Tariff
  | "standard" => some .standard
  | "pro" => some .pro
  | "premium" => some .premium
  | _ => none

structure TariffPlan where
  tariff : Tariff
  title : String
  profitUah : ℚ
  checkQuota : Nat
  hasAutoresponder : Bool
  hasSend : Bool := false
  sendCooldownSeconds : Nat := 0
  sendMaxCount : Nat := 0
  available : Bool := true
deriving DecidableEq

def PLANS : Tariff → TariffPlan
  | .standard =>
      { tariff := .standard, title := "Standard", profitUah := 50, checkQuota := 5
        hasAutoresponder := false }
  | .pro =>
      { tariff := .pro, title := "Pro", profitUah := 150, checkQuota := 10
        hasAutoresponder := true, hasSend := true, sendCooldownSeconds := 600
        sendMaxCount := 50 }
  | .premium =>
      { tariff := .premium, title := "Premium", profitUah := 500, checkQuota := 30
        hasAutoresponder := true, hasSend := true, sendCooldownSeconds := 120
        sendMaxCount := 100 }

def getPlan (tariff : String) : Option TariffPlan := (Tariff.ofValue? tariff).map PLANS

inductive Duration where
  | month
  | quarter
  | year
deriving DecidableEq, Repr

def Duration.ofValue? : String → Option Duration
  | "1m" => some .month
  | "3m" => some .quarter
  | "1y" => some .year
  | _ => none

structure DurationOption where
  code : Duration
  days : Int
  multiplier : ℚ
  nominalMonths : ℚ
deriving DecidableEq

def DURATIONS : Duration → DurationOption
  | .month => ⟨.month, 30, 1, 1⟩
  | .quarter => ⟨.quarter, 90, 3, 3⟩
  | .year => ⟨.year, 365, 10, 12⟩

def getDuration (code : String) : Option DurationOption := (Duration.ofValue? code).map DURATIONS

/-- `effective_profit_uah`: the bigger of the two discounts, never both. -/
def effectiveProfitUah (baseProfitUah : ℚ) (opt : DurationOption) (referralDiscountPct : ℚ) : ℚ :=
  min (baseProfitUah * opt.multiplier)
    (baseProfitUah * opt.nominalMonths * (1 - referralDiscountPct / 100))

end UserTgBot.Payments
