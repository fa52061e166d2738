import Mathlib
import UserTgBot.Library.Rounding
import UserTgBot.Payments.Subscriptions

/-!
# Prices

`compute_prices` of `shared/pricing.py` and what the two payment handlers charge, in exact
arithmetic. The price before fees is the smaller of two discounted prices, each charge is that
price grossed up by the fee of its channel, and then rounded up. Every one of these steps is
monotone, and none of them goes below the net amount.
-/

namespace UserTgBot.Payments

open Rounding

def CRYPTO_FEE : ℚ := 3 / 100

def STARS_NET_USD_PER_STAR : ℚ := 13 / 1000

def STARS_ROUND_STEP : Int := 50

/-- `round(value, 1)`, a tie to the even neighbour. -/
def roundTenths (value : ℚ) : ℚ :=
  let low := ⌊value * 10⌋
  let rest := value * 10 - low
  (if rest < 1 / 2 ∨ rest = 1 / 2 ∧ low % 2 = 0 then low else low + 1 : Int) / 10

def ceilTenths (value : ℚ) : ℚ := ⌈value * 10⌉ / 10

structure PriceBreakdown where
  profitUah : ℚ
  usdNet : ℚ
  usdtInvoice : ℚ
  stars : Int
deriving DecidableEq

/-- `compute_prices` with the rate given, or with the live one; rates are positive. -/
def computePrices (profitUah rate : ℚ) : PriceBreakdown :=
  let usdNet := profitUah / rate
  let usdtInvoice := usdNet / (1 - CRYPTO_FEE)
  let stars := usdNet / STARS_NET_USD_PER_STAR
  { profitUah
    usdNet := roundTenths usdNet
    usdtInvoice := ceilTenths usdtInvoice
    stars := max STARS_ROUND_STEP (⌈stars / STARS_ROUND_STEP⌉ * STARS_ROUND_STEP) }

/-- The answer to a tap on a payment button. -/
inductive Charge where
  | unavailable
  /-- `_grant_free`. -/
  | free
  | stars (amount : Int)
  | usdt (amount : ℚ)
deriving DecidableEq

/-- The amount that `on_pay_stars` and `on_pay_crypto` ask for. -/
def charge (channel : Channel) (plan : TariffPlan) (opt : DurationOption)
    (discount rate : ℚ) : Charge :=
  if !plan.available then .unavailable
  else
    let effective := effectiveProfitUah plan.profitUah opt discount
    if effective ≤ 0 then .free
    else
      let prices := computePrices effective rate
      match channel with
      | .stars => .stars prices.stars
      | .crypto => .usdt prices.usdtInvoice

section Effective

variable {b b' d d' : ℚ} {opt : DurationOption}

/-- The durations that a table may hold: none is dearer than its months. -/
structure DurationOption.Fair (opt : DurationOption) : Prop where
  pos : 0 < opt.multiplier
  le : opt.multiplier ≤ opt.nominalMonths

theorem DURATIONS_fair (code : Duration) : (DURATIONS code).Fair := by
  cases code with
  | month => exact ⟨by decide +kernel, by decide +kernel⟩
  | quarter => exact ⟨by decide +kernel, by decide +kernel⟩
  | year => exact ⟨by decide +kernel, by decide +kernel⟩

theorem DurationOption.Fair.nominalMonths_pos (h : opt.Fair) : 0 < opt.nominalMonths :=
  h.pos.trans_le h.le

theorem effectiveProfitUah_nonneg (hb : 0 < b) (hopt : opt.Fair) (hd : d ≤ 100) :
    0 ≤ effectiveProfitUah b opt d := by
  have hkept : 0 ≤ 1 - d / 100 := by linarith
  apply le_min
  · exact (mul_pos hb hopt.pos).le
  · exact mul_nonneg (mul_pos hb hopt.nominalMonths_pos).le hkept

/-- Free means a discount of the whole price. -/
theorem effectiveProfitUah_nonpos_iff (hb : 0 < b) (hopt : opt.Fair) (hd : d ≤ 100) :
    effectiveProfitUah b opt d ≤ 0 ↔ d = 100 := by
  have hduration : 0 < b * opt.multiplier := mul_pos hb hopt.pos
  have hnominal : 0 < b * opt.nominalMonths := mul_pos hb hopt.nominalMonths_pos
  constructor
  · intro h
    obtain h | h := min_le_iff.mp h
    · exact absurd h (not_le.mpr hduration)
    · have hkept : 1 - d / 100 ≤ 0 := nonpos_of_mul_nonpos_right h hnominal
      linarith
  · intro h
    apply min_le_of_right_le
    rw [h]
    norm_num

theorem effectiveProfitUah_mono (hb : 0 < b) (hopt : opt.Fair) (hd : d ≤ 100) (hbb : b ≤ b')
    (hdd : d' ≤ d) : effectiveProfitUah b opt d ≤ effectiveProfitUah b' opt d' := by
  have hkept : 0 ≤ 1 - d / 100 := by linarith
  have hkept' : 1 - d / 100 ≤ 1 - d' / 100 := by linarith
  have hnominal : b * opt.nominalMonths ≤ b' * opt.nominalMonths :=
    mul_le_mul_of_nonneg_right hbb hopt.nominalMonths_pos.le
  apply min_le_min
  · exact mul_le_mul_of_nonneg_right hbb hopt.pos.le
  · apply mul_le_mul hnominal hkept' hkept
    exact mul_nonneg (hb.le.trans hbb) hopt.nominalMonths_pos.le

end Effective

section Prices

variable {e e' r r' : ℚ}

theorem ceilTenths_eq (value : ℚ) : ceilTenths value = ceilTo (1 / 10) value := by
  rw [ceilTenths, ceilTo, div_div_eq_mul_div, div_one, mul_one_div]

/-- The exact number of stars, before it is rounded. -/
def exactStars (e r : ℚ) : ℚ := e / r / STARS_NET_USD_PER_STAR

def exactInvoice (e r : ℚ) : ℚ := e / r / (1 - CRYPTO_FEE)

theorem usdtInvoice_eq : (computePrices e r).usdtInvoice = ceilTo (1 / 10) (exactInvoice e r) :=
  ceilTenths_eq _

theorem stars_eq_max : (computePrices e r).stars =
    max STARS_ROUND_STEP (⌈exactStars e r / STARS_ROUND_STEP⌉ * STARS_ROUND_STEP) := rfl

theorem stars_eq : ((computePrices e r).stars : ℚ) =
    max (STARS_ROUND_STEP : ℚ) (ceilTo (STARS_ROUND_STEP : ℚ) (exactStars e r)) := by
  rw [stars_eq_max, Int.cast_max, Int.cast_mul]
  rfl

theorem invoiceKept_pos : 0 < 1 - CRYPTO_FEE := by decide +kernel

theorem starNet_pos : 0 < STARS_NET_USD_PER_STAR := by decide +kernel

theorem roundStep_pos : (0 : ℚ) < STARS_ROUND_STEP := by decide +kernel

theorem tenth_pos : (0 : ℚ) < 1 / 10 := by decide +kernel

/-- What Crypto Pay leaves of the invoice. -/
theorem invoice_net (e r : ℚ) : e / r ≤ (computePrices e r).usdtInvoice * (1 - CRYPTO_FEE) := by
  rw [← div_le_iff₀ invoiceKept_pos, usdtInvoice_eq]
  exact le_ceilTo tenth_pos

/-- What the withdrawal leaves of the stars. -/
theorem stars_net (e r : ℚ) : e / r ≤ (computePrices e r).stars * STARS_NET_USD_PER_STAR := by
  rw [← div_le_iff₀ starNet_pos, stars_eq]
  apply le_max_of_le_right
  exact le_ceilTo roundStep_pos

theorem stars_pos (e r : ℚ) : 0 < (computePrices e r).stars :=
  lt_max_of_lt_left (by decide)

theorem stars_dvd (e r : ℚ) : STARS_ROUND_STEP ∣ (computePrices e r).stars := by
  obtain hmin | hgrid := max_choice STARS_ROUND_STEP
    (⌈exactStars e r / STARS_ROUND_STEP⌉ * STARS_ROUND_STEP)
  · rw [stars_eq_max, hmin]
  · rw [stars_eq_max, hgrid]
    exact dvd_mul_left _ _

theorem stars_lt (h : (computePrices e r).stars ≠ STARS_ROUND_STEP) :
    (computePrices e r).stars < exactStars e r + STARS_ROUND_STEP := by
  obtain hmin | hgrid := max_choice STARS_ROUND_STEP
    (⌈exactStars e r / STARS_ROUND_STEP⌉ * STARS_ROUND_STEP)
  · exact absurd (stars_eq_max.trans hmin) h
  · rw [stars_eq_max, hgrid, Int.cast_mul]
    exact ceilTo_lt roundStep_pos

theorem netUsd_mono (he : 0 ≤ e) (hee : e ≤ e') (hr' : 0 < r') (hrr : r' ≤ r) :
    e / r ≤ e' / r' :=
  div_le_div₀ (he.trans hee) hee hr' hrr

theorem usdtInvoice_mono (he : 0 ≤ e) (hee : e ≤ e') (hr' : 0 < r') (hrr : r' ≤ r) :
    (computePrices e r).usdtInvoice ≤ (computePrices e' r').usdtInvoice := by
  rw [usdtInvoice_eq, usdtInvoice_eq]
  apply ceilTo_mono tenth_pos
  apply div_le_div_of_nonneg_right _ invoiceKept_pos.le
  exact netUsd_mono he hee hr' hrr

theorem stars_mono (he : 0 ≤ e) (hee : e ≤ e') (hr' : 0 < r') (hrr : r' ≤ r) :
    (computePrices e r).stars ≤ (computePrices e' r').stars := by
  rw [← Int.cast_le (R := ℚ), stars_eq, stars_eq]
  apply max_le_max_left
  apply ceilTo_mono roundStep_pos
  apply div_le_div_of_nonneg_right _ starNet_pos.le
  exact netUsd_mono he hee hr' hrr

theorem charge_eq_free_iff {channel : Channel} {plan : TariffPlan} {opt : DurationOption} {d : ℚ}
    (h : plan.available = true) :
    charge channel plan opt d r = .free ↔ effectiveProfitUah plan.profitUah opt d ≤ 0 := by
  have hgate : (!plan.available) = false := by rw [h]; rfl
  rw [charge, hgate, if_neg Bool.false_ne_true]
  by_cases he : effectiveProfitUah plan.profitUah opt d ≤ 0
  · exact iff_of_true (if_pos he) he
  · refine iff_of_false (fun hfree => ?_) he
    rw [if_neg he] at hfree
    cases channel with
    | stars => cases hfree
    | crypto => cases hfree

/-- What the tap leaves in the shop: a granted subscription if it is free, else one that waits
for the payment. -/
theorem payTap_eq {m : Shop} {channel : Channel} {telegramId : Int} {tariffId durCode : String}
    {plan : TariffPlan} {opt : DurationOption} {d : ℚ} (hplan : getPlan tariffId = some plan)
    (hopt : getDuration durCode = some opt) :
    m.payTap channel telegramId tariffId durCode d =
      let created := m.createPending telegramId tariffId channel.providerName opt.days
      match charge channel plan opt d r with
      | .unavailable => m
      | .free => m.grantFree telegramId tariffId opt.days
      | .stars _ => created
      | .usdt _ => { created with invoicing := created.invoicing ++ [m.subs.length] } := by
  simp only [Shop.payTap, hplan, hopt, charge]
  by_cases hgate : (!plan.available) = true
  · rw [if_pos hgate, if_pos hgate]
  · rw [if_neg hgate, if_neg hgate]
    by_cases he : effectiveProfitUah plan.profitUah opt d ≤ 0
    · rw [if_pos he, if_pos he]
    · rw [if_neg he, if_neg he]
      cases channel with
      | stars => rfl
      | crypto => rfl

end Prices

/-- What is guaranteed of a price and of the two charges for it. -/
structure Guaranteed (b : ℚ) (opt : DurationOption) (d r e : ℚ) (p : PriceBreakdown) : Prop where
  nonneg : 0 ≤ e
  le_duration : e ≤ b * opt.multiplier
  le_referral : e ≤ b * opt.nominalMonths * (1 - d / 100)
  /-- Discounts never stack. -/
  one_discount : e = b * opt.multiplier ∨ e = b * opt.nominalMonths * (1 - d / 100)
  free : e ≤ 0 ↔ d = 100
  invoice_net : e / r ≤ p.usdtInvoice * (1 - CRYPTO_FEE)
  stars_net : e / r ≤ p.stars * STARS_NET_USD_PER_STAR
  le_invoice : exactInvoice e r ≤ p.usdtInvoice
  invoice_lt : p.usdtInvoice < exactInvoice e r + 1 / 10
  stars_pos : 0 < p.stars
  stars_dvd : STARS_ROUND_STEP ∣ p.stars
  le_stars : exactStars e r ≤ p.stars
  stars_lt : p.stars = STARS_ROUND_STEP ∨ p.stars < exactStars e r + STARS_ROUND_STEP

/-- Both charges leave at least the net price, with discounts that never stack and roundings
of less than one step; a tap is free exactly for a discount of the whole price; and both
charges grow with the price and fall with the discount and the rate. -/
theorem profit_guaranteed {b d r : ℚ} {opt : DurationOption} (hb : 0 < b) (hopt : opt.Fair)
    (hd : d ≤ 100) :
    Guaranteed b opt d r (effectiveProfitUah b opt d)
        (computePrices (effectiveProfitUah b opt d) r) ∧
      (∀ channel plan, plan.profitUah = b → plan.available = true →
        (charge channel plan opt d r = .free ↔ d = 100)) ∧
      ∀ b' d' r', b ≤ b' → d' ≤ d → 0 < r' → r' ≤ r →
        (computePrices (effectiveProfitUah b opt d) r).usdtInvoice ≤
            (computePrices (effectiveProfitUah b' opt d') r').usdtInvoice ∧
          (computePrices (effectiveProfitUah b opt d) r).stars ≤
            (computePrices (effectiveProfitUah b' opt d') r').stars := by
  have he := effectiveProfitUah_nonneg hb hopt hd
  have hfree := effectiveProfitUah_nonpos_iff hb hopt hd
  refine ⟨⟨he, min_le_left _ _, min_le_right _ _, min_choice _ _, hfree, invoice_net _ _,
    stars_net _ _, ?_, ?_, ?_, ?_, ?_, ?_⟩, ?_, ?_⟩
  · rw [usdtInvoice_eq]
    exact le_ceilTo tenth_pos
  · rw [usdtInvoice_eq]
    exact ceilTo_lt tenth_pos
  · exact stars_pos _ _
  · exact stars_dvd _ _
  · rw [stars_eq]
    apply le_max_of_le_right
    exact le_ceilTo roundStep_pos
  · exact or_iff_not_imp_left.mpr stars_lt
  · rintro channel plan rfl havailable
    rw [← hfree]
    exact charge_eq_free_iff havailable
  · intro b' d' r' hbb hdd hr' hrr
    have hee := effectiveProfitUah_mono hb hopt hd hbb hdd
    exact ⟨usdtInvoice_mono he hee hr' hrr, stars_mono he hee hr' hrr⟩

/-- A year of Pro with a discount of a tenth: the discount of the year is the bigger one. -/
theorem proYear_guaranteed :
    (DURATIONS .year).Fair ∧
      Guaranteed 150 (DURATIONS .year) 10 (4474 / 100)
        (effectiveProfitUah 150 (DURATIONS .year) 10)
        (computePrices (effectiveProfitUah 150 (DURATIONS .year) 10) (4474 / 100)) ∧
      (computePrices (effectiveProfitUah 150 (DURATIONS .year) 10) (4474 / 100)).stars = 2600 :=
  ⟨DURATIONS_fair .year,
    (profit_guaranteed (by norm_num) (DURATIONS_fair .year) (by norm_num)).1,
    by decide +kernel⟩

end UserTgBot.Payments
