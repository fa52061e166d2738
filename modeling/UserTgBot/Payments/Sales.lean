import UserTgBot.Payments.Pricing
import UserTgBot.Payments.Readers

/-!
# Links, prices and payments

A subscription from the referral link to the payment: `show_dashboard` attributes a user to a link
(`management_bot/handlers/start.py`, `shared/referrals.py`), the payment handlers read the link's
discount, quote a price and open a row (`handlers/subscribe.py`, `management_bot/subscriptions.py`),
and the admin panel makes links, changes their discounts, grants, revokes and deletes
(`admin_web/service.py`).

Updates are handled as concurrent tasks, so whatever lies between two awaits of the database or of
a provider is a step of its own. A transaction that writes rows it has not locked by reading them
writes at its commit; what it has read may be out of date by then. Rows keep their keys and keys
are never used again. Rates and prices are exact rationals, where the code computes with floats.
-/

namespace UserTgBot.Payments

open Transition

/-- A run of `show_dashboard` behind `upsert_user`. -/
structure StartHandler where
  telegramId : Int
  referralCode : Option String
  /-- The row that `upsert_user` has found. -/
  user : Option Account
  /-- What `attribute_user` sets, once it has looked for the link. -/
  link : Option (Option Nat)
deriving DecidableEq

/-- A tap on a payment button behind `get_discount_percent`. -/
structure PayTap where
  channel : Channel
  telegramId : Int
  tariffId : String
  durCode : String
  discount : Int
deriving DecidableEq

/-- What has come of a tap: an invoice over an amount, or a grant. -/
structure Offer where
  tap : PayTap
  /-- The rate that `compute_prices` got. -/
  rate : ℚ
  amount : Charge
  sub : Nat
deriving DecidableEq

/-- A run of `create_referral_link` behind its checks. -/
structure LinkDraft where
  code : String
  label : Option String
  discountPercent : Int
deriving DecidableEq

structure Sales where
  now : DateTime
  accounts : List Account := []
  nextUserId : Nat := 0
  links : List ReferralLink := []
  nextLinkId : Nat := 0
  subs : List SubscriptionRow := []
  nextSubId : Nat := 0
  starts : List StartHandler := []
  taps : List PayTap := []
  drafts : List LinkDraft := []
  offers : List Offer := []
  /-- The offers whose Crypto Pay invoice is being created. -/
  invoicing : List Nat := []
  /-- The invoices of Crypto Pay, with the offers they were created for. -/
  invoices : List (String × Nat) := []
  /-- The offers that have been paid. -/
  paid : List Nat := []
  /-- The rows whose check has been told that the invoice is paid. -/
  checks : List Nat := []
deriving DecidableEq

inductive SalesAction where
  | tick (elapsed : Nat)
  | start (telegramId : Int) (referralCode : Option String)
  | startLink (index : Nat)
  | startCommit (index : Nat)
  | startFails (index : Nat)
  | payTap (channel : Channel) (telegramId : Int) (tariffId durCode : String)
  | quote (index : Nat) (rate : ℚ)
  | quoteFails (index : Nat)
  | invoiceCreated (index : Nat) (invoiceId : String)
  | invoiceFails (index : Nat)
  /-- The buyer pays what an invoice asks for. -/
  | pay (offer : Nat)
  | successfulPayment (offer : Nat)
  | check (sub : Nat)
  | confirmCheck (index : Nat)
  | checkFails (index : Nat)
  | grant (telegramId : Int) (tariff : String) (days : Int)
  | revoke (telegramId : Int)
  | deleteUser (telegramId : Int)
  | createLink (code : String) (label : Option String) (discountPercent : Int)
  | createLinkCommit (index : Nat)
  | createLinkFails (index : Nat)
  | updateDiscount (code : String) (discountPercent : Int)
deriving DecidableEq

/-- `[A-Za-z0-9_-]`. -/
def isCodeChar (c : Char) : Bool := c.isAlphanum || c = '_' || c = '-'

/-- `_REFERRAL_CODE_RE.match`: its `$` is also before a line feed at the end. -/
def codeMatches (code : String) : Bool :=
  let chars := code.toList
  let body := if chars.getLast? = some '\n' then chars.dropLast else chars
  1 ≤ body.length && body.length ≤ 64 && body.all isCodeChar

namespace Sales

/-- `SELECT ... FROM users WHERE telegram_id = ...`. -/
def account? (s : Sales) (telegramId : Int) : Option Account :=
  s.accounts.find? fun account => account.telegramId = telegramId

/-- `get_link_by_code`. -/
def getLinkByCode (s : Sales) (code : String) : Option ReferralLink :=
  s.links.find? fun link => link.code = code

/-- `get_discount_percent`. -/
def getDiscountPercent (s : Sales) (telegramId : Int) : Int :=
  match (s.account? telegramId).bind Account.referredByLinkId with
  | none => 0
  | some linkId => ((s.links.find? fun link => link.id = linkId).map (·.discountPercent)).getD 0

/-- `upsert_user` in a transaction of its own: the user's id, of a new row if there is none. -/
def upsertUser (s : Sales) (telegramId : Int) : Sales × Nat :=
  match s.account? telegramId with
  | some account => (s, account.id)
  | none =>
      ({ s with
        accounts := s.accounts ++ [⟨s.nextUserId, telegramId, none⟩]
        nextUserId := s.nextUserId + 1 }, s.nextUserId)

/-! ## Attribution -/

/-- `show_dashboard` up to `attribute_user`. -/
def start (s : Sales) (telegramId : Int) (referralCode : Option String) : Sales :=
  { s with starts := s.starts ++ [⟨telegramId, referralCode, s.account? telegramId, none⟩] }

/-- `attribute_user` up to its flush: what it sets on the row. -/
def attributeUser (s : Sales) (handler : StartHandler) : Option Nat :=
  match handler.referralCode with
  | none => none
  | some code =>
      -- an empty code is no code
      if code = "" ∨ (handler.user.bind Account.referredByLinkId).isSome then none
      else (s.getLinkByCode code).map (·.id)

/-- The writes of `show_dashboard`: a new row, or the link of the one it has found. A row with the
same `telegram_id` makes the insertion raise, and without the row the update changes nothing. -/
def writeStart (s : Sales) (handler : StartHandler) (link : Option Nat) : Sales :=
  match handler.user with
  | none =>
      if (s.account? handler.telegramId).isSome then s
      else { s with
        accounts := s.accounts ++ [⟨s.nextUserId, handler.telegramId, link⟩]
        nextUserId := s.nextUserId + 1 }
  | some user =>
      match link with
      | none => s
      | some linkId => { s with
          accounts := s.accounts.map fun account =>
            if account.id = user.id then { account with referredByLinkId := some linkId }
            else account }

/-! ## Offers and payments -/

/-- `on_pay_stars` and `on_pay_crypto` up to `get_discount_percent`. -/
def payTap (s : Sales) (channel : Channel) (telegramId : Int) (tariffId durCode : String) : Sales :=
  match getPlan tariffId, getDuration durCode with
  | some plan, some _ =>
      if !plan.available then s
      else { s with
        taps := s.taps ++
          [⟨channel, telegramId, tariffId, durCode, s.getDiscountPercent telegramId⟩] }
  -- an unknown tariff or duration raises
  | _, _ => s

/-- `create_pending`. -/
def createPending (s : Sales) (telegramId : Int) (tariff providerName : String)
    (periodDays : Int) : Sales :=
  let (s, userId) := s.upsertUser telegramId
  let sub : Subscription :=
    { userId, tariff, paymentProvider := providerName, periodDays, createdAt := s.now }
  { s with subs := s.subs ++ [⟨sub, s.nextSubId⟩], nextSubId := s.nextSubId + 1 }

/-- `activate` on a row, if it is still there. -/
def activateRow (s : Sales) (sub : Nat) : Sales :=
  { s with
    subs := s.subs.map fun row =>
      if row.id = sub then ⟨activate s.now none row.toSubscription, row.id⟩ else row }

/-- What the payment handlers do with the price, up to the creation of a Crypto Pay invoice. -/
def quote (s : Sales) (tap : PayTap) (rate : ℚ) : Sales :=
  match getPlan tap.tariffId, getDuration tap.durCode with
  | some plan, some opt =>
      let amount := charge tap.channel plan opt tap.discount rate
      let offers := s.offers ++ [⟨tap, rate, amount, s.nextSubId⟩]
      match amount with
      | .unavailable => s
      | .free =>
          { (s.createPending tap.telegramId tap.tariffId "referral_free" opt.days).activateRow
              s.nextSubId with offers }
      | .stars _ =>
          { s.createPending tap.telegramId tap.tariffId tap.channel.providerName opt.days with
            offers }
      | .usdt _ =>
          { s.createPending tap.telegramId tap.tariffId tap.channel.providerName opt.days with
            offers, invoicing := s.invoicing ++ [s.offers.length] }
  | _, _ => s

/-- `create_invoice`, and `external_invoice_id` behind it. -/
def createInvoice (s : Sales) (index : Nat) (offer : Offer) (invoiceId : String) : Sales :=
  { s with
    invoices := s.invoices ++ [(invoiceId, index)]
    subs := s.subs.map fun row =>
      if row.id = offer.sub then { row with externalInvoiceId := some invoiceId } else row }

/-- An invoice asks for this offer's amount. -/
def asksFor (s : Sales) (index : Nat) (offer : Offer) : Bool :=
  match offer.amount with
  | .stars _ => true
  | .usdt _ => s.invoices.any fun invoice => invoice.2 = index
  | _ => false

/-- `is_paid`. -/
def isPaid (s : Sales) (invoiceId : String) : Bool :=
  s.invoices.any fun invoice => invoice.1 = invoiceId && s.paid.contains invoice.2

/-- `on_check_crypto` up to the provider's answer. -/
def check (s : Sales) (sub : Nat) : Sales :=
  match ((s.subs.find? fun row => row.id = sub).map (·.toSubscription)).bind
      Subscription.externalInvoiceId with
  | none => s
  | some invoiceId => if s.isPaid invoiceId then { s with checks := s.checks ++ [sub] } else s

/-! ## The admin panel -/

/-- The row that `grant_subscription` adds. -/
def grantedSub (now : DateTime) (userId : Nat) (tariff : String) (days : Int) : Subscription where
  userId := userId
  tariff := tariff
  status := .active
  paymentProvider := "admin"
  startedAt := some now
  expiresAt := some (now + daysDelta days)
  createdAt := now

/-- `grant_subscription`. -/
def grant (s : Sales) (telegramId : Int) (tariff : String) (days : Int) : Sales :=
  match Tariff.ofValue? tariff with
  -- an unknown tariff raises
  | none => s
  | some _ =>
      let (s, userId) := s.upsertUser telegramId
      { s with
        subs := s.subs ++ [⟨grantedSub s.now userId tariff days, s.nextSubId⟩]
        nextSubId := s.nextSubId + 1 }

/-- `revoke_subscription`. -/
def revoke (s : Sales) (telegramId : Int) : Sales :=
  match s.account? telegramId with
  | none => s
  | some account =>
      { s with
        subs := s.subs.map fun row =>
          if row.userId = account.id ∧ row.status = .active then { row with status := .cancelled }
          else row }

/-- `delete_user`: the rows of the user go with it. -/
def deleteUser (s : Sales) (telegramId : Int) : Sales :=
  match s.account? telegramId with
  | none => s
  | some account =>
      { s with
        accounts := s.accounts.filter fun other => other.id ≠ account.id
        subs := s.subs.filter fun row => row.userId ≠ account.id }

/-- `create_referral_link` up to `create_link`. -/
def createLink (s : Sales) (code : String) (label : Option String) (discountPercent : Int) :
    Sales :=
  if !codeMatches code then s
  else if ¬(0 ≤ discountPercent ∧ discountPercent ≤ 100) then s
  else if (s.getLinkByCode code).isSome then s
  else { s with drafts := s.drafts ++ [⟨code, label, discountPercent⟩] }

/-- `create_link`; a row with the same `code` makes the insertion raise. -/
def writeLink (s : Sales) (draft : LinkDraft) : Sales :=
  if (s.getLinkByCode draft.code).isSome then s
  else { s with
    links := s.links ++ [⟨s.nextLinkId, draft.code, draft.label, draft.discountPercent, s.now⟩]
    nextLinkId := s.nextLinkId + 1 }

/-- `update_referral_discount`. -/
def updateDiscount (s : Sales) (code : String) (discountPercent : Int) : Sales :=
  if ¬(0 ≤ discountPercent ∧ discountPercent ≤ 100) then s
  else { s with
    links := s.links.map fun link =>
      if link.code = code then { link with discountPercent } else link }

/-- One step of the sales. Handlers that wait go on in any order, and may fail where they wait. -/
def step (s : Sales) : SalesAction → Option Sales
  | .tick elapsed => some { s with now := s.now + elapsed }
  | .start telegramId referralCode => some (s.start telegramId referralCode)
  | .startLink index =>
      s.starts[index]?.bind fun handler =>
        if handler.link.isSome then none
        else some { s with
          starts := s.starts.set index { handler with link := some (s.attributeUser handler) } }
  | .startCommit index =>
      s.starts[index]?.bind fun handler => handler.link.map fun link =>
        { s.writeStart handler link with starts := s.starts.eraseIdx index }
  | .startFails index => some { s with starts := s.starts.eraseIdx index }
  | .payTap channel telegramId tariffId durCode =>
      some (s.payTap channel telegramId tariffId durCode)
  | .quote index rate =>
      s.taps[index]?.bind fun tap =>
        if 0 < rate then some { s.quote tap rate with taps := s.taps.eraseIdx index } else none
  | .quoteFails index => some { s with taps := s.taps.eraseIdx index }
  | .invoiceCreated index invoiceId =>
      s.invoicing[index]?.bind fun i => s.offers[i]?.bind fun offer =>
        if s.invoices.any fun invoice => invoice.1 = invoiceId then none
        else some { s.createInvoice i offer invoiceId with
          invoicing := s.invoicing.eraseIdx index }
  | .invoiceFails index => some { s with invoicing := s.invoicing.eraseIdx index }
  | .pay index =>
      s.offers[index]?.bind fun offer =>
        if s.asksFor index offer then some { s with paid := index :: s.paid } else none
  | .successfulPayment index =>
      s.offers[index]?.bind fun offer =>
        if s.paid.contains index && offer.tap.channel = .stars then some (s.activateRow offer.sub)
        else none
  | .check sub => some (s.check sub)
  | .confirmCheck index =>
      s.checks[index]?.map fun sub =>
        { s.activateRow sub with checks := s.checks.eraseIdx index }
  | .checkFails index => some { s with checks := s.checks.eraseIdx index }
  | .grant telegramId tariff days => some (s.grant telegramId tariff days)
  | .revoke telegramId => some (s.revoke telegramId)
  | .deleteUser telegramId => some (s.deleteUser telegramId)
  | .createLink code label discountPercent => some (s.createLink code label discountPercent)
  | .createLinkCommit index =>
      s.drafts[index]?.map fun draft =>
        { s.writeLink draft with drafts := s.drafts.eraseIdx index }
  | .createLinkFails index => some { s with drafts := s.drafts.eraseIdx index }
  | .updateDiscount code discountPercent => some (s.updateDiscount code discountPercent)

end Sales

/-- What is left of a charge behind the fees of its channel. -/
def Charge.net : Charge → ℚ
  | .stars amount => amount * STARS_NET_USD_PER_STAR
  | .usdt amount => amount * (1 - CRYPTO_FEE)
  | _ => 0

/-- Whatever is charged leaves the price of the plan. -/
theorem le_net_charge {channel : Channel} {plan : TariffPlan} {opt : DurationOption} {d r : ℚ}
    (h : plan.available = true) (hr : 0 < r) :
    effectiveProfitUah plan.profitUah opt d / r ≤ (charge channel plan opt d r).net := by
  have hgate : (!plan.available) = false := by rw [h]; rfl
  rw [charge, hgate, if_neg Bool.false_ne_true]
  by_cases he : effectiveProfitUah plan.profitUah opt d ≤ 0
  · rw [if_pos he]
    exact div_nonpos_of_nonpos_of_nonneg he hr.le
  · rw [if_neg he]
    cases channel with
    | stars => exact stars_net _ r
    | crypto => exact invoice_net _ r

/-! ## Where a subscription comes from -/

section Backing

-- Which discounts a buyer has had, and which rows an administrator has granted.
variable (seen : Int → Int → Prop) (granted : Int → SubscriptionRow → Prop)

/-- A tap that got through the gate, with a discount of its buyer. -/
structure PayTap.Sound (tap : PayTap) (plan : TariffPlan) (opt : DurationOption) : Prop where
  tariff : getPlan tap.tariffId = some plan
  period : getDuration tap.durCode = some opt
  available : plan.available = true
  nonneg : 0 ≤ tap.discount
  le : tap.discount ≤ 100
  known : seen tap.telegramId tap.discount

/-- The amount is the charge for the tap. -/
structure Offer.Sound (offer : Offer) (plan : TariffPlan) (opt : DurationOption) : Prop where
  tap : offer.tap.Sound seen plan opt
  rate : 0 < offer.rate
  amount : offer.amount = charge offer.tap.channel plan opt offer.tap.discount offer.rate

namespace Sales

/-- The row is that of the user with this Telegram id. -/
def Owns (s : Sales) (telegramId : Int) (row : SubscriptionRow) : Prop :=
  ∃ account ∈ s.accounts, account.telegramId = telegramId ∧ account.id = row.userId

/-- The row that was opened for the offer. -/
structure OpenedFor (s : Sales) (offer : Offer) (row : SubscriptionRow) : Prop where
  tariff : row.tariff = offer.tap.tariffId
  period : (getDuration offer.tap.durCode).map (·.days) = some row.periodDays
  buyer : s.Owns offer.tap.telegramId row

/-- The offer of a row is paid, or there was nothing to pay. -/
def Paid (s : Sales) (sub : Nat) : Prop :=
  ∃ i offer, s.offers[i]? = some offer ∧ offer.sub = sub ∧ (offer.amount = .free ∨ i ∈ s.paid)

/-- The row was granted to its user, and nothing was to be paid for it. -/
structure Given (s : Sales) (telegramId : Int) (row : SubscriptionRow) : Prop where
  owns : s.Owns telegramId row
  granted : granted telegramId row
  unasked : ∀ offer ∈ s.offers, offer.sub ≠ row.id

structure RowInv (s : Sales) (row : SubscriptionRow) : Prop where
  fresh : row.id < s.nextSubId
  opened : ∀ offer ∈ s.offers, offer.sub = row.id → s.OpenedFor offer row
  active : row.status = .active → (∃ telegramId, s.Given granted telegramId row) ∨ s.Paid row.id
  issued : ∀ invoiceId, row.externalInvoiceId = some invoiceId →
    ∃ invoice ∈ s.invoices, invoice.1 = invoiceId
  invoice : ∀ invoiceId i, row.externalInvoiceId = some invoiceId → (invoiceId, i) ∈ s.invoices →
    ∃ offer, s.offers[i]? = some offer ∧ offer.sub = row.id

structure Inv (s : Sales) : Prop where
  links : ∀ link ∈ s.links, 0 ≤ link.discountPercent ∧ link.discountPercent ≤ 100
  drafts : ∀ draft ∈ s.drafts, 0 ≤ draft.discountPercent ∧ draft.discountPercent ≤ 100
  taps : ∀ tap ∈ s.taps, ∃ plan opt, tap.Sound seen plan opt
  offers : ∀ offer ∈ s.offers, ∃ plan opt, offer.Sound seen plan opt
  subs : ∀ offer ∈ s.offers, offer.sub < s.nextSubId
  rows : ∀ row ∈ s.subs, s.RowInv granted row
  checks : ∀ sub ∈ s.checks, s.Paid sub

end Sales

end Backing

namespace Sales

variable {s t : Sales}

theorem account?_eq_some {telegramId : Int} {account : Account}
    (h : s.account? telegramId = some account) :
    account ∈ s.accounts ∧ account.telegramId = telegramId := by
  have htelegramId := List.find?_some h
  exact ⟨List.mem_of_find?_eq_some h, of_decide_eq_true htelegramId⟩

/-- What `upsert_user` does: it adds a row at most, and its result is the user's. -/
theorem upsertUser_spec (s : Sales) (telegramId : Int) :
    ∃ accounts nextUserId, s.upsertUser telegramId =
        ({ s with accounts, nextUserId }, (s.upsertUser telegramId).2) ∧
      s.accounts ⊆ accounts ∧
      ∃ account ∈ accounts, account.telegramId = telegramId ∧
        account.id = (s.upsertUser telegramId).2 := by
  unfold upsertUser
  cases haccount : s.account? telegramId with
  | some account =>
      obtain ⟨hmem, htelegramId⟩ := account?_eq_some haccount
      exact ⟨s.accounts, s.nextUserId, rfl, List.Subset.refl _, account, hmem, htelegramId, rfl⟩
  | none =>
      exact ⟨_, _, rfl, List.subset_append_left _ _, _,
        List.mem_append_right _ List.mem_cons_self, rfl, rfl⟩

/-- The discount is that of a link, or there is none. -/
theorem getDiscountPercent_cases (s : Sales) (telegramId : Int) :
    s.getDiscountPercent telegramId = 0 ∨
      ∃ link ∈ s.links, s.getDiscountPercent telegramId = link.discountPercent := by
  unfold getDiscountPercent
  split
  · exact .inl rfl
  · next linkId _ =>
      cases hlink : s.links.find? fun link => link.id = linkId with
      | none => exact .inl rfl
      | some link => exact .inr ⟨link, List.mem_of_find?_eq_some hlink, rfl⟩

/-! ## What a step keeps -/

/-- What is told of a row and its offer stays true. -/
structure Grows (s t : Sales) : Prop where
  offers : ∃ more, t.offers = s.offers ++ more ∧ ∀ offer ∈ more, s.nextSubId ≤ offer.sub
  paid : s.paid ⊆ t.paid
  invoices : t.invoices = s.invoices
  fresh : s.nextSubId ≤ t.nextSubId

theorem Grows.of_same (offers : t.offers = s.offers) (paid : t.paid = s.paid)
    (invoices : t.invoices = s.invoices) (fresh : t.nextSubId = s.nextSubId) : Grows s t where
  offers := ⟨[], by rw [offers, List.append_nil], by simp⟩
  paid := by rw [paid]; exact List.Subset.refl _
  invoices := invoices
  fresh := fresh.ge

theorem Paid.grows {sub : Nat} (h : s.Paid sub) (grows : Grows s t) : t.Paid sub := by
  obtain ⟨i, offer, hoffer, hsub, hpaid⟩ := h
  obtain ⟨more, hmore, -⟩ := grows.offers
  have hlt : i < s.offers.length := (List.getElem?_eq_some_iff.mp hoffer).1
  refine ⟨i, offer, ?_, hsub, hpaid.imp_right fun hmem => grows.paid hmem⟩
  rw [hmore, List.getElem?_append_left hlt]
  exact hoffer

/-- Every user's row is still there, with its keys. -/
def Keeps (s t : Sales) : Prop :=
  ∀ account ∈ s.accounts, ∃ account' ∈ t.accounts,
    account'.telegramId = account.telegramId ∧ account'.id = account.id

theorem Keeps.of_subset (h : s.accounts ⊆ t.accounts) : Keeps s t :=
  fun account hmem => ⟨account, h hmem, rfl, rfl⟩

theorem Owns.keeps {telegramId : Int} {row : SubscriptionRow} (h : s.Owns telegramId row)
    (keeps : Keeps s t) : t.Owns telegramId row := by
  obtain ⟨account, hmem, htelegramId, hid⟩ := h
  obtain ⟨account', hmem', htelegramId', hid'⟩ := keeps account hmem
  exact ⟨account', hmem', htelegramId'.trans htelegramId, hid'.trans hid⟩

section Inv

variable {seen : Int → Int → Prop} {granted : Int → SubscriptionRow → Prop}
variable {row : SubscriptionRow}

theorem RowInv.grows (h : s.RowInv granted row) (grows : Grows s t)
    (owns : ∀ telegramId, s.Owns telegramId row → t.Owns telegramId row) :
    t.RowInv granted row where
  fresh := h.fresh.trans_le grows.fresh
  opened := by
    intro offer hoffer hsub
    obtain ⟨more, hmore, hlater⟩ := grows.offers
    rw [hmore] at hoffer
    obtain hoffer | hoffer := List.mem_append.mp hoffer
    · obtain ⟨htariff, hperiod, hbuyer⟩ := h.opened offer hoffer hsub
      exact ⟨htariff, hperiod, owns _ hbuyer⟩
    · have hfresh := h.fresh
      have hlt := hlater offer hoffer
      omega
  active := by
    intro hactive
    obtain ⟨telegramId, howns, hgranted, hunasked⟩ | hpaid := h.active hactive
    · refine .inl ⟨telegramId, owns _ howns, hgranted, fun offer hoffer => ?_⟩
      obtain ⟨more, hmore, hlater⟩ := grows.offers
      rw [hmore] at hoffer
      obtain hoffer | hoffer := List.mem_append.mp hoffer
      · exact hunasked offer hoffer
      · have hfresh := h.fresh
        have hlt := hlater offer hoffer
        omega
    · exact .inr (hpaid.grows grows)
  issued := by
    rw [grows.invoices]
    exact h.issued
  invoice := by
    intro invoiceId i hinvoice hmem
    rw [grows.invoices] at hmem
    obtain ⟨offer, hoffer, hsub⟩ := h.invoice invoiceId i hinvoice hmem
    obtain ⟨more, hmore, -⟩ := grows.offers
    have hlt : i < s.offers.length := (List.getElem?_eq_some_iff.mp hoffer).1
    refine ⟨offer, ?_, hsub⟩
    rw [hmore, List.getElem?_append_left hlt]
    exact hoffer

/-- A change of the status that is not an activation, or one of a paid row. -/
theorem RowInv.restatus (h : s.RowInv granted row) {sub : Subscription}
    (userId : sub.userId = row.userId) (tariff : sub.tariff = row.tariff)
    (periodDays : sub.periodDays = row.periodDays)
    (invoiceId : sub.externalInvoiceId = row.externalInvoiceId)
    (active : sub.status = .active → s.Paid row.id) : s.RowInv granted ⟨sub, row.id⟩ where
  fresh := h.fresh
  opened := by
    intro offer hoffer hsub
    obtain ⟨htariff, hperiod, account, hmem, htelegramId, hid⟩ := h.opened offer hoffer hsub
    exact ⟨tariff.trans htariff, by rw [hperiod, ← periodDays], account, hmem, htelegramId,
      hid.trans userId.symm⟩
  active := fun hactive => .inr (active hactive)
  issued := by
    intro other hother
    exact h.issued other (invoiceId.symm.trans hother)
  invoice := by
    intro other i hother
    exact h.invoice other i (invoiceId.symm.trans hother)

/-- Nothing but the users, the links and the handlers has changed. -/
theorem Inv.of_same (h : s.Inv seen granted) (keeps : Keeps s t) (offers : t.offers = s.offers)
    (paid : t.paid = s.paid) (invoices : t.invoices = s.invoices)
    (fresh : t.nextSubId = s.nextSubId) (subs : t.subs = s.subs) (checks : t.checks ⊆ s.checks)
    (taps : ∀ tap ∈ t.taps, ∃ plan opt, tap.Sound seen plan opt)
    (links : ∀ link ∈ t.links, 0 ≤ link.discountPercent ∧ link.discountPercent ≤ 100)
    (drafts : ∀ draft ∈ t.drafts, 0 ≤ draft.discountPercent ∧ draft.discountPercent ≤ 100) :
    t.Inv seen granted where
  links := links
  drafts := drafts
  taps := taps
  offers := by rw [offers]; exact h.offers
  subs := by rw [offers, fresh]; exact h.subs
  rows := by
    intro row hrow
    rw [subs] at hrow
    exact (h.rows row hrow).grows (.of_same offers paid invoices fresh) fun _ howns =>
      howns.keeps keeps
  checks := fun sub hsub => (h.checks sub (checks hsub)).grows (.of_same offers paid invoices fresh)

/-- A new row comes with the offer that it is opened for, or with none. -/
theorem Inv.insert (h : s.Inv seen granted) {sub : Subscription} {more : List Offer}
    (keeps : Keeps s t) (subs : t.subs = s.subs ++ [⟨sub, s.nextSubId⟩])
    (fresh : t.nextSubId = s.nextSubId + 1) (offers : t.offers = s.offers ++ more)
    (paid : t.paid = s.paid) (invoices : t.invoices = s.invoices) (checks : t.checks = s.checks)
    (taps : t.taps ⊆ s.taps) (links : t.links = s.links) (drafts : t.drafts = s.drafts)
    (sound : ∀ offer ∈ more, offer.sub = s.nextSubId ∧ ∃ plan opt, offer.Sound seen plan opt)
    (opened : ∀ offer ∈ more, t.OpenedFor offer ⟨sub, s.nextSubId⟩)
    (active : sub.status = .active →
      (∃ telegramId, t.Owns telegramId ⟨sub, s.nextSubId⟩ ∧
        granted telegramId ⟨sub, s.nextSubId⟩ ∧ more = []) ∨ t.Paid s.nextSubId)
    (unissued : sub.externalInvoiceId = none) : t.Inv seen granted := by
  have hgrows : Grows s t :=
    ⟨⟨more, offers, fun offer hoffer => (sound offer hoffer).1.ge⟩,
      by rw [paid]; exact List.Subset.refl _, invoices, by omega⟩
  refine ⟨by rw [links]; exact h.links, by rw [drafts]; exact h.drafts,
    fun tap htap => h.taps tap (taps htap), ?_, ?_, ?_, ?_⟩
  · intro offer hoffer
    rw [offers] at hoffer
    obtain hoffer | hoffer := List.mem_append.mp hoffer
    · exact h.offers offer hoffer
    · exact (sound offer hoffer).2
  · intro offer hoffer
    rw [offers] at hoffer
    obtain hoffer | hoffer := List.mem_append.mp hoffer
    · have hlt := h.subs offer hoffer
      omega
    · have heq := (sound offer hoffer).1
      omega
  · intro row hrow
    rw [subs] at hrow
    obtain hrow | hrow := List.mem_append.mp hrow
    · exact (h.rows row hrow).grows hgrows fun _ howns => howns.keeps keeps
    · obtain rfl := List.mem_singleton.mp hrow
      refine ⟨by simp only; omega, ?_, fun hactive => ?_, ?_, ?_⟩
      · intro offer hoffer hsub
        rw [offers] at hoffer
        obtain hoffer | hoffer := List.mem_append.mp hoffer
        · have hlt := h.subs offer hoffer
          simp only at hsub
          omega
        · exact opened offer hoffer
      · obtain ⟨telegramId, howns, hgranted, rfl⟩ | hpaid := active hactive
        · refine .inl ⟨telegramId, howns, hgranted, fun offer hoffer => ?_⟩
          rw [offers, List.append_nil] at hoffer
          exact Nat.ne_of_lt (h.subs offer hoffer)
        · exact .inr hpaid
      · intro invoiceId hinvoice
        simp only [unissued] at hinvoice
        cases hinvoice
      · intro invoiceId i hinvoice
        simp only [unissued] at hinvoice
        cases hinvoice
  · intro sub hsub
    rw [checks] at hsub
    exact (h.checks sub hsub).grows hgrows

/-- The activation of a row that is paid. -/
theorem Inv.activateRow (h : s.Inv seen granted) {sub : Nat} (paid : s.Paid sub) :
    (s.activateRow sub).Inv seen granted where
  links := h.links
  drafts := h.drafts
  taps := h.taps
  offers := h.offers
  subs := h.subs
  rows := by
    intro row hrow
    obtain ⟨row, hmem, rfl⟩ := List.mem_map.mp hrow
    have hinv : s.RowInv granted row := h.rows row hmem
    have hsame : Grows s (s.activateRow sub) := .of_same rfl rfl rfl rfl
    split
    · next heq =>
        subst heq
        have hrow : s.RowInv granted ⟨activate s.now none row.toSubscription, row.id⟩ :=
          hinv.restatus rfl rfl rfl rfl fun _ => paid
        exact hrow.grows hsame fun _ howns => howns
    · exact hinv.grows hsame fun _ howns => howns
  checks := h.checks

/-- The row of a tap with an offer over a charge. -/
theorem Inv.createPending (h : s.Inv seen granted) {offer : Offer} {plan : TariffPlan}
    {opt : DurationOption} (providerName : String) (sound : offer.Sound seen plan opt)
    (sub : offer.sub = s.nextSubId) (invoicing : List Nat) :
    Inv seen granted { s.createPending offer.tap.telegramId offer.tap.tariffId providerName
      opt.days with offers := s.offers ++ [offer], invoicing } := by
  obtain ⟨accounts, nextUserId, hupsert, hsubset, hbuyer⟩ :=
    s.upsertUser_spec offer.tap.telegramId
  unfold Sales.createPending
  rw [hupsert]
  refine h.insert (.of_subset hsubset) rfl rfl rfl rfl rfl rfl (List.Subset.refl _) rfl rfl
    ?_ ?_ ?_ rfl
  · intro other hother
    obtain rfl := List.mem_singleton.mp hother
    exact ⟨sub, plan, opt, sound⟩
  · intro other hother
    obtain rfl := List.mem_singleton.mp hother
    exact ⟨rfl, by rw [sound.tap.period]; rfl, hbuyer⟩
  · intro hactive
    cases hactive

/-- What is opened for an offer of nothing counts as paid. -/
theorem paid_last {offer : Offer} (free : offer.amount = .free) (sub : offer.sub = s.nextSubId)
    (offers : t.offers = s.offers ++ [offer]) : t.Paid s.nextSubId := by
  refine ⟨s.offers.length, offer, ?_, sub, .inl free⟩
  rw [offers, List.getElem?_concat_length]

theorem Inv.quote (h : s.Inv seen granted) {tap : PayTap} {rate : ℚ} (mem : tap ∈ s.taps)
    (pos : 0 < rate) : (s.quote tap rate).Inv seen granted := by
  obtain ⟨plan, opt, htap⟩ := h.taps tap mem
  unfold Sales.quote
  rw [htap.tariff, htap.period]
  simp only
  have hsound : Offer.Sound seen
      ⟨tap, rate, charge tap.channel plan opt tap.discount rate, s.nextSubId⟩ plan opt :=
    ⟨htap, pos, rfl⟩
  split
  · exact h
  · next hfree =>
      have hpending := h.createPending "referral_free" hsound rfl
        (s.createPending tap.telegramId tap.tariffId "referral_free" opt.days).invoicing
      exact hpending.activateRow (paid_last hfree rfl rfl)
  · exact h.createPending _ hsound rfl _
  · exact h.createPending _ hsound rfl _

/-- A new invoice is that of one offer, and only the offer's row points to it. -/
theorem Inv.createInvoice (h : s.Inv seen granted) {i : Nat} {offer : Offer} {invoiceId : String}
    (asked : s.offers[i]? = some offer)
    (unused : ¬(s.invoices.any fun invoice => invoice.1 = invoiceId) = true) :
    (s.createInvoice i offer invoiceId).Inv seen granted where
  links := h.links
  drafts := h.drafts
  taps := h.taps
  offers := h.offers
  subs := h.subs
  checks := h.checks
  rows := by
    have hunused : ∀ invoice ∈ s.invoices, invoice.1 ≠ invoiceId := by
      intro invoice hmem heq
      exact unused (List.any_eq_true.mpr ⟨invoice, hmem, decide_eq_true heq⟩)
    intro row hrow
    obtain ⟨row, hmem, rfl⟩ := List.mem_map.mp hrow
    have hinv : s.RowInv granted row := h.rows row hmem
    split
    · next heq =>
        refine ⟨hinv.fresh, fun other hother hsub => ?_, fun hactive => ?_, ?_, ?_⟩
        · obtain ⟨htariff, hperiod, hbuyer⟩ := hinv.opened other hother hsub
          exact ⟨htariff, hperiod, hbuyer⟩
        · -- a row with an offer was not granted
          obtain ⟨telegramId, hgiven⟩ | hpaid := hinv.active hactive
          · exact absurd heq.symm (hgiven.unasked offer (List.mem_of_getElem? asked))
          · exact .inr hpaid
        · intro other hother
          obtain rfl := Option.some.inj hother
          exact ⟨_, List.mem_append_right _ List.mem_cons_self, rfl⟩
        · intro other j hother hinvoice
          obtain rfl := Option.some.inj hother
          obtain hinvoice | hinvoice := List.mem_append.mp hinvoice
          · exact absurd rfl (hunused _ hinvoice)
          · obtain ⟨-, rfl⟩ := Prod.mk.inj (List.mem_singleton.mp hinvoice)
            exact ⟨offer, asked, heq.symm⟩
    · refine ⟨hinv.fresh, fun other hother hsub => ?_, fun hactive => ?_, ?_, ?_⟩
      · obtain ⟨htariff, hperiod, hbuyer⟩ := hinv.opened other hother hsub
        exact ⟨htariff, hperiod, hbuyer⟩
      · obtain ⟨telegramId, howns, hgranted, hunasked⟩ | hpaid := hinv.active hactive
        · exact .inl ⟨telegramId, howns, hgranted, hunasked⟩
        · exact .inr hpaid
      · intro other hother
        obtain ⟨invoice, hinvoice, heq⟩ := hinv.issued other hother
        exact ⟨invoice, List.mem_append_left _ hinvoice, heq⟩
      · intro other j hother hinvoice
        obtain hinvoice | hinvoice := List.mem_append.mp hinvoice
        · exact hinv.invoice other j hother hinvoice
        · obtain ⟨rfl, -⟩ := Prod.mk.inj (List.mem_singleton.mp hinvoice)
          obtain ⟨invoice, hissued, heq⟩ := hinv.issued _ hother
          exact absurd heq (hunused invoice hissued)

/-- The provider calls an invoice paid only if the offer of the row has been paid. -/
theorem Inv.check (h : s.Inv seen granted) (sub : Nat) : (s.check sub).Inv seen granted := by
  unfold Sales.check
  split
  · exact h
  · next invoiceId hinvoice =>
      split
      · next hpaid =>
          refine ⟨h.links, h.drafts, h.taps, h.offers, h.subs, fun row hrow => ?_, ?_⟩
          · exact (h.rows row hrow).grows (.of_same rfl rfl rfl rfl) fun _ howns => howns
          intro other hother
          obtain hother | hother := List.mem_append.mp hother
          · exact h.checks other hother
          · obtain rfl := List.mem_singleton.mp hother
            obtain ⟨_, hfind, hexternal⟩ := Option.bind_eq_some_iff.mp hinvoice
            obtain ⟨row, hrow, rfl⟩ := Option.map_eq_some_iff.mp hfind
            have hid : row.id = other := of_decide_eq_true (List.find?_some hrow :)
            obtain ⟨⟨_, i⟩, hmem, hboth⟩ := List.any_eq_true.mp hpaid
            obtain ⟨heq, hcontains⟩ := Bool.and_eq_true_iff.mp hboth
            obtain rfl := of_decide_eq_true heq
            obtain ⟨offer, hoffer, hsub⟩ := (h.rows row (List.mem_of_find?_eq_some hrow)).invoice
              _ i hexternal hmem
            exact ⟨i, offer, hoffer, hsub.trans hid, .inr (List.contains_iff_mem.mp hcontains)⟩
      · exact h

theorem Inv.grant (h : s.Inv seen granted) {telegramId : Int} {tariff : String} {days : Int}
    (grants : ∀ userId, granted telegramId ⟨grantedSub s.now userId tariff days, s.nextSubId⟩) :
    (s.grant telegramId tariff days).Inv seen granted := by
  unfold Sales.grant
  split
  · exact h
  · obtain ⟨accounts, nextUserId, hupsert, hsubset, hbuyer⟩ := s.upsertUser_spec telegramId
    rw [hupsert]
    refine h.insert (.of_subset hsubset) rfl rfl (List.append_nil _).symm rfl rfl rfl
      (List.Subset.refl _) rfl rfl (by simp) (by simp) ?_ rfl
    exact fun _ => .inl ⟨telegramId, hbuyer, grants _, rfl⟩

theorem Inv.revoke (h : s.Inv seen granted) (telegramId : Int) :
    (s.revoke telegramId).Inv seen granted := by
  unfold Sales.revoke
  split
  · exact h
  · refine ⟨h.links, h.drafts, h.taps, h.offers, h.subs, ?_, h.checks⟩
    intro row hrow
    obtain ⟨row, hmem, rfl⟩ := List.mem_map.mp hrow
    have hinv : s.RowInv granted row := h.rows row hmem
    split
    · have hrow : s.RowInv granted ⟨{ row.toSubscription with status := .cancelled }, row.id⟩ :=
        hinv.restatus rfl rfl rfl rfl fun hactive => SubscriptionStatus.noConfusion hactive
      exact hrow.grows (.of_same rfl rfl rfl rfl) fun _ howns => howns
    · exact hinv.grows (.of_same rfl rfl rfl rfl) fun _ howns => howns

/-- The rows that stay are not those of the user that goes. -/
theorem Inv.deleteUser (h : s.Inv seen granted) (telegramId : Int) :
    (s.deleteUser telegramId).Inv seen granted := by
  unfold Sales.deleteUser
  split
  · exact h
  · next account _ =>
      refine ⟨h.links, h.drafts, h.taps, h.offers, h.subs, ?_, h.checks⟩
      intro row hrow
      obtain ⟨hmem, hother⟩ := List.mem_filter.mp hrow
      refine (h.rows row hmem).grows (.of_same rfl rfl rfl rfl) ?_
      rintro telegramId ⟨buyer, hbuyer, htelegramId, hid⟩
      refine ⟨buyer, List.mem_filter.mpr ⟨hbuyer, ?_⟩, htelegramId, hid⟩
      rw [hid]
      exact hother

theorem Inv.payTap (h : s.Inv seen granted) (channel : Channel) (telegramId : Int)
    (tariffId durCode : String) (now : seen telegramId (s.getDiscountPercent telegramId)) :
    (s.payTap channel telegramId tariffId durCode).Inv seen granted := by
  unfold Sales.payTap
  split
  · next plan opt hplan hopt =>
      split
      · exact h
      · next hgate =>
          refine h.of_same (.of_subset (List.Subset.refl _)) rfl rfl rfl rfl rfl
            (List.Subset.refl _) ?_ h.links h.drafts
          intro tap htap
          obtain htap | htap := List.mem_append.mp htap
          · exact h.taps tap htap
          · obtain rfl := List.mem_singleton.mp htap
            have hrange : 0 ≤ s.getDiscountPercent telegramId ∧
                s.getDiscountPercent telegramId ≤ 100 := by
              obtain hzero | ⟨link, hlink, heq⟩ := s.getDiscountPercent_cases telegramId
              · omega
              · rw [heq]
                exact h.links link hlink
            exact ⟨plan, opt, hplan, hopt, by simpa using hgate, hrange.1, hrange.2, now⟩
  · exact h

theorem keeps_writeStart (s : Sales) (handler : StartHandler) (link : Option Nat) :
    Keeps s (s.writeStart handler link) := by
  unfold Sales.writeStart
  split
  · split
    · exact .of_subset (List.Subset.refl _)
    · exact .of_subset (List.subset_append_left _ _)
  · split
    · exact .of_subset (List.Subset.refl _)
    · intro account hmem
      refine ⟨_, List.mem_map_of_mem hmem, ?_⟩
      split
      · exact ⟨rfl, rfl⟩
      · exact ⟨rfl, rfl⟩

theorem writeStart_eq (s : Sales) (handler : StartHandler) (link : Option Nat) :
    ∃ accounts nextUserId,
      s.writeStart handler link = { s with accounts, nextUserId } := by
  unfold Sales.writeStart
  split
  · split
    · exact ⟨_, _, rfl⟩
    · exact ⟨_, _, rfl⟩
  · split
    · exact ⟨_, _, rfl⟩
    · exact ⟨_, _, rfl⟩

theorem Inv.startCommit (h : s.Inv seen granted) (handler : StartHandler) (link : Option Nat)
    (starts : List StartHandler) :
    Inv seen granted { s.writeStart handler link with starts } := by
  have hkeeps := s.keeps_writeStart handler link
  obtain ⟨accounts, nextUserId, heq⟩ := s.writeStart_eq handler link
  rw [heq] at hkeeps ⊢
  exact h.of_same hkeeps rfl rfl rfl rfl rfl (List.Subset.refl _) h.taps h.links h.drafts

theorem Inv.createLink (h : s.Inv seen granted) (code : String) (label : Option String)
    (discountPercent : Int) : (s.createLink code label discountPercent).Inv seen granted := by
  unfold Sales.createLink
  split
  · exact h
  · split
    · exact h
    · next hrange =>
        split
        · exact h
        · refine h.of_same (.of_subset (List.Subset.refl _)) rfl rfl rfl rfl rfl
            (List.Subset.refl _) h.taps h.links ?_
          intro draft hdraft
          obtain hdraft | hdraft := List.mem_append.mp hdraft
          · exact h.drafts draft hdraft
          · obtain rfl := List.mem_singleton.mp hdraft
            exact not_not.mp hrange

theorem Inv.writeLink (h : s.Inv seen granted) {draft : LinkDraft} (mem : draft ∈ s.drafts)
    {drafts : List LinkDraft} (subset : drafts ⊆ s.drafts) :
    Inv seen granted { s.writeLink draft with drafts } := by
  have hdrafts : ∀ draft ∈ drafts, 0 ≤ draft.discountPercent ∧ draft.discountPercent ≤ 100 :=
    fun draft hdraft => h.drafts draft (subset hdraft)
  unfold Sales.writeLink
  split
  · exact h.of_same (.of_subset (List.Subset.refl _)) rfl rfl rfl rfl rfl (List.Subset.refl _)
      h.taps h.links hdrafts
  · refine h.of_same (.of_subset (List.Subset.refl _)) rfl rfl rfl rfl rfl (List.Subset.refl _)
      h.taps ?_ hdrafts
    intro link hlink
    obtain hlink | hlink := List.mem_append.mp hlink
    · exact h.links link hlink
    · obtain rfl := List.mem_singleton.mp hlink
      exact h.drafts draft mem

theorem Inv.updateDiscount (h : s.Inv seen granted) (code : String) (discountPercent : Int) :
    (s.updateDiscount code discountPercent).Inv seen granted := by
  unfold Sales.updateDiscount
  split
  · exact h
  · next hrange =>
      refine h.of_same (.of_subset (List.Subset.refl _)) rfl rfl rfl rfl rfl (List.Subset.refl _)
        h.taps ?_ h.drafts
      intro link hlink
      obtain ⟨link, hmem, rfl⟩ := List.mem_map.mp hlink
      split
      · exact not_not.mp hrange
      · exact h.links link hmem

/-- The handlers come and go. -/
theorem Inv.handlers (h : s.Inv seen granted) (starts : List StartHandler) (invoicing : List Nat)
    {taps : List PayTap} (htaps : taps ⊆ s.taps) {drafts : List LinkDraft}
    (hdrafts : drafts ⊆ s.drafts) {checks : List Nat} (hchecks : checks ⊆ s.checks) :
    Inv seen granted { s with starts, invoicing, taps, drafts, checks } :=
  h.of_same (.of_subset (List.Subset.refl _)) rfl rfl rfl rfl rfl hchecks
    (fun tap htap => h.taps tap (htaps htap)) h.links
    fun draft hdraft => h.drafts draft (hdrafts hdraft)

theorem quote_taps (s : Sales) (tap : PayTap) (rate : ℚ) : (s.quote tap rate).taps = s.taps := by
  have hpending : ∀ telegramId tariff providerName days,
      (s.createPending telegramId tariff providerName days).taps = s.taps := by
    intro telegramId tariff providerName days
    obtain ⟨accounts, nextUserId, hupsert, -⟩ := s.upsertUser_spec telegramId
    unfold Sales.createPending
    rw [hupsert]
  unfold Sales.quote
  split
  · next plan opt _ _ =>
      simp only
      split
      · rfl
      · exact hpending tap.telegramId tap.tariffId "referral_free" opt.days
      · exact hpending tap.telegramId tap.tariffId tap.channel.providerName opt.days
      · exact hpending tap.telegramId tap.tariffId tap.channel.providerName opt.days
  · rfl

theorem Inv.step (h : s.Inv seen granted) {action : SalesAction}
    (now : ∀ telegramId, seen telegramId (s.getDiscountPercent telegramId))
    (grants : ∀ telegramId tariff days, action = .grant telegramId tariff days →
      ∀ userId, granted telegramId ⟨grantedSub s.now userId tariff days, s.nextSubId⟩) (hstep : s.step action = some t) : t.Inv seen granted := by
  cases action with
  | tick elapsed =>
      cases hstep
      exact h.of_same (.of_subset (List.Subset.refl _)) rfl rfl rfl rfl rfl (List.Subset.refl _)
        h.taps h.links h.drafts
  | start telegramId referralCode =>
      cases hstep
      exact h.handlers _ _ (List.Subset.refl _) (List.Subset.refl _) (List.Subset.refl _)
  | startLink index =>
      obtain ⟨handler, -, hlink⟩ := Option.bind_eq_some_iff.mp hstep
      obtain ⟨-, hnext⟩ := Option.ite_none_left_eq_some.mp hlink
      cases hnext
      exact h.handlers _ _ (List.Subset.refl _) (List.Subset.refl _) (List.Subset.refl _)
  | startCommit index =>
      obtain ⟨handler, -, hlink⟩ := Option.bind_eq_some_iff.mp hstep
      obtain ⟨link, -, rfl⟩ := Option.map_eq_some_iff.mp hlink
      exact h.startCommit handler link _
  | startFails index =>
      cases hstep
      exact h.handlers _ _ (List.Subset.refl _) (List.Subset.refl _) (List.Subset.refl _)
  | payTap channel telegramId tariffId durCode =>
      cases hstep
      exact h.payTap channel telegramId tariffId durCode (now telegramId)
  | quote index rate =>
      obtain ⟨tap, htap, hquote⟩ := Option.bind_eq_some_iff.mp hstep
      obtain ⟨hpos, hnext⟩ := Option.ite_none_right_eq_some.mp hquote
      cases hnext
      have hsubset : s.taps.eraseIdx index ⊆ (s.quote tap rate).taps := by
        rw [quote_taps]
        exact List.eraseIdx_subset
      exact (h.quote (List.mem_of_getElem? htap) hpos).handlers _ _ hsubset (List.Subset.refl _)
        (List.Subset.refl _)
  | quoteFails index =>
      cases hstep
      exact h.handlers _ _ List.eraseIdx_subset (List.Subset.refl _) (List.Subset.refl _)
  | invoiceCreated index invoiceId =>
      obtain ⟨i, -, hinvoice⟩ := Option.bind_eq_some_iff.mp hstep
      obtain ⟨offer, hoffer, hcreated⟩ := Option.bind_eq_some_iff.mp hinvoice
      obtain ⟨hunused, hnext⟩ := Option.ite_none_left_eq_some.mp hcreated
      cases hnext
      exact (h.createInvoice hoffer hunused).handlers _ _ (List.Subset.refl _)
        (List.Subset.refl _) (List.Subset.refl _)
  | invoiceFails index =>
      cases hstep
      exact h.handlers _ _ (List.Subset.refl _) (List.Subset.refl _) (List.Subset.refl _)
  | pay index =>
      obtain ⟨offer, -, hpay⟩ := Option.bind_eq_some_iff.mp hstep
      obtain ⟨-, hnext⟩ := Option.ite_none_right_eq_some.mp hpay
      cases hnext
      have hgrows : Grows s { s with paid := index :: s.paid } :=
        ⟨⟨[], (List.append_nil _).symm, by simp⟩, List.subset_cons_self _ _, rfl, le_rfl⟩
      exact ⟨h.links, h.drafts, h.taps, h.offers, h.subs,
        fun row hrow => (h.rows row hrow).grows hgrows fun _ howns => howns,
        fun sub hsub => (h.checks sub hsub).grows hgrows⟩
  | successfulPayment index =>
      obtain ⟨offer, hoffer, hpayment⟩ := Option.bind_eq_some_iff.mp hstep
      obtain ⟨hpaid, hnext⟩ := Option.ite_none_right_eq_some.mp hpayment
      cases hnext
      obtain ⟨hcontains, -⟩ := Bool.and_eq_true_iff.mp hpaid
      exact h.activateRow ⟨index, offer, hoffer, rfl, .inr (List.contains_iff_mem.mp hcontains)⟩
  | check sub =>
      cases hstep
      exact h.check sub
  | confirmCheck index =>
      obtain ⟨sub, hsub, rfl⟩ := Option.map_eq_some_iff.mp hstep
      exact (h.activateRow (h.checks sub (List.mem_of_getElem? hsub))).handlers _ _
        (List.Subset.refl _) (List.Subset.refl _) List.eraseIdx_subset
  | checkFails index =>
      cases hstep
      exact h.handlers _ _ (List.Subset.refl _) (List.Subset.refl _) List.eraseIdx_subset
  | grant telegramId tariff days =>
      cases hstep
      exact h.grant (grants telegramId tariff days rfl)
  | revoke telegramId =>
      cases hstep
      exact h.revoke telegramId
  | deleteUser telegramId =>
      cases hstep
      exact h.deleteUser telegramId
  | createLink code label discountPercent =>
      cases hstep
      exact h.createLink code label discountPercent
  | createLinkCommit index =>
      obtain ⟨draft, hdraft, rfl⟩ := Option.map_eq_some_iff.mp hstep
      exact h.writeLink (List.mem_of_getElem? hdraft) List.eraseIdx_subset
  | createLinkFails index =>
      cases hstep
      exact h.handlers _ _ (List.Subset.refl _) List.eraseIdx_subset (List.Subset.refl _)
  | updateDiscount code discountPercent =>
      cases hstep
      exact h.updateDiscount code discountPercent

theorem Inv.mono {seen' : Int → Int → Prop} {granted' : Int → SubscriptionRow → Prop}
    (h : s.Inv seen granted) (later : ∀ telegramId d, seen telegramId d → seen' telegramId d)
    (grants : ∀ telegramId row, granted telegramId row → granted' telegramId row) :
    s.Inv seen' granted' := by
  have htap : ∀ {tap : PayTap} {plan opt}, tap.Sound seen plan opt → tap.Sound seen' plan opt :=
    fun htap => ⟨htap.tariff, htap.period, htap.available, htap.nonneg, htap.le,
      later _ _ htap.known⟩
  refine ⟨h.links, h.drafts, ?_, ?_, h.subs, ?_, h.checks⟩
  · intro tap hmem
    obtain ⟨plan, opt, hsound⟩ := h.taps tap hmem
    exact ⟨plan, opt, htap hsound⟩
  · intro offer hmem
    obtain ⟨plan, opt, hsound⟩ := h.offers offer hmem
    exact ⟨plan, opt, htap hsound.tap, hsound.rate, hsound.amount⟩
  · intro row hmem
    obtain ⟨hfresh, hopened, hactive, hissued, hinvoice⟩ := h.rows row hmem
    refine ⟨hfresh, hopened, fun active => ?_, hissued, hinvoice⟩
    obtain ⟨telegramId, howns, hgranted, hunasked⟩ | hpaid := hactive active
    · exact .inl ⟨telegramId, howns, grants _ _ hgranted, hunasked⟩
    · exact .inr hpaid

end Inv

/-! ## Runs -/

/-- At some time of the run this was the buyer's discount. -/
def HadDiscount (now : DateTime) (actions : List SalesAction) (telegramId d : Int) : Prop :=
  ∃ first rest s, actions = first ++ rest ∧ exec step { now } first = some s ∧
    s.getDiscountPercent telegramId = d

/-- A grant of the run has added this row, which is still as it was written then. -/
def WasGranted (now : DateTime) (actions : List SalesAction) (telegramId : Int)
    (row : SubscriptionRow) : Prop :=
  ∃ first days rest s, actions = first ++ .grant telegramId row.tariff days :: rest ∧
    exec step { now } first = some s ∧
    row = ⟨grantedSub s.now row.userId row.tariff days, s.nextSubId⟩

theorem WasGranted.later {now : DateTime} {actions : List SalesAction} {telegramId : Int}
    {row : SubscriptionRow} (h : WasGranted now actions telegramId row)
    (more : List SalesAction) : WasGranted now (actions ++ more) telegramId row := by
  obtain ⟨first, days, rest, s, heq, hrun, hrow⟩ := h
  exact ⟨first, days, rest ++ more, s, by rw [heq, List.append_assoc, List.cons_append], hrun,
    hrow⟩

theorem HadDiscount.later {now : DateTime} {actions : List SalesAction} {telegramId d : Int}
    (h : HadDiscount now actions telegramId d) (more : List SalesAction) :
    HadDiscount now (actions ++ more) telegramId d := by
  obtain ⟨first, rest, s, heq, hrun, hd⟩ := h
  exact ⟨first, rest ++ more, s, by rw [heq, List.append_assoc], hrun, hd⟩

theorem inv_of_run {now : DateTime} {actions : List SalesAction}
    (run : exec step { now } actions = some s) :
    s.Inv (HadDiscount now actions) (WasGranted now actions) := by
  have hhistory := exec_history
    (I := fun past s => exec step { now } past = some s ∧
      s.Inv (HadDiscount now past) (WasGranted now past))
    (fun past s action t ⟨hpast, hinv⟩ hstep => by
      refine ⟨exec_append_eq_some.mpr ⟨s, hpast, exec_cons_eq_some.mpr ⟨t, hstep, rfl⟩⟩, ?_⟩
      have hlater : s.Inv (HadDiscount now (past ++ [action]))
          (WasGranted now (past ++ [action])) :=
        hinv.mono (fun _ _ hd => hd.later [action]) fun _ _ hgranted => hgranted.later [action]
      refine hlater.step (fun telegramId => ⟨past, [action], s, rfl, hpast, rfl⟩) ?_ hstep
      rintro telegramId tariff days rfl userId
      exact ⟨past, days, [], s, rfl, hpast, rfl⟩)
    ⟨rfl, by constructor <;> simp⟩ run
  exact hhistory.2

/-- A row that was sold: for a tap of its user, on a plan that is for sale, at a discount the user
had, and for a charge that has been paid and leaves the price of the plan. -/
structure SoldFor (now : DateTime) (actions : List SalesAction) (s : Sales) (row : SubscriptionRow)
    (i : Nat) (offer : Offer) (plan : TariffPlan) (opt : DurationOption) : Prop where
  asked : s.offers[i]? = some offer
  opened : offer.sub = row.id
  buyer : s.Owns offer.tap.telegramId row
  tariff : getPlan row.tariff = some plan
  available : plan.available = true
  duration : getDuration offer.tap.durCode = some opt
  period : row.periodDays = opt.days
  discount : HadDiscount now actions offer.tap.telegramId offer.tap.discount
  nonneg : 0 ≤ offer.tap.discount
  paid : i ∈ s.paid ∨ offer.tap.discount = 100
  net : effectiveProfitUah plan.profitUah opt offer.tap.discount / offer.rate ≤ offer.amount.net

theorem profitUah_pos {tariff : String} {plan : TariffPlan} (h : getPlan tariff = some plan) :
    0 < plan.profitUah := by
  obtain ⟨t, -, rfl⟩ := Option.map_eq_some_iff.mp h
  cases t with
  | standard => decide +kernel
  | pro => decide +kernel
  | premium => decide +kernel

theorem getDuration_fair {code : String} {opt : DurationOption} (h : getDuration code = some opt) :
    opt.Fair := by
  obtain ⟨d, -, rfl⟩ := Option.map_eq_some_iff.mp h
  exact DURATIONS_fair d

/-- Every active subscription is a row that an administrator has granted to its user and that no
offer is about, or it was sold to its user. -/
theorem subscriptions_paid {now : DateTime} {actions : List SalesAction} {row : SubscriptionRow}
    (run : exec step { now } actions = some s) (mem : row ∈ s.subs)
    (active : row.status = .active) :
    (∃ telegramId, s.Given (WasGranted now actions) telegramId row) ∨
      ∃ i offer plan opt, SoldFor now actions s row i offer plan opt := by
  have hinv := inv_of_run run
  have hrow := hinv.rows row mem
  obtain hgiven | ⟨i, offer, hoffer, hsub, hpaid⟩ := hrow.active active
  · exact .inl hgiven
  · refine .inr ?_
    have hmem : offer ∈ s.offers := List.mem_of_getElem? hoffer
    obtain ⟨plan, opt, htap, hrate, hamount⟩ := hinv.offers offer hmem
    obtain ⟨htariff, hperiod, hbuyer⟩ := hrow.opened offer hmem hsub
    refine ⟨i, offer, plan, opt, hoffer, hsub, hbuyer, ?_, htap.available, htap.period, ?_,
      htap.known, htap.nonneg, ?_, ?_⟩
    · rw [htariff, htap.tariff]
    · rw [htap.period] at hperiod
      exact (Option.some.inj hperiod).symm
    · refine hpaid.symm.imp_right fun hfree => ?_
      have hle : (offer.tap.discount : ℚ) ≤ 100 := by exact_mod_cast htap.le
      have heffective := (charge_eq_free_iff htap.available).mp (hamount.symm.trans hfree)
      have hfull := (effectiveProfitUah_nonpos_iff (profitUah_pos htap.tariff)
        (getDuration_fair htap.period) hle).mp heffective
      exact_mod_cast hfull
    · rw [hamount]
      exact le_net_charge htap.available hrate

/-- A user comes by a link with a tenth off, and pays a year of Pro in stars. Another one is
granted a month of Standard. -/
def proYearSale : List SalesAction :=
  [.createLink "yt" (some "YouTube") 10, .createLinkCommit 0, .start 7 (some "yt"), .startLink 0,
    .startCommit 0, .payTap .stars 7 "pro" "1y", .updateDiscount "yt" 20,
    .quote 0 (4474 / 100), .pay 0, .successfulPayment 0, .grant 8 "standard" 30]

theorem proYearSale_paid :
    ∃ s sold given, exec step { now := 0 } proYearSale = some s ∧ sold ∈ s.subs ∧ given ∈ s.subs ∧
      sold.status = .active ∧ given.status = .active ∧
      (∃ i offer plan opt, SoldFor 0 proYearSale s sold i offer plan opt) ∧
      ∃ telegramId, s.Given (WasGranted 0 proYearSale) telegramId given := by
  have hobserved : (exec step { now := 0 } proYearSale).map (fun s =>
      (s.subs.map fun row => (row.id, row.status), s.offers.map Offer.sub)) =
        some ([(0, .active), (1, .active)], [0]) := by
    decide +kernel
  obtain ⟨s, hrun, hpair⟩ := Option.map_eq_some_iff.mp hobserved
  obtain ⟨hsubs, hoffers⟩ := Prod.mk.inj hpair
  have hrows : ∀ id ∈ [0, 1], ∃ row ∈ s.subs, (row.id, row.status) = (id, .active) := by
    intro id hid
    refine List.mem_map.mp (hsubs ▸ ?_)
    simpa using hid
  obtain ⟨sold, hsold, hsoldPair⟩ := hrows 0 (by simp)
  obtain ⟨given, hgiven, hgivenPair⟩ := hrows 1 (by simp)
  obtain ⟨hsoldId, hsoldActive⟩ := Prod.mk.inj hsoldPair
  obtain ⟨hgivenId, hgivenActive⟩ := Prod.mk.inj hgivenPair
  refine ⟨s, sold, given, hrun, hsold, hgiven, hsoldActive, hgivenActive, ?_, ?_⟩
  · obtain ⟨telegramId, hwas⟩ | hpaid := subscriptions_paid hrun hsold hsoldActive
    · obtain ⟨offer, hoffer, hsub⟩ : ∃ offer ∈ s.offers, offer.sub = 0 :=
        List.mem_map.mp (hoffers ▸ List.mem_cons_self)
      exact absurd (hsub.trans hsoldId.symm) (hwas.unasked offer hoffer)
    · exact hpaid
  · obtain hwas | ⟨i, offer, plan, opt, hpaid⟩ := subscriptions_paid hrun hgiven hgivenActive
    · exact hwas
    · have hmem : offer.sub ∈ s.offers.map Offer.sub :=
        List.mem_map_of_mem (List.mem_of_getElem? hpaid.asked)
      rw [hoffers, hpaid.opened, hgivenId] at hmem
      simp at hmem

/-! ## Users and links -/

/-- The tables of the users and of the links, with their sequences. -/
def registry (s : Sales) : List Account × Nat × List ReferralLink × Nat :=
  (s.accounts, s.nextUserId, s.links, s.nextLinkId)

/-- What a step does to users, links and the handlers that write them. -/
inductive Effect (s t : Sales) : Prop where
  | same (registry : t.registry = s.registry) (starts : t.starts ⊆ s.starts)
      (drafts : t.drafts ⊆ s.drafts)
  | joined (telegramId : Int) (link : Option Nat) (new : s.account? telegramId = none)
      (origin : link = none ∨ ∃ handler ∈ s.starts, handler.link = some link)
      (registry : t.registry = (s.accounts ++ [⟨s.nextUserId, telegramId, link⟩],
        s.nextUserId + 1, s.links, s.nextLinkId))
      (starts : t.starts ⊆ s.starts) (drafts : t.drafts = s.drafts)
  | attributed (handler : StartHandler) (user : Account) (linkId : Nat) (mem : handler ∈ s.starts)
      (found : handler.user = some user) (sets : handler.link = some (some linkId))
      (registry : t.registry = (s.accounts.map fun account =>
          if account.id = user.id then { account with referredByLinkId := some linkId }
          else account, s.nextUserId, s.links, s.nextLinkId))
      (starts : t.starts ⊆ s.starts) (drafts : t.drafts = s.drafts)
  | left (userId : Nat)
      (registry : t.registry = (s.accounts.filter fun other => other.id ≠ userId, s.nextUserId,
        s.links, s.nextLinkId))
      (starts : t.starts = s.starts) (drafts : t.drafts = s.drafts)
  | started (handler : StartHandler) (found : handler.user = s.account? handler.telegramId)
      (sets : handler.link = none) (registry : t.registry = s.registry)
      (starts : t.starts = s.starts ++ [handler]) (drafts : t.drafts = s.drafts)
  | looked (handler : StartHandler) (mem : handler ∈ s.starts) (registry : t.registry = s.registry)
      (starts : ∀ other ∈ t.starts, other ∈ s.starts ∨
        other = { handler with link := some (s.attributeUser handler) })
      (drafts : t.drafts = s.drafts)
  | drafted (draft : LinkDraft) (matched : codeMatches draft.code = true)
      (registry : t.registry = s.registry) (starts : t.starts = s.starts)
      (drafts : t.drafts = s.drafts ++ [draft])
  | created (draft : LinkDraft) (mem : draft ∈ s.drafts) (new : s.getLinkByCode draft.code = none)
      (registry : t.registry = (s.accounts, s.nextUserId, s.links ++ [⟨s.nextLinkId, draft.code,
        draft.label, draft.discountPercent, s.now⟩], s.nextLinkId + 1))
      (starts : t.starts = s.starts) (drafts : t.drafts ⊆ s.drafts)
  | repriced (code : String) (discountPercent : Int)
      (registry : t.registry = (s.accounts, s.nextUserId, s.links.map fun link =>
        if link.code = code then { link with discountPercent } else link, s.nextLinkId))
      (starts : t.starts = s.starts) (drafts : t.drafts = s.drafts)

namespace Effect

theorem unchanged (registry : t.registry = s.registry) (starts : t.starts = s.starts)
    (drafts : t.drafts = s.drafts) : Effect s t :=
  .same registry (by rw [starts]; exact List.Subset.refl _)
    (by rw [drafts]; exact List.Subset.refl _)

/-- `upsert_user` finds the user or lets one join. -/
theorem upsertUser (telegramId : Int) (registry : t.registry = (s.upsertUser telegramId).1.registry)
    (starts : t.starts = s.starts) (drafts : t.drafts = s.drafts) : Effect s t := by
  unfold Sales.upsertUser at registry
  cases haccount : s.account? telegramId with
  | some account =>
      rw [haccount] at registry
      exact .unchanged registry starts drafts
  | none =>
      rw [haccount] at registry
      exact .joined telegramId none haccount (.inl rfl) registry
        (by rw [starts]; exact List.Subset.refl _) drafts

theorem upsertUser_handlers (s : Sales) (telegramId : Int) :
    (s.upsertUser telegramId).1.starts = s.starts ∧
      (s.upsertUser telegramId).1.drafts = s.drafts := by
  unfold Sales.upsertUser
  split
  · exact ⟨rfl, rfl⟩
  · exact ⟨rfl, rfl⟩

theorem quote (s : Sales) (tap : PayTap) (rate : ℚ) (taps : List PayTap) :
    Effect s { s.quote tap rate with taps } := by
  obtain ⟨hstarts, hdrafts⟩ := upsertUser_handlers s tap.telegramId
  unfold Sales.quote
  split
  · simp only
    split
    · exact .unchanged rfl rfl rfl
    · exact .upsertUser tap.telegramId rfl hstarts hdrafts
    · exact .upsertUser tap.telegramId rfl hstarts hdrafts
    · exact .upsertUser tap.telegramId rfl hstarts hdrafts
  · exact .unchanged rfl rfl rfl

theorem writeStart {handler : StartHandler} {link : Option Nat} {starts : List StartHandler}
    (mem : handler ∈ s.starts) (sets : handler.link = some link) (subset : starts ⊆ s.starts) :
    Effect s { s.writeStart handler link with starts } := by
  unfold Sales.writeStart
  split
  · split
    · exact .same rfl subset (List.Subset.refl _)
    · next hnew =>
        exact .joined handler.telegramId link (Option.not_isSome_iff_eq_none.mp hnew)
          (.inr ⟨handler, mem, sets⟩) rfl subset rfl
  · next user hfound =>
      cases link with
      | none => exact .same rfl subset (List.Subset.refl _)
      | some linkId => exact .attributed handler user linkId mem hfound sets rfl subset rfl

theorem step {action : SalesAction} (hstep : s.step action = some t) : Effect s t := by
  cases action with
  | tick elapsed =>
      cases hstep
      exact .unchanged rfl rfl rfl
  | start telegramId referralCode =>
      cases hstep
      exact .started ⟨telegramId, referralCode, s.account? telegramId, none⟩ rfl rfl rfl rfl rfl
  | startLink index =>
      obtain ⟨handler, hhandler, hlink⟩ := Option.bind_eq_some_iff.mp hstep
      obtain ⟨-, hnext⟩ := Option.ite_none_left_eq_some.mp hlink
      cases hnext
      exact .looked handler (List.mem_of_getElem? hhandler) rfl
        (fun _ hother => List.mem_or_eq_of_mem_set hother) rfl
  | startCommit index =>
      obtain ⟨handler, hhandler, hlink⟩ := Option.bind_eq_some_iff.mp hstep
      obtain ⟨link, hsets, rfl⟩ := Option.map_eq_some_iff.mp hlink
      exact .writeStart (List.mem_of_getElem? hhandler) hsets List.eraseIdx_subset
  | startFails index =>
      cases hstep
      exact .same rfl List.eraseIdx_subset (List.Subset.refl _)
  | payTap channel telegramId tariffId durCode =>
      cases hstep
      unfold Sales.payTap
      split
      · split
        · exact .unchanged rfl rfl rfl
        · exact .unchanged rfl rfl rfl
      · exact .unchanged rfl rfl rfl
  | quote index rate =>
      obtain ⟨tap, -, hquote⟩ := Option.bind_eq_some_iff.mp hstep
      obtain ⟨-, hnext⟩ := Option.ite_none_right_eq_some.mp hquote
      cases hnext
      exact quote s tap rate _
  | quoteFails index =>
      cases hstep
      exact .unchanged rfl rfl rfl
  | invoiceCreated index invoiceId =>
      obtain ⟨i, -, hinvoice⟩ := Option.bind_eq_some_iff.mp hstep
      obtain ⟨offer, -, hcreated⟩ := Option.bind_eq_some_iff.mp hinvoice
      obtain ⟨-, hnext⟩ := Option.ite_none_left_eq_some.mp hcreated
      cases hnext
      exact .unchanged rfl rfl rfl
  | invoiceFails index =>
      cases hstep
      exact .unchanged rfl rfl rfl
  | pay index =>
      obtain ⟨offer, -, hpay⟩ := Option.bind_eq_some_iff.mp hstep
      obtain ⟨-, hnext⟩ := Option.ite_none_right_eq_some.mp hpay
      cases hnext
      exact .unchanged rfl rfl rfl
  | successfulPayment index =>
      obtain ⟨offer, -, hpayment⟩ := Option.bind_eq_some_iff.mp hstep
      obtain ⟨-, hnext⟩ := Option.ite_none_right_eq_some.mp hpayment
      cases hnext
      exact .unchanged rfl rfl rfl
  | check sub =>
      cases hstep
      unfold Sales.check
      split
      · exact .unchanged rfl rfl rfl
      · split
        · exact .unchanged rfl rfl rfl
        · exact .unchanged rfl rfl rfl
  | confirmCheck index =>
      obtain ⟨sub, -, rfl⟩ := Option.map_eq_some_iff.mp hstep
      exact .unchanged rfl rfl rfl
  | checkFails index =>
      cases hstep
      exact .unchanged rfl rfl rfl
  | grant telegramId tariff days =>
      cases hstep
      unfold Sales.grant
      split
      · exact .unchanged rfl rfl rfl
      · obtain ⟨hstarts, hdrafts⟩ := upsertUser_handlers s telegramId
        exact .upsertUser telegramId rfl hstarts hdrafts
  | revoke telegramId =>
      cases hstep
      unfold Sales.revoke
      split
      · exact .unchanged rfl rfl rfl
      · exact .unchanged rfl rfl rfl
  | deleteUser telegramId =>
      cases hstep
      unfold Sales.deleteUser
      split
      · exact .unchanged rfl rfl rfl
      · next account _ => exact .left account.id rfl rfl rfl
  | createLink code label discountPercent =>
      cases hstep
      unfold Sales.createLink
      split
      · exact .unchanged rfl rfl rfl
      · next hmatched =>
          split
          · exact .unchanged rfl rfl rfl
          · split
            · exact .unchanged rfl rfl rfl
            · exact .drafted ⟨code, label, discountPercent⟩ (by simpa using hmatched) rfl rfl rfl
  | createLinkCommit index =>
      obtain ⟨draft, hdraft, rfl⟩ := Option.map_eq_some_iff.mp hstep
      unfold Sales.writeLink
      split
      · exact .same rfl (List.Subset.refl _) List.eraseIdx_subset
      · next hnew =>
          exact .created draft (List.mem_of_getElem? hdraft)
            (Option.not_isSome_iff_eq_none.mp hnew) rfl rfl List.eraseIdx_subset
  | createLinkFails index =>
      cases hstep
      exact .same rfl (List.Subset.refl _) List.eraseIdx_subset
  | updateDiscount code discountPercent =>
      cases hstep
      unfold Sales.updateDiscount
      split
      · exact .unchanged rfl rfl rfl
      · exact .repriced code discountPercent rfl rfl rfl

end Effect

/-- Users are told apart by their keys and by their Telegram ids. -/
structure UsersInv (accounts : List Account) (nextUserId : Nat) : Prop where
  ids : (accounts.map (·.id)).Nodup
  telegramIds : (accounts.map (·.telegramId)).Nodup
  fresh : ∀ account ∈ accounts, account.id < nextUserId

/-- Links are told apart by their keys and by their codes. -/
structure LinksInv (links : List ReferralLink) (nextLinkId : Nat) (drafts : List LinkDraft) :
    Prop where
  ids : (links.map (·.id)).Nodup
  codes : (links.map (·.code)).Nodup
  fresh : ∀ link ∈ links, link.id < nextLinkId
  matched : ∀ link ∈ links, codeMatches link.code = true
  drafts : ∀ draft ∈ drafts, codeMatches draft.code = true

/-- Whoever is attributed is attributed to a link, and a handler only sets what was not set when
it read the row. -/
structure RefsInv (accounts : List Account) (starts : List StartHandler)
    (links : List ReferralLink) : Prop where
  attributions : ∀ account ∈ accounts, ∀ linkId, account.referredByLinkId = some linkId →
    ∃ link ∈ links, link.id = linkId
  sets : ∀ handler ∈ starts, ∀ linkId, handler.link = some (some linkId) →
    (∃ link ∈ links, link.id = linkId) ∧
      ∀ user, handler.user = some user → user.referredByLinkId = none

structure Registered (s : Sales) : Prop where
  users : UsersInv s.accounts s.nextUserId
  links : LinksInv s.links s.nextLinkId s.drafts
  refs : RefsInv s.accounts s.starts s.links

section Registry

variable {accounts : List Account} {nextUserId nextLinkId : Nat} {links : List ReferralLink}
variable {starts starts' : List StartHandler} {drafts drafts' : List LinkDraft}

theorem UsersInv.join (h : UsersInv accounts nextUserId) {telegramId : Int}
    (new : ∀ account ∈ accounts, account.telegramId ≠ telegramId) (link : Option Nat) :
    UsersInv (accounts ++ [⟨nextUserId, telegramId, link⟩]) (nextUserId + 1) where
  ids := by
    rw [List.map_append, List.map_singleton]
    refine h.ids.append (List.nodup_singleton _) ?_
    intro id hid heq
    obtain ⟨account, hmem, rfl⟩ := List.mem_map.mp hid
    exact (h.fresh account hmem).ne (List.mem_singleton.mp heq)
  telegramIds := by
    rw [List.map_append, List.map_singleton]
    refine h.telegramIds.append (List.nodup_singleton _) ?_
    intro other hother heq
    obtain ⟨account, hmem, rfl⟩ := List.mem_map.mp hother
    exact new account hmem (List.mem_singleton.mp heq)
  fresh := by
    intro account hmem
    obtain hmem | hmem := List.mem_append.mp hmem
    · have hlt := h.fresh account hmem
      omega
    · obtain rfl := List.mem_singleton.mp hmem
      exact Nat.lt_succ_self _

/-- An update of some rows leaves another column unique. -/
theorem nodup_column_update {α β : Type} {column : α → β} {p : α → Prop} [DecidablePred p]
    {update : α → α} {rows : List α} (h : (rows.map column).Nodup)
    (same : ∀ row, column (update row) = column row) :
    ((rows.map fun row => if p row then update row else row).map column).Nodup := by
  have hcolumn : (rows.map fun row => if p row then update row else row).map column =
      rows.map column := by
    rw [List.map_map]
    refine List.map_congr_left fun row _ => ?_
    rw [Function.comp_apply]
    split
    · exact same row
    · rfl
  rw [hcolumn]
  exact h

theorem UsersInv.attribute (h : UsersInv accounts nextUserId) (userId linkId : Nat) :
    UsersInv (accounts.map fun account =>
      if account.id = userId then { account with referredByLinkId := some linkId } else account)
      nextUserId where
  ids := nodup_column_update h.ids fun _ => rfl
  telegramIds := nodup_column_update h.telegramIds fun _ => rfl
  fresh := by
    intro _ hmem
    obtain ⟨account, haccount, rfl⟩ := List.mem_map.mp hmem
    split
    · exact h.fresh account haccount
    · exact h.fresh account haccount

theorem UsersInv.filter (h : UsersInv accounts nextUserId) (p : Account → Bool) :
    UsersInv (accounts.filter p) nextUserId where
  ids := h.ids.sublist (List.filter_sublist.map _)
  telegramIds := h.telegramIds.sublist (List.filter_sublist.map _)
  fresh := fun account hmem => h.fresh account (List.mem_of_mem_filter hmem)

theorem LinksInv.insert (h : LinksInv links nextLinkId drafts) {draft : LinkDraft}
    (mem : draft ∈ drafts) (new : ∀ link ∈ links, link.code ≠ draft.code) (createdAt : DateTime)
    (subset : drafts' ⊆ drafts) :
    LinksInv (links ++ [⟨nextLinkId, draft.code, draft.label, draft.discountPercent, createdAt⟩])
      (nextLinkId + 1) drafts' where
  ids := by
    rw [List.map_append, List.map_singleton]
    refine h.ids.append (List.nodup_singleton _) ?_
    intro id hid heq
    obtain ⟨link, hmem, rfl⟩ := List.mem_map.mp hid
    exact (h.fresh link hmem).ne (List.mem_singleton.mp heq)
  codes := by
    rw [List.map_append, List.map_singleton]
    refine h.codes.append (List.nodup_singleton _) ?_
    intro code hcode heq
    obtain ⟨link, hmem, rfl⟩ := List.mem_map.mp hcode
    exact new link hmem (List.mem_singleton.mp heq)
  fresh := by
    intro link hmem
    obtain hmem | hmem := List.mem_append.mp hmem
    · have hlt := h.fresh link hmem
      omega
    · obtain rfl := List.mem_singleton.mp hmem
      exact Nat.lt_succ_self _
  matched := by
    intro link hmem
    obtain hmem | hmem := List.mem_append.mp hmem
    · exact h.matched link hmem
    · obtain rfl := List.mem_singleton.mp hmem
      exact h.drafts draft mem
  drafts := fun draft hmem => h.drafts draft (subset hmem)

theorem LinksInv.reprice (h : LinksInv links nextLinkId drafts) (code : String)
    (discountPercent : Int) :
    LinksInv (links.map fun link =>
      if link.code = code then { link with discountPercent } else link) nextLinkId drafts where
  ids := nodup_column_update h.ids fun _ => rfl
  codes := nodup_column_update h.codes fun _ => rfl
  fresh := by
    intro _ hmem
    obtain ⟨link, hlink, rfl⟩ := List.mem_map.mp hmem
    split
    · exact h.fresh link hlink
    · exact h.fresh link hlink
  matched := by
    intro _ hmem
    obtain ⟨link, hlink, rfl⟩ := List.mem_map.mp hmem
    split
    · exact h.matched link hlink
    · exact h.matched link hlink
  drafts := h.drafts

theorem LinksInv.draft (h : LinksInv links nextLinkId drafts)
    (matched : ∀ draft ∈ drafts', codeMatches draft.code = true) :
    LinksInv links nextLinkId drafts' :=
  ⟨h.ids, h.codes, h.fresh, h.matched, matched⟩

theorem RefsInv.subset (h : RefsInv accounts starts links) (subset : starts' ⊆ starts) :
    RefsInv accounts starts' links :=
  ⟨h.attributions, fun handler hmem => h.sets handler (subset hmem)⟩

/-- The links are still there, whatever their discounts are. -/
theorem RefsInv.relink (h : RefsInv accounts starts links) {links' : List ReferralLink}
    (kept : ∀ link ∈ links, ∃ link' ∈ links', link'.id = link.id) :
    RefsInv accounts starts links' where
  attributions := by
    intro account hmem linkId hlink
    obtain ⟨link, hmem, rfl⟩ := h.attributions account hmem linkId hlink
    exact kept link hmem
  sets := by
    intro handler hmem linkId hlink
    obtain ⟨⟨link, hmem, rfl⟩, hunset⟩ := h.sets handler hmem linkId hlink
    exact ⟨kept link hmem, hunset⟩

end Registry

theorem Registered.of_eq {accounts : List Account} {nextUserId nextLinkId : Nat}
    {links : List ReferralLink} (registry : t.registry = (accounts, nextUserId, links, nextLinkId))
    (users : UsersInv accounts nextUserId) (links' : LinksInv links nextLinkId t.drafts)
    (refs : RefsInv accounts t.starts links) : t.Registered := by
  simp only [Sales.registry, Prod.mk.injEq] at registry
  obtain ⟨rfl, rfl, rfl, rfl⟩ := registry
  exact ⟨users, links', refs⟩

/-- What `attribute_user` sets is a link, and nothing was set before. -/
theorem attributeUser_eq_some {handler : StartHandler} {linkId : Nat}
    (h : s.attributeUser handler = some linkId) :
    (∃ link ∈ s.links, link.id = linkId) ∧
      ∀ user, handler.user = some user → user.referredByLinkId = none := by
  unfold attributeUser at h
  split at h
  · cases h
  · split at h
    · cases h
    · next hunset =>
        obtain ⟨link, hlink, rfl⟩ := Option.map_eq_some_iff.mp h
        refine ⟨⟨link, List.mem_of_find?_eq_some hlink, rfl⟩, ?_⟩
        intro user huser
        simpa [huser] using fun hset => hunset (.inr hset)

theorem Registered.step (h : s.Registered) (effect : Effect s t) : t.Registered := by
  cases effect with
  | same registry starts drafts =>
      exact .of_eq registry h.users (h.links.draft fun draft hmem => h.links.drafts draft
        (drafts hmem)) (h.refs.subset starts)
  | joined telegramId link new origin registry starts drafts =>
      have hnew : ∀ account ∈ s.accounts, account.telegramId ≠ telegramId := by
        simpa [account?] using new
      refine .of_eq registry (h.users.join hnew link) (by rw [drafts]; exact h.links) ⟨?_, ?_⟩
      · intro account hmem linkId hlink
        obtain hmem | hmem := List.mem_append.mp hmem
        · exact h.refs.attributions account hmem linkId hlink
        · obtain rfl := List.mem_singleton.mp hmem
          simp only at hlink
          obtain horigin | ⟨handler, hhandler, hsets⟩ := origin
          · rw [horigin] at hlink
            cases hlink
          · exact (h.refs.sets handler hhandler linkId (by rw [hsets, hlink])).1
      · exact fun handler hmem => h.refs.sets handler (starts hmem)
  | attributed handler user linkId mem found sets registry starts drafts =>
      refine .of_eq registry (h.users.attribute user.id linkId) (by rw [drafts]; exact h.links)
        ⟨?_, fun handler hmem => h.refs.sets handler (starts hmem)⟩
      intro _ hmem other hlink
      obtain ⟨account, haccount, rfl⟩ := List.mem_map.mp hmem
      split at hlink
      · obtain rfl := Option.some.inj hlink
        exact (h.refs.sets handler mem linkId sets).1
      · exact h.refs.attributions account haccount other hlink
  | left userId registry starts drafts =>
      refine .of_eq registry (h.users.filter _) (by rw [drafts]; exact h.links) ⟨?_, ?_⟩
      · exact fun account hmem => h.refs.attributions account (List.mem_of_mem_filter hmem)
      · rw [starts]
        exact h.refs.sets
  | started handler found sets registry starts drafts =>
      refine .of_eq registry h.users (by rw [drafts]; exact h.links) ⟨h.refs.attributions, ?_⟩
      intro other hmem linkId hlink
      rw [starts] at hmem
      obtain hmem | hmem := List.mem_append.mp hmem
      · exact h.refs.sets other hmem linkId hlink
      · obtain rfl := List.mem_singleton.mp hmem
        rw [sets] at hlink
        cases hlink
  | looked handler mem registry starts drafts =>
      refine .of_eq registry h.users (by rw [drafts]; exact h.links) ⟨h.refs.attributions, ?_⟩
      intro other hmem linkId hlink
      obtain hmem | rfl := starts other hmem
      · exact h.refs.sets other hmem linkId hlink
      · exact attributeUser_eq_some (Option.some.inj hlink)
  | drafted draft matched registry starts drafts =>
      refine .of_eq registry h.users (h.links.draft ?_) (by rw [starts]; exact h.refs)
      intro other hmem
      rw [drafts] at hmem
      obtain hmem | hmem := List.mem_append.mp hmem
      · exact h.links.drafts other hmem
      · obtain rfl := List.mem_singleton.mp hmem
        exact matched
  | created draft mem new registry starts drafts =>
      have hnew : ∀ link ∈ s.links, link.code ≠ draft.code := by
        simpa [getLinkByCode] using new
      refine .of_eq registry h.users (h.links.insert mem hnew _ drafts) ?_
      rw [starts]
      exact h.refs.relink fun link hmem => ⟨link, List.mem_append_left _ hmem, rfl⟩
  | repriced code discountPercent registry starts drafts =>
      refine .of_eq registry h.users ?_ ?_
      · rw [drafts]
        exact h.links.reprice code discountPercent
      · rw [starts]
        refine h.refs.relink fun link hmem => ⟨_, List.mem_map_of_mem hmem, ?_⟩
        split
        · rfl
        · rfl

theorem registered_of_run {now : DateTime} {actions : List SalesAction}
    (run : exec step { now } actions = some s) : s.Registered := by
  have hinitial : Sales.Registered { now } := by
    refine ⟨⟨?_, ?_, ?_⟩, ⟨?_, ?_, ?_, ?_, ?_⟩, ⟨?_, ?_⟩⟩
    all_goals simp
  exact exec_invariant (fun _ _ _ h hstep => h.step (.step hstep)) hinitial run

/-- In every run users, keys and codes are unique, every code can stand in a link, every
attribution is to a link that is there, and every discount is a part of the price. -/
theorem tables_registered {now : DateTime} {actions : List SalesAction}
    (run : exec step { now } actions = some s) :
    s.Registered ∧ ∀ telegramId, 0 ≤ s.getDiscountPercent telegramId ∧
      s.getDiscountPercent telegramId ≤ 100 := by
  refine ⟨registered_of_run run, fun telegramId => ?_⟩
  obtain hzero | ⟨link, hlink, heq⟩ := s.getDiscountPercent_cases telegramId
  · omega
  · rw [heq]
    exact (inv_of_run run).links link hlink

/-- Two administrators make a link with the same code at the same time, and two new users with
the same id start at the same time. -/
def racingAdmins : List SalesAction :=
  [.createLink "yt" none 10, .createLink "yt" none 100, .createLinkCommit 0, .createLinkCommit 0,
    .start 7 (some "yt"), .start 7 none, .startLink 0, .startLink 1, .startCommit 1,
    .startCommit 0]

theorem racingAdmins_registered :
    ∃ s, exec step { now := 0 } racingAdmins = some s ∧ s.links.length = 1 ∧
      s.accounts.length = 1 ∧ s.Registered := by
  have hobserved : (exec step { now := 0 } racingAdmins).map (fun s =>
      (s.links.length, s.accounts.length)) = some (1, 1) := by decide +kernel
  obtain ⟨s, hrun, hlengths⟩ := Option.map_eq_some_iff.mp hobserved
  obtain ⟨hlinks, haccounts⟩ := Prod.mk.inj hlengths
  exact ⟨s, hrun, hlinks, haccounts, (tables_registered hrun).1⟩

/-! ## First touch -/

/-- The user is attributed, and whoever still has an older row of the user has it so. -/
structure Attributed (s : Sales) (userId linkId : Nat) : Prop where
  row : ∀ account ∈ s.accounts, account.id = userId → account.referredByLinkId = some linkId
  handlers : ∀ handler ∈ s.starts, ∀ user, handler.user = some user → user.id = userId →
    user.referredByLinkId ≠ none
  issued : userId < s.nextUserId

theorem Attributed.of_eq {userId linkId : Nat} {accounts : List Account}
    {nextUserId nextLinkId : Nat} {links : List ReferralLink}
    (registry : t.registry = (accounts, nextUserId, links, nextLinkId))
    (row : ∀ account ∈ accounts, account.id = userId → account.referredByLinkId = some linkId)
    (handlers : ∀ handler ∈ t.starts, ∀ user, handler.user = some user → user.id = userId →
      user.referredByLinkId ≠ none) (issued : userId < nextUserId) :
    t.Attributed userId linkId := by
  simp only [Sales.registry, Prod.mk.injEq] at registry
  obtain ⟨rfl, rfl, rfl, rfl⟩ := registry
  exact ⟨row, handlers, issued⟩

/-- No step sets the link again: a handler only does so if it has read the row without one. -/
theorem Attributed.step {userId linkId : Nat} (h : s.Attributed userId linkId)
    (registered : s.Registered) (effect : Effect s t) : t.Attributed userId linkId := by
  cases effect with
  | same registry starts drafts =>
      exact .of_eq registry h.row (fun handler hmem => h.handlers handler (starts hmem)) h.issued
  | joined telegramId link new origin registry starts drafts =>
      refine .of_eq registry ?_ (fun handler hmem => h.handlers handler (starts hmem))
        (Nat.lt_succ_of_lt h.issued)
      intro account hmem hid
      obtain hmem | hmem := List.mem_append.mp hmem
      · exact h.row account hmem hid
      · obtain rfl := List.mem_singleton.mp hmem
        exact absurd hid h.issued.ne'
  | attributed handler user other mem found sets registry starts drafts =>
      refine .of_eq registry ?_ (fun handler hmem => h.handlers handler (starts hmem)) h.issued
      intro _ hmem hid
      obtain ⟨account, haccount, rfl⟩ := List.mem_map.mp hmem
      split at hid
      · next huser =>
          have hunset := (registered.refs.sets handler mem other sets).2 user found
          exact absurd hunset (h.handlers handler mem user found (huser.symm.trans hid))
      · next huser =>
          rw [if_neg huser]
          exact h.row account haccount hid
  | left other registry starts drafts =>
      refine .of_eq registry ?_ (by rw [starts]; exact h.handlers) h.issued
      exact fun account hmem => h.row account (List.mem_of_mem_filter hmem)
  | started handler found sets registry starts drafts =>
      refine .of_eq registry h.row ?_ h.issued
      intro other hmem user huser hid
      rw [starts] at hmem
      obtain hmem | hmem := List.mem_append.mp hmem
      · exact h.handlers other hmem user huser hid
      · obtain rfl := List.mem_singleton.mp hmem
        have hrow := h.row user (account?_eq_some (found.symm.trans huser)).1 hid
        rw [hrow]
        exact Option.some_ne_none _
  | looked handler mem registry starts drafts =>
      refine .of_eq registry h.row ?_ h.issued
      intro other hmem user huser hid
      obtain hmem | rfl := starts other hmem
      · exact h.handlers other hmem user huser hid
      · exact h.handlers handler mem user huser hid
  | drafted draft matched registry starts drafts =>
      exact .of_eq registry h.row (by rw [starts]; exact h.handlers) h.issued
  | created draft mem new registry starts drafts =>
      exact .of_eq registry h.row (by rw [starts]; exact h.handlers) h.issued
  | repriced code discountPercent registry starts drafts =>
      exact .of_eq registry h.row (by rw [starts]; exact h.handlers) h.issued

/-- Once the user is attributed, and no handler is left that has read the row without a link, the
attribution stays as long as the row does. -/
theorem attribution_kept {now : DateTime} {first rest : List SalesAction} {account : Account}
    {linkId : Nat} (before : exec step { now } first = some s) (after : exec step s rest = some t)
    (mem : account ∈ s.accounts) (attributed : account.referredByLinkId = some linkId)
    (settled : ∀ handler ∈ s.starts, ∀ user, handler.user = some user → user.id = account.id →
      user.referredByLinkId ≠ none) :
    ∀ later ∈ t.accounts, later.id = account.id → later.referredByLinkId = some linkId := by
  have hregistered : s.Registered := registered_of_run before
  have hattributed : s.Attributed account.id linkId := by
    refine ⟨?_, settled, hregistered.users.fresh account mem⟩
    intro other hother hid
    rw [List.inj_on_of_nodup_map hregistered.users.ids hother mem hid]
    exact attributed
  have hrun := exec_invariant (I := fun s => s.Registered ∧ s.Attributed account.id linkId)
    (fun _ _ _ ⟨hregistered, hattributed⟩ hstep =>
      ⟨hregistered.step (.step hstep), hattributed.step hregistered (.step hstep)⟩)
    ⟨hregistered, hattributed⟩ after
  exact hrun.2.row

/-- The first link of a user, and the handler is done. -/
def firstTouch : List SalesAction :=
  [.createLink "yt" none 10, .createLinkCommit 0, .createLink "tv" none 50, .createLinkCommit 0,
    .start 7 (some "yt"), .startLink 0, .startCommit 0]

/-- The user comes by another link. -/
def secondTouch : List SalesAction := [.start 7 (some "tv"), .startLink 0, .startCommit 0]

theorem secondTouch_kept :
    ∃ s t, exec step { now := 0 } firstTouch = some s ∧ exec step s secondTouch = some t ∧
      ∀ later ∈ t.accounts, later.id = 0 → later.referredByLinkId = some 0 := by
  have hfirst : (exec step { now := 0 } firstTouch).map (fun s => (s.accounts, s.starts)) =
      some ([⟨0, 7, some 0⟩], []) := by decide +kernel
  obtain ⟨s, hrun, htables⟩ := Option.map_eq_some_iff.mp hfirst
  obtain ⟨haccounts, hstarts⟩ := Prod.mk.inj htables
  have hsecond : ((exec step { now := 0 } firstTouch).bind fun s =>
      exec step s secondTouch).isSome = true := by decide +kernel
  rw [hrun, Option.bind_some] at hsecond
  obtain ⟨t, hlater⟩ := Option.isSome_iff_exists.mp hsecond
  have hmem : ⟨0, 7, some 0⟩ ∈ s.accounts := by
    rw [haccounts]
    exact List.mem_cons_self
  refine ⟨s, t, hrun, hlater, attribution_kept hrun hlater hmem rfl ?_⟩
  rw [hstarts]
  intro handler hhandler
  cases hhandler

-- Two handlers that have both read the row without a link: the last one sets it.
example : (exec step { now := 0 }
    [.createLink "yt" none 10, .createLinkCommit 0, .createLink "tv" none 50,
      .createLinkCommit 0, .start 7 none, .startLink 0, .startCommit 0, .start 7 (some "yt"),
      .start 7 (some "tv"), .startLink 0, .startLink 1, .startCommit 0, .startCommit 0]).map
    (fun s => s.accounts) = some [⟨0, 7, some 1⟩] := by
  decide +kernel

end Sales

end UserTgBot.Payments
