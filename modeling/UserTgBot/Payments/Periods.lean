import UserTgBot.Payments.Subscriptions

/-!
# A payment buys its period once

`activate` asks neither for the status of the row nor whether the payment has been used, and
none of its callers does. So a payment moves the period and revives the row each time it is
confirmed. Runs in which no payment is confirmed for a row that already has it are the ones in
which every activation is bought.
-/

namespace UserTgBot.Payments

open Transition

/-- The period has moved, or the row has become active. -/
def Subscription.Changed (row row' : Subscription) : Prop :=
  row'.startedAt ≠ row.startedAt ∨ row'.expiresAt ≠ row.expiresAt ∨
    (row.status ≠ .active ∧ row'.status = .active)

/-- The row is as an activation at this moment would leave it. -/
def Subscription.JustActivated (now : DateTime) (row : Subscription) : Prop :=
  row.status = .active ∧ row.startedAt = some now ∧
    row.expiresAt = some (now + daysDelta (periodOf none row))

namespace Shop

/-- A row changes only for a payment that has not been used for it. -/
def Bought (m m' : Shop) : Prop :=
  ∀ (i : Nat) (row row' : Subscription), m.subs[i]? = some row → m'.subs[i]? = some row' →
    Subscription.Changed row row' →
      ∃ payment, (i, payment) ∈ m'.credited ∧ (i, payment) ∉ m.credited

/-- The payment is not used up for the row, or the row has got its period at this very moment. -/
def Unused (m : Shop) (sub : Nat) (payment : Payment) : Prop :=
  ∀ row ∈ m.subs[sub]?, (sub, payment) ∈ m.credited → Subscription.JustActivated m.now row

/-- Checks and deliveries that reach `activate` bring an unused payment. -/
def Fresh (m : Shop) : Action → Prop
  | .confirmCheck index => ∀ check ∈ m.checks[index]?, m.Unused check.1 (.invoice check.2)
  | .successfulPayment sub chargeId => m.Unused sub (.charge chargeId)
  | _ => True

end Shop

/-- Between any two moments of the run rows change only for payments new in between. -/
def PaysOnce (m : Shop) (actions : List Action) : Prop :=
  ∀ past between rest t t', actions = past ++ (between ++ rest) →
    exec Shop.step m past = some t → exec Shop.step t between = some t' → t.Bought t'

theorem changed_activate_iff {now : DateTime} {row : Subscription} :
    Subscription.Changed row (activate now none row) ↔ ¬Subscription.JustActivated now row := by
  rw [Subscription.Changed, Subscription.JustActivated, activate]
  simp only [and_true]
  tauto

section Steps

variable {m : Shop} {sub : Nat} {payment : Payment}

theorem bought_of_subs {m' : Shop} (h : ∀ (i : Nat) (row row' : Subscription),
    m.subs[i]? = some row → m'.subs[i]? = some row' → ¬Subscription.Changed row row') :
    m.Bought m' :=
  fun i row row' hrow hrow' hchanged => absurd hchanged (h i row row' hrow hrow')

theorem not_changed_self (row : Subscription) : ¬Subscription.Changed row row := by
  rintro (h | h | ⟨h, h'⟩)
  · exact h rfl
  · exact h rfl
  · exact h h'

/-- Steps that leave the rows alone buy nothing. -/
theorem bought_of_same {m' : Shop} (h : m'.subs = m.subs) : m.Bought m' := by
  refine bought_of_subs fun i row row' hrow hrow' => ?_
  rw [h, hrow] at hrow'
  cases hrow'
  exact not_changed_self row

/-- Confirming a payment is in order exactly if it has not been used. -/
theorem bought_confirm_iff : m.Bought (m.confirm sub payment) ↔ m.Unused sub payment := by
  rw [Shop.confirm, Shop.Unused]
  cases hrow : m.subs[sub]? with
  | none => exact iff_of_true (bought_of_same rfl) nofun
  | some row =>
      obtain ⟨hlt, -⟩ := List.getElem?_eq_some_iff.mp hrow
      have hset : (m.subs.set sub (activate m.now none row))[sub]? =
          some (activate m.now none row) := by
        rw [List.getElem?_set_self hlt]
      constructor
      · intro hbought found hfound hused
        obtain rfl : row = found := Option.some.inj hfound
        by_contra hnot
        obtain ⟨payment', hnew, hfresh⟩ :=
          hbought sub row _ hrow hset (changed_activate_iff.mpr hnot)
        obtain heq | hold := List.mem_cons.mp hnew
        · exact hfresh (heq ▸ hused)
        · exact hfresh hold
      · intro hunused i found found' hfound hfound' hchanged
        by_cases heq : i = sub
        · subst heq
          cases hrow.symm.trans hfound
          cases hset.symm.trans hfound'
          refine ⟨payment, List.mem_cons_self, fun hused => ?_⟩
          exact changed_activate_iff.mp hchanged (hunused row rfl hused)
        · rw [List.getElem?_set_ne (Ne.symm heq), hfound] at hfound'
          cases hfound'
          exact absurd hchanged (not_changed_self found)

theorem upsertUser_subs (telegramId : Int) : (m.upsertUser telegramId).1.subs = m.subs := by
  rw [Shop.upsertUser]
  split <;> rfl

theorem bought_revoke (telegramId : Int) : m.Bought (m.revoke telegramId) := by
  rw [Shop.revoke]
  split
  · exact bought_of_same rfl
  · refine bought_of_subs fun i row row' hrow hrow' => ?_
    rw [List.getElem?_map, hrow] at hrow'
    cases hrow'
    dsimp only
    split
    · rintro (h | h | ⟨-, h⟩)
      · exact h rfl
      · exact h rfl
      · cases h
    · exact not_changed_self row

theorem createPending_subs (telegramId : Int) (tariff providerName : String) (days : Int) :
    ∃ row, (m.createPending telegramId tariff providerName days).subs = m.subs ++ [row] :=
  ⟨_, congrArg (· ++ _) (upsertUser_subs telegramId)⟩

/-- New rows come after the others. -/
theorem bought_of_append {m' : Shop} {row : Subscription} (h : m'.subs = m.subs ++ [row]) :
    m.Bought m' := by
  refine bought_of_subs fun i found found' hfound hfound' => ?_
  obtain ⟨hlt, -⟩ := List.getElem?_eq_some_iff.mp hfound
  rw [h, List.getElem?_append_left hlt, hfound] at hfound'
  cases hfound'
  exact not_changed_self found

theorem grantFree_subs (telegramId : Int) (tariffId : String) (days : Int) :
    ∃ row, (m.grantFree telegramId tariffId days).subs = m.subs ++ [row] := by
  obtain ⟨row, hrow⟩ := createPending_subs (m := m) telegramId tariffId "referral_free" days
  have hlast : (m.createPending telegramId tariffId "referral_free" days).subs[m.subs.length]? =
      some row := by
    simp [hrow]
  refine ⟨activate (m.createPending telegramId tariffId "referral_free" days).now none row, ?_⟩
  rw [Shop.grantFree, Shop.confirm]
  rw [hlast]
  simp only [hrow]
  rw [List.set_append_right _ _ (Nat.le_refl _), Nat.sub_self]
  rfl

theorem bought_payTap (channel : Channel) (telegramId : Int) (tariffId durCode : String)
    (discount : ℚ) : m.Bought (m.payTap channel telegramId tariffId durCode discount) := by
  rw [Shop.payTap]
  split
  · rename_i plan opt _ _
    split
    · exact bought_of_same rfl
    · split
      · obtain ⟨row, hrow⟩ := grantFree_subs (m := m) telegramId tariffId opt.days
        exact bought_of_append hrow
      · obtain ⟨row, hrow⟩ :=
          createPending_subs (m := m) telegramId tariffId channel.providerName opt.days
        cases channel <;> exact bought_of_append hrow
  · exact bought_of_same rfl

theorem bought_invoiceCreated (index : Nat) (invoiceId : String) {m' : Shop}
    (hstep : m.step (.invoiceCreated index invoiceId) = some m') : m.Bought m' := by
  obtain ⟨sub, -, rfl⟩ := Option.map_eq_some_iff.mp hstep
  refine bought_of_subs fun i row row' hrow hrow' => ?_
  rw [List.getElem?_modify, hrow] at hrow'
  cases hrow'
  dsimp only
  split <;> exact not_changed_self row

theorem bought_check (i : Nat) : m.Bought (m.check i) := by
  rw [Shop.check]
  split
  · exact bought_of_same rfl
  · split <;> exact bought_of_same rfl

/-- One step: everything but a confirmation is in order, a confirmation if it is fresh. -/
theorem bought_step_iff (m : Shop) (action : Action) :
    (∀ m', m.step action = some m' → m.Bought m') ↔ m.Fresh action := by
  cases action with
  | tick elapsed =>
      refine iff_of_true ?_ trivial
      rintro _ ⟨⟩
      exact bought_of_same rfl
  | payTap channel telegramId tariffId durCode discount =>
      refine iff_of_true ?_ trivial
      rintro _ ⟨⟩
      exact bought_payTap channel telegramId tariffId durCode discount
  | invoiceCreated index invoiceId =>
      exact iff_of_true (fun m' hstep => bought_invoiceCreated index invoiceId hstep) trivial
  | invoicePaid invoiceId =>
      refine iff_of_true ?_ trivial
      rintro _ ⟨⟩
      exact bought_of_same rfl
  | check sub =>
      refine iff_of_true ?_ trivial
      rintro _ ⟨⟩
      exact bought_check sub
  | confirmCheck index =>
      dsimp only [Shop.step, Shop.Fresh]
      cases hcheck : m.checks[index]? with
      | none => exact iff_of_true nofun nofun
      | some check =>
          obtain ⟨sub, invoiceId⟩ := check
          have hconfirm : Shop.Bought m ({ m with checks := m.checks.eraseIdx index }.confirm sub
              (.invoice invoiceId)) ↔ m.Unused sub (.invoice invoiceId) :=
            bought_confirm_iff (m := { m with checks := m.checks.eraseIdx index })
          constructor
          · rintro hbought _ ⟨⟩
            exact hconfirm.mp (hbought _ rfl)
          · rintro hfresh _ ⟨⟩
            exact hconfirm.mpr (hfresh _ rfl)
  | successfulPayment sub chargeId =>
      constructor
      · intro hbought
        exact bought_confirm_iff.mp (hbought _ rfl)
      · rintro hfresh _ ⟨⟩
        exact bought_confirm_iff.mpr hfresh
  | revoke telegramId =>
      refine iff_of_true ?_ trivial
      rintro _ ⟨⟩
      exact bought_revoke telegramId

end Steps

section Runs

/-- Rows stay in their place and payments stay credited. -/
structure Grows (m m' : Shop) : Prop where
  rows : m.subs.length ≤ m'.subs.length
  credited : ∀ pair ∈ m.credited, pair ∈ m'.credited

theorem grows_confirm (m : Shop) (sub : Nat) (payment : Payment) :
    Grows m (m.confirm sub payment) := by
  rw [Shop.confirm]
  split
  · exact ⟨Nat.le_refl _, fun _ => id⟩
  · exact ⟨by simp, fun _ => List.mem_cons_of_mem _⟩

theorem createPending_credited (m : Shop) (telegramId : Int) (tariff providerName : String)
    (days : Int) : (m.createPending telegramId tariff providerName days).credited = m.credited := by
  rw [Shop.createPending, Shop.upsertUser]
  cases m.users.idxOf? telegramId <;> rfl

theorem grows_createPending (m : Shop) (telegramId : Int) (tariff providerName : String)
    (days : Int) : Grows m (m.createPending telegramId tariff providerName days) := by
  obtain ⟨row, hrow⟩ := createPending_subs (m := m) telegramId tariff providerName days
  refine ⟨?_, fun pair hpair => ?_⟩
  · simp [hrow]
  · rwa [createPending_credited]

theorem Grows.trans {m m' m'' : Shop} (h : Grows m m') (h' : Grows m' m'') : Grows m m'' :=
  ⟨Nat.le_trans h.rows h'.rows, fun pair hpair => h'.credited pair (h.credited pair hpair)⟩

theorem grows_payTap (m : Shop) (channel : Channel) (telegramId : Int)
    (tariffId durCode : String) (discount : ℚ) :
    Grows m (m.payTap channel telegramId tariffId durCode discount) := by
  have hself : Grows m m := ⟨Nat.le_refl _, fun _ => id⟩
  rw [Shop.payTap]
  split
  · rename_i plan opt _ _
    split
    · exact hself
    · split
      · exact (grows_createPending m telegramId tariffId _ opt.days).trans (grows_confirm ..)
      · have hcreate := grows_createPending m telegramId tariffId channel.providerName opt.days
        cases channel <;> exact ⟨hcreate.rows, hcreate.credited⟩
  · exact hself

theorem grows_step {m m' : Shop} {action : Action} (hstep : m.step action = some m') :
    Grows m m' := by
  have hself : Grows m m := ⟨Nat.le_refl _, fun _ => id⟩
  cases action with
  | tick elapsed =>
      cases hstep
      exact ⟨hself.rows, hself.credited⟩
  | payTap channel telegramId tariffId durCode discount =>
      cases hstep
      exact grows_payTap ..
  | invoiceCreated index invoiceId =>
      obtain ⟨sub, -, rfl⟩ := Option.map_eq_some_iff.mp hstep
      exact ⟨by simp, hself.credited⟩
  | invoicePaid invoiceId =>
      cases hstep
      exact ⟨hself.rows, hself.credited⟩
  | check sub =>
      cases hstep
      rw [Shop.check]
      split
      · exact hself
      · split
        · exact ⟨hself.rows, hself.credited⟩
        · exact hself
  | confirmCheck index =>
      obtain ⟨⟨sub, invoiceId⟩, -, rfl⟩ := Option.map_eq_some_iff.mp hstep
      have hconfirm := grows_confirm { m with checks := m.checks.eraseIdx index } sub
        (.invoice invoiceId)
      exact ⟨hconfirm.rows, hconfirm.credited⟩
  | successfulPayment sub chargeId =>
      cases hstep
      exact grows_confirm ..
  | revoke telegramId =>
      cases hstep
      rw [Shop.revoke]
      split
      · exact hself
      · exact ⟨by simp, hself.credited⟩

/-- What has changed in two stretches has changed in one of them. -/
theorem Subscription.Changed.or {row row' row'' : Subscription}
    (h : Subscription.Changed row row'') :
    Subscription.Changed row row' ∨ Subscription.Changed row' row'' := by
  unfold Subscription.Changed at *
  grind

theorem Shop.Bought.trans {m m' m'' : Shop} (grows : Grows m m') (grows' : Grows m' m'')
    (h : m.Bought m') (h' : m'.Bought m'') : m.Bought m'' := by
  intro i row row'' hrow hrow'' hchanged
  obtain ⟨hlt, -⟩ := List.getElem?_eq_some_iff.mp hrow
  have hrow' := List.getElem?_eq_getElem (Nat.lt_of_lt_of_le hlt grows.rows)
  obtain hfirst | hsecond := hchanged.or
  · obtain ⟨payment, hnew, hfresh⟩ := h i row _ hrow hrow' hfirst
    exact ⟨payment, grows'.credited _ hnew, hfresh⟩
  · obtain ⟨payment, hnew, hfresh⟩ := h' i _ row'' hrow' hrow'' hsecond
    exact ⟨payment, hnew, fun hold => hfresh (grows.credited _ hold)⟩

/-- A stretch of fresh steps is in order as a whole. -/
theorem bought_exec {m m' : Shop} {actions : List Action}
    (fresh : Meets Shop.step Shop.Fresh m actions) (run : exec Shop.step m actions = some m') :
    Grows m m' ∧ m.Bought m' := by
  induction actions generalizing m with
  | nil =>
      cases run
      exact ⟨⟨Nat.le_refl _, fun _ => id⟩, bought_of_same rfl⟩
  | cons action actions ih =>
      obtain ⟨t, hstep, hrest⟩ := exec_cons_eq_some.mp run
      obtain ⟨here, later⟩ := (meets_cons hstep).mp fresh
      obtain ⟨hgrows, hbought⟩ := ih later hrest
      have hfirst := (bought_step_iff m action).mpr here t hstep
      exact ⟨(grows_step hstep).trans hgrows, hfirst.trans (grows_step hstep) hgrows hbought⟩

end Runs

/-- Payments buy their period once in a run exactly if every confirmation in it brings a payment
that is unused. -/
theorem paysOnce_iff (m : Shop) (actions : List Action) :
    PaysOnce m actions ↔ Meets Shop.step Shop.Fresh m actions := by
  constructor
  · intro h
    refine meets_iff_split.mpr fun past action rest t heq hrun => ?_
    refine (bought_step_iff t action).mp fun t' hstep => ?_
    exact h past [action] rest t t' heq hrun (exec_cons_eq_some.mpr ⟨t', hstep, rfl⟩)
  · rintro h past between rest t t' rfl hpast hbetween
    have hsplit := meets_iff_split.mp h
    have hfresh : Meets Shop.step Shop.Fresh t between := by
      refine meets_iff_split.mpr fun first action last u heq hrun => ?_
      refine hsplit (past ++ first) action (last ++ rest) u ?_ ?_
      · simp [heq]
      · exact exec_append_eq_some.mpr ⟨t, hpast, hrun⟩
    exact (bought_exec hfresh hbetween).2

section Replay

/-- A month of Pro, paid by a Crypto Pay invoice. -/
def purchase : List Action :=
  [.payTap .crypto 1 "pro" "1m" 0, .invoiceCreated 0 "inv", .invoicePaid "inv", .check 0,
    .confirmCheck 0]

def boughtSub : Subscription where
  userId := 0
  tariff := "pro"
  status := .active
  paymentProvider := "crypto_pay"
  externalInvoiceId := some "inv"
  startedAt := some 0
  expiresAt := some (daysDelta 30)
  createdAt := 0

/-- The shop after the purchase. -/
def bought : Shop where
  now := 0
  users := [1]
  subs := [boughtSub]
  paid := ["inv"]
  credited := [(0, .invoice "inv")]

theorem purchase_run : exec Shop.step { now := 0 } purchase = some bought := by decide +kernel

/-- A stretch after the purchase that uses its payment again for the row. -/
theorem not_paysOnce {between : List Action} {row' : Subscription} {m' : Shop}
    (run : exec Shop.step bought between = some m')
    (hrow : m'.subs[0]? = some row')
    (hcredited : m'.credited = [(0, .invoice "inv"), (0, .invoice "inv")])
    (changed : Subscription.Changed boughtSub row') :
    ¬PaysOnce { now := 0 } (purchase ++ between) := by
  intro h
  obtain ⟨payment, hnew, hfresh⟩ := h purchase between [] bought m' (by simp) purchase_run run 0
    boughtSub row' rfl hrow changed
  rw [hcredited] at hnew
  refine hfresh ?_
  simpa [bought] using hnew

/-- Checking a paid invoice again moves the period, and gives a revoked one back. -/
theorem payment_used_twice :
    ¬PaysOnce { now := 0 } (purchase ++ [.tick 1, .check 0, .confirmCheck 0]) ∧
      ¬PaysOnce { now := 0 } (purchase ++ [.revoke 1, .tick 1, .check 0, .confirmCheck 0]) := by
  have hagain : exec Shop.step bought [.tick 1, .check 0, .confirmCheck 0] =
      some { bought with
        now := 1
        subs := [activate 1 none boughtSub]
        credited := [(0, .invoice "inv"), (0, .invoice "inv")] } := by
    decide +kernel
  have hrevived : exec Shop.step bought [.revoke 1, .tick 1, .check 0, .confirmCheck 0] =
      some { bought with
        now := 1
        subs := [activate 1 none boughtSub]
        credited := [(0, .invoice "inv"), (0, .invoice "inv")] } := by
    decide +kernel
  have hmoved : Subscription.Changed boughtSub (activate 1 none boughtSub) := .inl (by decide)
  exact ⟨not_paysOnce hagain rfl rfl hmoved, not_paysOnce hrevived rfl rfl hmoved⟩

end Replay

end UserTgBot.Payments
