import UserTgBot.Payments.Readers

/-!
# Do the readers agree on what is active?

`ReadersAgree` compares what the gate, the dashboard, the admin panel and the statistics of the
referral links say about one state of the database at one moment, for all results that their
queries may have.

The gate and the panel pass over expired rows, the dashboard and the statistics do not. So the
dashboard may show a row that the gate has passed over, and `readersAgree_iff` says when it
does not.
-/

namespace UserTgBot.Payments

open Loops OrderBy

/-- The tables, with their keys. -/
structure Billing where
  users : List Account
  subscriptions : List SubscriptionRow
  links : List ReferralLink
  userIds : (users.map Account.id).Nodup
  telegramIds : (users.map Account.telegramId).Nodup
  subscriptionIds : (subscriptions.map SubscriptionRow.id).Nodup
  linkIds : (links.map ReferralLink.id).Nodup
  codes : (links.map ReferralLink.code).Nodup

namespace Billing

/-- `SELECT ... WHERE telegram_id = ...`. -/
def byTelegramId (s : Billing) (telegramId : Int) : Option Account :=
  s.users.find? (·.telegramId = telegramId)

/-- `SELECT ... WHERE user_id = ...`. -/
def rowsOf (s : Billing) (userId : Nat) : List SubscriptionRow :=
  s.subscriptions.filter (·.userId = userId)

/-- `SELECT ... WHERE user_id = ... AND status = 'active'`. -/
def activeRowsOf (s : Billing) (userId : Nat) : List SubscriptionRow :=
  s.subscriptions.filter fun sub => sub.userId = userId && sub.status = .active

/-- `SELECT ... WHERE status = 'active'`. -/
def activeRows (s : Billing) : List SubscriptionRow :=
  s.subscriptions.filter (·.status = .active)

/-- The link and the tariff of every row of the join over users and their active rows. -/
def referredActive (s : Billing) : List (Nat × String) :=
  s.users.flatMap fun user => (s.activeRowsOf user.id).filterMap fun sub =>
    user.referredByLinkId.map (·, sub.tariff)

/-- The active rows of the users attributed to a link. -/
def attributedRows (s : Billing) (link : Nat) : List SubscriptionRow :=
  (s.users.filter (·.referredByLinkId = some link)).flatMap fun user => s.activeRowsOf user.id

end Billing

/-- A possible result of a query ordered by `created_at DESC`. -/
abbrev NewestFirst (rows result : List SubscriptionRow) : Prop :=
  Desc (fun sub : SubscriptionRow => sub.createdAt) rows result

/-- The readers agree on what is active. -/
structure ReadersAgree (s : Billing) (now : DateTime) : Prop where
  /-- The dashboard reports an active subscription exactly if the gate finds one, and then that
  one. -/
  status : ∀ user ∈ s.users, ∀ subs gate sessions, NewestFirst (s.rowsOf user.id) subs →
    NewestFirst (s.activeRowsOf user.id) gate →
      ∃ active reported, getActiveSubscriptionForUser (.utc now) gate = some active ∧
        (getUserStatus (s.byTelegramId user.telegramId) subs sessions).subscription = reported ∧
        ((∃ info, reported = some info ∧ info.status = "active") ↔ active ≠ none) ∧
        ∀ sub, active = some sub →
          reported = some ⟨sub.tariff, "active", sub.expiresAt⟩
  /-- The panel picks the row of the gate. -/
  panel : ∀ user ∈ s.users, ∀ gate result, NewestFirst (s.activeRowsOf user.id) gate →
    NewestFirst (s.activeRowsOf user.id) result →
      activeSub (naiveUtc (.utc now)) result = getActiveSubscriptionForUser (.utc now) gate
  /-- The metrics count the active rows that have not expired. -/
  metrics : ∀ result, result.Perm s.activeRows →
    ∃ m, getMetrics (.utc now) result = some m ∧
      m.activeSubscriptions =
        s.subscriptions.countP (fun sub => sub.status = .active && sub.current now) ∧
      ∀ tariff, (m.byTariff.lookup tariff).getD 0 = s.subscriptions.countP fun sub =>
        sub.status = .active && sub.current now && sub.tariff = tariff
  /-- The statistics of a link count what the metrics count for its users. -/
  links : ∀ links clicks rows result, Desc ReferralLink.createdAt s.links links →
    clicks.Perm (groupCount (s.users.filterMap Account.referredByLinkId)) →
    rows.Perm (groupCount s.referredActive) →
    ∀ link ∈ s.links, result.Perm (s.attributedRows link.id) →
      ∃ m, getMetrics (.utc now) result = some m ∧
        ∀ stats ∈ listLinksWithStats links clicks rows, stats.code = link.code →
          ∀ tariff, (stats.byTariff.lookup tariff).getD 0 = (m.byTariff.lookup tariff).getD 0

/-- One active row of each user that has any is newer than the others and has not expired, and
no active row of a user attributed to a link has expired. -/
structure Settled (s : Billing) (now : DateTime) : Prop where
  newest : ∀ user ∈ s.users, s.activeRowsOf user.id ≠ [] →
    ∃ sub ∈ s.activeRowsOf user.id, sub.current now = true ∧
      ∀ other ∈ s.activeRowsOf user.id, other ≠ sub → other.createdAt < sub.createdAt
  attributed : ∀ link ∈ s.links, ∀ sub ∈ s.attributedRows link.id, sub.current now = true

section Users

variable {s : Billing} {now : DateTime} {user : Account}

theorem byTelegramId_of_mem (h : user ∈ s.users) : s.byTelegramId user.telegramId = some user := by
  rw [Billing.byTelegramId]
  cases hfind : s.users.find? (·.telegramId = user.telegramId) with
  | none => exact absurd (decide_eq_true rfl) (List.find?_eq_none.mp hfind user h)
  | some found =>
      have hid : found.telegramId = user.telegramId := by simpa using List.find?_some hfind
      have hmem := List.mem_of_find?_eq_some hfind
      exact congrArg some (List.inj_on_of_nodup_map s.telegramIds hmem h hid)

theorem statusValue_eq_active {status : SubscriptionStatus} :
    statusValue status = "active" ↔ status = .active := by
  cases status <;> decide

/-- The dashboard reports the first active row. -/
theorem status_of_find? {subs : List SubscriptionRow} {sub : SubscriptionRow}
    (h : subs.find? (·.status = .active) = some sub) (sessions : List SessionInfo) :
    (getUserStatus (some user) subs sessions).subscription =
      some ⟨sub.tariff, "active", sub.expiresAt⟩ := by
  have hactive : sub.status = .active := by simpa using List.find?_some h
  simp only [getUserStatus, h, Option.some_or, Option.map_some, hactive, statusValue]

/-- Without an active row it reports none. -/
theorem status_of_find?_eq_none {subs : List SubscriptionRow}
    (h : subs.find? (·.status = .active) = none) (sessions : List SessionInfo)
    {info : SubscriptionInfo}
    (reported : (getUserStatus (some user) subs sessions).subscription = some info) :
    info.status ≠ "active" := by
  simp only [getUserStatus, h, Option.none_or, Option.map_eq_some_iff] at reported
  obtain ⟨sub, hhead, rfl⟩ := reported
  intro hactive
  have hmem := List.mem_of_mem_head? hhead
  exact List.find?_eq_none.mp h sub hmem (decide_eq_true (statusValue_eq_active.mp hactive))

theorem mem_activeRowsOf {userId : Nat} {sub : SubscriptionRow} :
    sub ∈ s.activeRowsOf userId ↔ sub ∈ s.rowsOf userId ∧ sub.status = .active := by
  simp [Billing.activeRowsOf, Billing.rowsOf, and_assoc]

/-- What the dashboard shows, the gate finds. -/
theorem current_of_agree (h : ReadersAgree s now) (huser : user ∈ s.users)
    {sub : SubscriptionRow} (hsub : sub ∈ s.activeRowsOf user.id)
    (largest : ∀ other ∈ s.activeRowsOf user.id, other.createdAt ≤ sub.createdAt) :
    sub.current now = true := by
  obtain ⟨hmem, hactive⟩ := mem_activeRowsOf.mp hsub
  obtain ⟨subs, hsubs, hfind⟩ := exists_desc_find? (p := (·.status = .active)) hmem
    (decide_eq_true hactive)
    fun other hother hp => largest other (mem_activeRowsOf.mpr ⟨hother, of_decide_eq_true hp⟩)
  obtain ⟨active, reported, hgate, hreported, hiff, hsame⟩ :=
    h.status user huser subs _ [] hsubs (desc_sortDesc _ _)
  rw [byTelegramId_of_mem huser, status_of_find? hfind] at hreported
  have hsome : active ≠ none := hiff.mp ⟨_, hreported.symm, rfl⟩
  obtain ⟨found, rfl⟩ := Option.ne_none_iff_exists'.mp hsome
  rw [getActiveSubscriptionForUser_utc] at hgate
  have hcurrent : found.current now = true := List.find?_some (Option.some.inj hgate)
  have hexpires : sub.expiresAt = found.expiresAt := congrArg SubscriptionInfo.expiresAt
    (Option.some.inj (hreported.trans (hsame found rfl)))
  rw [SubscriptionRow.current, hexpires]
  exact hcurrent

/-- Agreement leaves no choice among the active rows. -/
theorem newest_of_agree (h : ReadersAgree s now) (huser : user ∈ s.users)
    (some_active : s.activeRowsOf user.id ≠ []) :
    ∃ sub ∈ s.activeRowsOf user.id, sub.current now = true ∧
      ∀ other ∈ s.activeRowsOf user.id, other ≠ sub → other.createdAt < sub.createdAt := by
  obtain ⟨first, rest, hsorted⟩ : ∃ first rest, sortDesc (fun sub : SubscriptionRow =>
      sub.createdAt) (s.activeRowsOf user.id) = first :: rest := by
    refine List.exists_cons_of_ne_nil fun hnil => some_active ?_
    have hperm := (desc_sortDesc (fun sub : SubscriptionRow => sub.createdAt)
      (s.activeRowsOf user.id)).perm
    rw [hnil] at hperm
    exact hperm.nil_eq.symm
  have hfind : (sortDesc (fun sub : SubscriptionRow => sub.createdAt)
      (s.activeRowsOf user.id)).find? (fun _ => true) = some first := by
    rw [hsorted]
    rfl
  obtain ⟨hfirst, -, hlargest⟩ := (desc_sortDesc _ _).find?_max hfind
  have hcurrent := current_of_agree h huser hfirst fun other hother => hlargest other hother rfl
  refine ⟨first, hfirst, hcurrent, fun other hother hne => lt_of_not_ge fun hle => hne ?_⟩
  have hall : ∀ sub ∈ s.activeRowsOf user.id, sub.createdAt ≤ other.createdAt :=
    fun sub hsub => le_trans (hlargest sub hsub rfl) hle
  have hcurrent' := current_of_agree h huser hother hall
  -- one query may find the one row, the other query the other
  obtain ⟨gate, hgate, hgatefind⟩ := exists_desc_find? (p := (·.current now)) hfirst hcurrent
    fun sub hsub _ => hlargest sub hsub rfl
  obtain ⟨result, hresult, hresultfind⟩ := exists_desc_find? (p := (·.current now)) hother
    hcurrent' fun sub hsub _ => hall sub hsub
  have hpanel := h.panel user huser gate result hgate hresult
  rw [activeSub_naiveUtc, getActiveSubscriptionForUser_utc, hgatefind, hresultfind] at hpanel
  exact Option.some.inj (Option.some.inj hpanel)

/-- A row that is newer than the other active ones and has not expired is what all find. -/
theorem status_of_newest {sub : SubscriptionRow} (huser : user ∈ s.users)
    (hsub : sub ∈ s.activeRowsOf user.id) (hcurrent : sub.current now = true)
    (newer : ∀ other ∈ s.activeRowsOf user.id, other ≠ sub → other.createdAt < sub.createdAt)
    {subs gate : List SubscriptionRow} (sessions : List SessionInfo)
    (hsubs : NewestFirst (s.rowsOf user.id) subs)
    (hgate : NewestFirst (s.activeRowsOf user.id) gate) :
    (getUserStatus (s.byTelegramId user.telegramId) subs sessions).subscription =
        some ⟨sub.tariff, "active", sub.expiresAt⟩ ∧
      gate.find? (·.current now) = some sub := by
  obtain ⟨hmem, hactive⟩ := mem_activeRowsOf.mp hsub
  have hfind : subs.find? (·.status = .active) = some sub := by
    refine find?_eq_some_iff.mpr ⟨hmem, decide_eq_true hactive, fun other hother hp hne => ?_⟩
      subs hsubs
    exact newer other (mem_activeRowsOf.mpr ⟨hother, of_decide_eq_true hp⟩) hne
  have hgatefind : gate.find? (·.current now) = some sub :=
    find?_eq_some_iff.mpr ⟨hsub, hcurrent, fun other hother _ hne => newer other hother hne⟩
      gate hgate
  rw [byTelegramId_of_mem huser, status_of_find? hfind]
  exact ⟨rfl, hgatefind⟩

/-- Without an active row nobody finds one. -/
theorem status_of_inactive (huser : user ∈ s.users) (none_active : s.activeRowsOf user.id = [])
    {subs gate : List SubscriptionRow} (sessions : List SessionInfo)
    (hsubs : NewestFirst (s.rowsOf user.id) subs)
    (hgate : NewestFirst (s.activeRowsOf user.id) gate) :
    (∀ info, (getUserStatus (s.byTelegramId user.telegramId) subs sessions).subscription =
        some info → info.status ≠ "active") ∧
      gate.find? (·.current now) = none := by
  have hfind : subs.find? (·.status = .active) = none := by
    refine hsubs.find?_eq_none.mpr fun sub hsub => decide_eq_false fun hactive => ?_
    have hmem := mem_activeRowsOf.mpr ⟨hsub, hactive⟩
    rw [none_active] at hmem
    cases hmem
  rw [byTelegramId_of_mem huser]
  refine ⟨fun info => status_of_find?_eq_none hfind sessions, ?_⟩
  rw [none_active] at hgate
  rw [hgate.perm.eq_nil]
  rfl

end Users

section Links

variable {s : Billing} {now : DateTime} {link : ReferralLink}

/-- Among the keys of the join those of a link and a tariff are the active rows of its users. -/
theorem countP_referredActive (s : Billing) (link : Nat) (tariff : String) :
    s.referredActive.countP (· = (link, tariff)) =
      (s.attributedRows link).countP (·.tariff = tariff) := by
  rw [Billing.referredActive, Billing.attributedRows]
  induction s.users with
  | nil => rfl
  | cons user users ih =>
      rw [List.flatMap_cons, List.countP_append, ih]
      by_cases hlink : user.referredByLinkId = some link
      · rw [List.filter_cons_of_pos (by simp [hlink]), List.flatMap_cons, List.countP_append]
        refine congrArg (· + _) ?_
        simp only [hlink, Option.map_some, List.filterMap_eq_map', List.countP_map]
        refine List.countP_congr fun sub _ => ?_
        simp
      · rw [List.filter_cons_of_neg (by simp [hlink])]
        have hzero : ((s.activeRowsOf user.id).filterMap fun sub =>
            user.referredByLinkId.map (·, sub.tariff)).countP (· = (link, tariff)) = 0 := by
          refine List.countP_eq_zero.mpr fun key hkey heq => hlink ?_
          obtain ⟨sub, -, hsub⟩ := List.mem_filterMap.mp hkey
          obtain ⟨link', hlink', hpair⟩ := Option.map_eq_some_iff.mp hsub
          rw [of_decide_eq_true heq] at hpair
          rw [hlink', (Prod.mk.inj hpair).1]
        rw [hzero, Nat.zero_add]

/-- What the statistics of a link hold for a tariff. -/
theorem getD_lookup_linkStats {links : List ReferralLink} {clicks : List (Nat × Nat)}
    {rows : List ((Nat × String) × Nat)} {stats : ReferralLinkStats}
    (hlinks : Desc ReferralLink.createdAt s.links links)
    (hrows : rows.Perm (groupCount s.referredActive)) (hlink : link ∈ s.links)
    (hstats : stats ∈ listLinksWithStats links clicks rows) (code : stats.code = link.code)
    (tariff : String) :
    (stats.byTariff.lookup tariff).getD 0 =
      (s.attributedRows link.id).countP (·.tariff = tariff) := by
  obtain ⟨link', hlink', rfl⟩ := List.mem_map.mp hstats
  have hsame : link' = link :=
    List.inj_on_of_nodup_map s.codes (hlinks.mem.mp hlink') hlink code
  rw [hsame, linkStats, getD_lookup_byTariffByLink hrows, countP_referredActive]

/-- Counting the rows and the current rows gives the same for each tariff exactly if all are
current. -/
theorem forall_countP_iff (rows : List SubscriptionRow) :
    (∀ tariff, rows.countP (·.tariff = tariff) =
        rows.countP fun sub => sub.current now && sub.tariff = tariff) ↔
      ∀ sub ∈ rows, sub.current now = true := by
  have hsplit : ∀ tariff, rows.countP (fun sub => sub.current now && sub.tariff = tariff) =
      (rows.filter (·.tariff = tariff)).countP (·.current now) := by
    intro tariff
    rw [List.countP_filter]
  constructor
  · intro h sub hsub
    have hcount := h sub.tariff
    rw [hsplit, List.countP_eq_length_filter, eq_comm, List.countP_eq_length] at hcount
    exact hcount sub (List.mem_filter.mpr ⟨hsub, decide_eq_true rfl⟩)
  · intro h tariff
    rw [hsplit, List.countP_eq_length_filter, eq_comm, List.countP_eq_length]
    exact fun sub hsub => h sub (List.mem_of_mem_filter hsub)

end Links

/-- The readers agree exactly on settled databases. -/
theorem readersAgree_iff (s : Billing) (now : DateTime) : ReadersAgree s now ↔ Settled s now := by
  constructor
  · intro h
    refine ⟨fun user huser => newest_of_agree h huser, fun link hlink => ?_⟩
    refine (forall_countP_iff _).mp fun tariff => ?_
    have hlinks := desc_sortDesc ReferralLink.createdAt s.links
    obtain ⟨m, hm, hstats⟩ := h.links _ _ _ _ hlinks (.refl _) (.refl _) link hlink (.refl _)
    obtain ⟨m', hm', -, hcounts⟩ := getMetrics_utc now (s.attributedRows link.id)
    obtain rfl : m = m' := Option.some.inj (hm.symm.trans hm')
    have hmem := List.mem_map_of_mem (f := linkStats (groupCount (s.users.filterMap
      Account.referredByLinkId)) (groupCount s.referredActive)) (hlinks.mem.mpr hlink)
    have htariff := hstats _ hmem rfl tariff
    rwa [getD_lookup_linkStats hlinks (.refl _) hlink hmem rfl, hcounts] at htariff
  · intro h
    refine ⟨?_, ?_, ?_, ?_⟩
    · intro user huser subs gate sessions hsubs hgate
      rw [getActiveSubscriptionForUser_utc]
      by_cases hactive : s.activeRowsOf user.id = []
      · obtain ⟨hreported, hfind⟩ := status_of_inactive huser hactive sessions hsubs hgate
        refine ⟨none, _, by rw [hfind], rfl, iff_of_false ?_ nofun, nofun⟩
        rintro ⟨info, hinfo, hstatus⟩
        exact hreported info hinfo hstatus
      · obtain ⟨sub, hsub, hcurrent, hnewer⟩ := h.newest user huser hactive
        obtain ⟨hreported, hfind⟩ :=
          status_of_newest huser hsub hcurrent hnewer sessions hsubs hgate
        refine ⟨some sub, _, by rw [hfind], hreported, iff_of_true ⟨_, rfl, rfl⟩ nofun, ?_⟩
        rintro _ ⟨⟩
        rfl
    · intro user huser gate result hgate hresult
      rw [activeSub_naiveUtc, getActiveSubscriptionForUser_utc]
      by_cases hactive : s.activeRowsOf user.id = []
      · rw [hactive] at hgate hresult
        rw [hgate.perm.eq_nil, hresult.perm.eq_nil]
      · obtain ⟨sub, hsub, hcurrent, hnewer⟩ := h.newest user huser hactive
        have hfirst : ∀ result, NewestFirst (s.activeRowsOf user.id) result →
            result.find? (·.current now) = some sub :=
          find?_eq_some_iff.mpr ⟨hsub, hcurrent, fun other hother _ => hnewer other hother⟩
        rw [hfirst gate hgate, hfirst result hresult]
    · intro result hresult
      obtain ⟨m, hm, htotal, hcounts⟩ := getMetrics_utc now result
      refine ⟨m, hm, ?_, fun tariff => ?_⟩
      · rw [htotal, hresult.countP_eq, Billing.activeRows, List.countP_filter]
        exact List.countP_congr fun sub _ => by rw [Bool.and_comm]
      · rw [hcounts, hresult.countP_eq, Billing.activeRows, List.countP_filter]
        refine List.countP_congr fun sub _ => ?_
        rw [Bool.and_comm, Bool.and_assoc]
    · intro links clicks rows result hlinks _ hrows link hlink hresult
      obtain ⟨m, hm, -, hcounts⟩ := getMetrics_utc now result
      refine ⟨m, hm, fun stats hstats hcode tariff => ?_⟩
      rw [getD_lookup_linkStats hlinks hrows hlink hstats hcode, hcounts, hresult.countP_eq]
      exact (forall_countP_iff _).mpr (h.attributed link hlink) tariff

/-- A user came by a link and bought a month of Pro, which has expired. -/
def lapsed : Billing where
  users := [⟨1, 70, some 4⟩]
  subscriptions := [
    { id := 9, userId := 1, tariff := "pro", status := .active, paymentProvider := "stars",
      startedAt := some 0, expiresAt := some (daysDelta 30), createdAt := 0 }]
  links := [⟨4, "promo", none, 0, 0⟩]
  userIds := by decide
  telegramIds := by decide
  subscriptionIds := by decide
  linkIds := by decide
  codes := by decide

/-- The dashboard goes on reporting the expired row as active, and the statistics count it. -/
theorem lapsed_not_readersAgree : ¬ReadersAgree lapsed (daysDelta 31) := by
  intro h
  have hrows : NewestFirst lapsed.subscriptions lapsed.subscriptions := ⟨.refl _, by decide⟩
  obtain ⟨active, reported, hgate, hreported, hiff, -⟩ :=
    h.status ⟨1, 70, some 4⟩ (by decide) _ _ [] hrows hrows
  obtain rfl : active = none := Option.some.inj (hgate.symm.trans (by decide))
  have hpro : reported = some ⟨"pro", "active", some (daysDelta 30)⟩ :=
    hreported.symm.trans (by decide)
  exact hiff.mp ⟨_, hpro, rfl⟩ rfl

end UserTgBot.Payments
