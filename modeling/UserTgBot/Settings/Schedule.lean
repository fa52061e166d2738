import UserTgBot.Library.PyInt
import UserTgBot.Library.PyTime
import UserTgBot.Settings.Edits

/-!
# The schedule of the autoresponder

`set_ar_time` takes a text such as `9:00 - 18:30`, saves its two ends in normal form, and
`autoresponder_should_fire` reads them from the loaded record. A text that is not two valid times
saves a window with an end missing, and such a window never closes.
-/

namespace UserTgBot.Settings

open PyText (Text text strip ofChar padded intOfText)
open PyJson (Json)

/-! ## Whether to reply -/

/-- `map(int, value.split(":"))`, unpacked into two names. -/
def hourMinute (value : Text) : Option (Int × Int) :=
  match value.splitOn (ofChar ':') with
  | [h, m] => do return (← intOfText h, ← intOfText m)
  | _ => none

/-- `_within_window`; nothing if it raises. -/
def withinWindow (now : PyTime) (start stop : Text) : Option Bool := do
  let (sH, sM) ← hourMinute start
  let (eH, eM) ← hourMinute stop
  let startT ← PyTime.ofHourMinute sH sM
  let stopT ← PyTime.ofHourMinute eH eM
  return if startT = stopT then true
    else if startT < stopT then startT ≤ now && now < stopT
    else startT ≤ now || now < stopT

/-- The end of `autoresponder_should_fire`, from the test of the two ends on. -/
def windowOpen (ar : Autoresponder) (now : PyTime) : Option Bool :=
  match ar.activeFrom, ar.activeTo with
  | some start, some stop =>
      if start.isEmpty || stop.isEmpty then some true else withinWindow now start stop
  | _, _ => some true

/-- `autoresponder_should_fire`; nothing if it raises. -/
def autoresponderShouldFire (ar : Autoresponder) (now : PyTime) (senderId : Int)
    (isPrivate : Bool) : Option Bool :=
  if !ar.enabled || ar.message.isEmpty then some false
  else if !isPrivate then some false
  else if ar.exceptions.contains senderId then some false
  else windowOpen ar now

/-! ## Typed times -/

/-- The text is `H:M`, possibly between white space, and names the time. -/
def TypedTime (raw : Text) (t : PyTime) : Prop :=
  ∃ h m hour minute, strip raw = h ++ ofChar ':' :: m ∧ hourOf h = some hour ∧
    minuteOf m = some minute ∧ PyTime.ofHourMinute hour minute = some t

/-- The text is `H:M - H:M` with two valid times. -/
def TypedWindow (message : Text) (start stop : PyTime) : Prop :=
  ∃ x y, strip message = x ++ ofChar '-' :: y ∧ TypedTime x start ∧ TypedTime y stop

/-- The normal form of a time in minutes. -/
def hhmm (t : PyTime) : Text := formatHhmm t.hour t.minute

section Typed

variable {raw message value : Text} {t start stop : PyTime} {n : Nat}

theorem isSome_decimalValue {c : PyText.CodePoint} (h : PyText.IsAsciiDigit c) :
    (PyText.decimalValue c).isSome = true :=
  Option.isSome_of_eq_some (PyText.decimalValue_of_asciiDigit h)

/-- Hours and minutes are written in digits. -/
theorem hourOf_digits {h : Text} (parsed : hourOf h = some n) :
    ∀ c ∈ h, (PyText.decimalValue c).isSome = true := by
  unfold hourOf at parsed
  split at parsed
  · intro c hc
    rw [List.mem_singleton.mp hc, parsed]
    rfl
  · split at parsed
    · next hzero =>
        rw [hzero]
        simp [parsed]
        decide
    · split at parsed
      · next hone =>
          obtain ⟨d, hd, -⟩ := Option.map_eq_some_iff.mp parsed
          rw [hone]
          simp [hd]
          decide
      · split at parsed
        · next hrange =>
            obtain ⟨rfl, hlow, hhigh⟩ := hrange
            have hdigit := isSome_decimalValue ⟨hlow, hhigh.trans (by decide)⟩
            simp [hdigit]
            decide
        · cases parsed
  · cases parsed

theorem minuteOf_digits {m : Text} (parsed : minuteOf m = some n) :
    ∀ c ∈ m, (PyText.decimalValue c).isSome = true := by
  unfold minuteOf at parsed
  split at parsed
  · intro c hc
    rw [List.mem_singleton.mp hc, parsed]
    rfl
  · split at parsed
    · next hrange =>
        obtain ⟨d, hd, -⟩ := Option.map_eq_some_iff.mp parsed
        have hdigit := isSome_decimalValue ⟨hrange.1, hrange.2.trans (by decide)⟩
        simp [hd, hdigit]
    · cases parsed
  · cases parsed

/-- What is not white space is not stripped. -/
theorem mem_strip {s : Text} {c : PyText.CodePoint} (hc : c ∈ s)
    (hspace : PyText.isSpace c = false) : c ∈ strip s := by
  have hkept : ∀ {s : Text}, c ∈ s → c ∈ s.dropWhile PyText.isSpace := by
    intro s hc
    rw [← List.takeWhile_append_dropWhile (p := PyText.isSpace) (l := s), List.mem_append] at hc
    obtain hc | hc := hc
    · have htrue := List.mem_takeWhile_imp hc
      rw [hspace] at htrue
      cases htrue
    · exact hc
  rw [strip, List.mem_reverse]
  exact hkept (List.mem_reverse.mpr (hkept hc))

/-- The normal form of a typed time. -/
theorem parseHhmm_eq_some_iff :
    parseHhmm raw = some value ↔ ∃ t, TypedTime raw t ∧ value = hhmm t := by
  constructor
  · intro h
    rw [parseHhmm] at h
    split at h
    · next hour minute hsplit =>
        simp only [Option.bind_eq_bind, Option.bind_eq_some_iff, Option.pure_def,
          Option.some.injEq] at h
        obtain ⟨n, hhour, k, hminute, rfl⟩ := h
        have htime := PyTime.ofHourMinute_natCast (hourOf_lt hhour) (minuteOf_lt hminute)
        refine ⟨_, ⟨hour, minute, n, k, ?_, hhour, hminute, htime⟩, rfl⟩
        have hjoin : [ofChar ':'].intercalate ((strip raw).splitOn (ofChar ':')) = strip raw :=
          List.intercalate_splitOn (ofChar ':')
        rw [← hjoin, hsplit]
        simp [List.intercalate]
    · cases h
  · rintro ⟨t, ⟨h, m, hour, minute, hstrip, hhour, hminute, htime⟩, rfl⟩
    have hplain : ∀ piece ∈ [h, m], ofChar ':' ∉ piece := by
      intro piece hpiece hcolon
      obtain rfl | hpiece := List.mem_cons.mp hpiece
      · exact absurd (hourOf_digits hhour _ hcolon) (by decide)
      · rw [List.mem_singleton.mp hpiece] at hcolon
        exact absurd (minuteOf_digits hminute _ hcolon) (by decide)
    have hsplit : (strip raw).splitOn (ofChar ':') = [h, m] := by
      have hjoin : strip raw = [ofChar ':'].intercalate [h, m] := by
        rw [hstrip]
        simp [List.intercalate]
      rw [hjoin]
      exact List.splitOn_intercalate (ofChar ':') hplain (List.cons_ne_nil _ _)
    rw [PyTime.ofHourMinute_natCast (hourOf_lt hhour) (minuteOf_lt hminute),
      Option.some.injEq] at htime
    rw [parseHhmm, hsplit, ← htime]
    simp [hhour, hminute, hhmm]

/-- A typed time has no dash. -/
theorem TypedTime.dash_notMem (h : TypedTime raw t) : ofChar '-' ∉ raw := by
  obtain ⟨hour, minute, n, k, hstrip, hhour, hminute, -⟩ := h
  intro hdash
  have hmem := mem_strip hdash (by decide)
  rw [hstrip, List.mem_append, List.mem_cons] at hmem
  obtain hmem | hmem | hmem := hmem
  · exact absurd (hourOf_digits hhour _ hmem) (by decide)
  · exact absurd hmem (by decide)
  · exact absurd (minuteOf_digits hminute _ hmem) (by decide)

/-- Both ends are saved just for a typed window. -/
theorem windowOf_eq_some_iff {x y : Text} : windowOf message = (some x, some y) ↔
    ∃ start stop, TypedWindow message start stop ∧ x = hhmm start ∧ y = hhmm stop := by
  rw [windowOf]
  constructor
  · intro h
    split at h
    · next hdash =>
        obtain ⟨hx, hy⟩ := Prod.mk.inj h
        obtain ⟨start, hstart, rfl⟩ := parseHhmm_eq_some_iff.mp hx
        obtain ⟨stop, hstop, rfl⟩ := parseHhmm_eq_some_iff.mp hy
        exact ⟨start, stop, ⟨_, _, PyText.append_partition hdash.2, hstart, hstop⟩, rfl, rfl⟩
    · cases h
  · rintro ⟨start, stop, ⟨x, y, hmessage, hx, hy⟩, rfl, rfl⟩
    have hdash : ofChar '-' ∈ strip message := by
      rw [hmessage]
      simp
    have hlong : strip message ≠ text "-" := by
      intro heq
      obtain ⟨h, m, _, _, hstrip, -⟩ := hx
      have hempty : x = [] := by
        have hlength := congrArg List.length (hmessage.symm.trans heq)
        rw [List.length_append, List.length_cons] at hlength
        apply List.eq_nil_of_length_eq_zero
        have hone : (text "-").length = 1 := rfl
        omega
      rw [hempty] at hstrip
      exact absurd hstrip.symm (List.append_ne_nil_of_right_ne_nil _ (List.cons_ne_nil _ _))
    rw [if_pos ⟨hlong, hdash⟩, hmessage, PyText.partition_append hx.dash_notMem]
    exact Prod.ext (parseHhmm_eq_some_iff.mpr ⟨start, hx, rfl⟩)
      (parseHhmm_eq_some_iff.mpr ⟨stop, hy, rfl⟩)

end Typed

/-! ## The window that is read -/

section Fires

variable {raw message : Text} {t start stop : PyTime} {ar : Autoresponder}

theorem intOfText_padded : ∀ n < 60, intOfText (padded 2 n) = some (n : Int) := by
  decide +kernel

/-- The two numbers of a normal form. -/
theorem hourMinute_hhmm (t : PyTime) :
    hourMinute (hhmm t) = some ((t.hour.val : Int), (t.minute.val : Int)) := by
  have hform : hhmm t = [PyText.digit (t.hour / 10), PyText.digit t.hour, ofChar ':',
      PyText.digit (t.minute / 10), PyText.digit t.minute] := rfl
  have hsplit : (hhmm t).splitOn (ofChar ':') = [padded 2 t.hour, padded 2 t.minute] := by
    rw [hform]
    simp [List.splitOn, List.splitOnP_cons_eq_if_modifyHead, List.splitOnP_nil, digit_ne_colon,
      padded]
  have hhour := intOfText_padded t.hour (t.hour.isLt.trans (by decide))
  have hminute := intOfText_padded t.minute t.minute.isLt
  rw [hourMinute, hsplit]
  simp [hhour, hminute]

/-- A typed time has no seconds. -/
theorem TypedTime.ofHourMinute (h : TypedTime raw t) :
    PyTime.ofHourMinute t.hour.val t.minute.val = some t := by
  obtain ⟨_, _, hour, minute, -, hhour, hminute, htime⟩ := h
  rw [PyTime.ofHourMinute_natCast (hourOf_lt hhour) (minuteOf_lt hminute),
    Option.some.injEq] at htime
  rw [PyTime.ofHourMinute_natCast t.hour.isLt t.minute.isLt, ← htime]

theorem hhmm_injective {raw' : Text} {t' : PyTime} (h : TypedTime raw t) (h' : TypedTime raw' t')
    (heq : hhmm t = hhmm t') : t = t' := by
  have hnumbers := hourMinute_hhmm t
  rw [heq, hourMinute_hhmm t', Option.some.injEq, Prod.mk.injEq] at hnumbers
  have htime := h.ofHourMinute
  rw [← hnumbers.1, ← hnumbers.2, h'.ofHourMinute] at htime
  exact (Option.some.inj htime).symm

/-- The comparisons of `_within_window` are those of an arc. -/
theorem withinWindow_hhmm {raw' : Text} (hstart : TypedTime raw start)
    (hstop : TypedTime raw' stop) (now : PyTime) :
    ∃ fires, withinWindow now (hhmm start) (hhmm stop) = some fires ∧
      (fires = true ↔ start = stop ∨ PyTime.Between start stop now) := by
  simp only [withinWindow, hourMinute_hhmm, hstart.ofHourMinute, hstop.ofHourMinute,
    Option.bind_eq_bind, Option.bind_some, Option.pure_def]
  refine ⟨_, rfl, ?_⟩
  by_cases heq : start = stop
  · simp [heq]
  · rw [if_neg heq, or_iff_right heq]
    obtain hlt | hgt := lt_or_gt_of_ne heq
    · rw [if_pos hlt, PyTime.between_iff_of_lt hlt, Bool.and_eq_true, decide_eq_true_eq,
        decide_eq_true_eq]
    · rw [if_neg hgt.not_gt, PyTime.between_iff_of_gt hgt, Bool.or_eq_true, decide_eq_true_eq,
        decide_eq_true_eq]

/-- The moments at which a typed text lets the autoresponder reply. -/
def InSchedule (message : Text) (now : PyTime) : Prop :=
  (¬∃ start stop, TypedWindow message start stop) ∨
    ∃ start stop, TypedWindow message start stop ∧
      (start = stop ∨ PyTime.Between start stop now)

theorem TypedWindow.unique {start' stop' : PyTime} (h : TypedWindow message start stop)
    (h' : TypedWindow message start' stop') : start = start' ∧ stop = stop' := by
  have hsaved := windowOf_eq_some_iff.mpr ⟨start, stop, h, rfl, rfl⟩
  rw [windowOf_eq_some_iff.mpr ⟨start', stop', h', rfl, rfl⟩, Prod.mk.injEq, Option.some.injEq,
    Option.some.injEq] at hsaved
  obtain ⟨_, _, -, hstart, hstop⟩ := h
  obtain ⟨_, _, -, hstart', hstop'⟩ := h'
  exact ⟨hhmm_injective hstart hstart' hsaved.1.symm, hhmm_injective hstop hstop' hsaved.2.symm⟩

theorem inSchedule_iff (h : TypedWindow message start stop) (now : PyTime) :
    InSchedule message now ↔ start = stop ∨ PyTime.Between start stop now := by
  constructor
  · rintro (hnone | ⟨start', stop', h', hin⟩)
    · exact absurd ⟨start, stop, h⟩ hnone
    · obtain ⟨rfl, rfl⟩ := h.unique h'
      exact hin
  · exact fun hin => .inr ⟨start, stop, h, hin⟩

/-- The ends that a text saves are open at the moments of its schedule. -/
theorem windowOpen_spec (hwindow : (ar.activeFrom, ar.activeTo) = windowOf message)
    (now : PyTime) :
    ∃ fires, windowOpen ar now = some fires ∧ (fires = true ↔ InSchedule message now) := by
  by_cases htyped : ∃ start stop, TypedWindow message start stop
  · obtain ⟨start, stop, h⟩ := htyped
    rw [windowOf_eq_some_iff.mpr ⟨start, stop, h, rfl, rfl⟩, Prod.mk.injEq] at hwindow
    have hread := h
    obtain ⟨_, _, -, hstart, hstop⟩ := hread
    obtain ⟨fires, hwithin, hiff⟩ := withinWindow_hhmm hstart hstop now
    rw [windowOpen, hwindow.1, hwindow.2, inSchedule_iff h]
    exact ⟨fires, hwithin, hiff⟩
  · refine ⟨true, ?_, iff_of_true rfl (.inl htyped)⟩
    rw [windowOpen]
    cases hfrom : ar.activeFrom with
    | none => rfl
    | some x =>
        cases hto : ar.activeTo with
        | none => rfl
        | some y =>
            rw [hfrom, hto] at hwindow
            obtain ⟨start, stop, h, -⟩ := windowOf_eq_some_iff.mp hwindow.symm
            exact absurd ⟨start, stop, h⟩ htyped

/-- The tests before the window. -/
theorem autoresponderShouldFire_eq (ar : Autoresponder) (now : PyTime) (senderId : Int)
    (isPrivate : Bool) : autoresponderShouldFire ar now senderId isPrivate =
      if ar.enabled = true ∧ ar.message ≠ [] ∧ isPrivate = true ∧ senderId ∉ ar.exceptions then
        windowOpen ar now
      else some false := by
  rw [autoresponderShouldFire]
  by_cases henabled : ar.enabled = true
  · by_cases hmessage : ar.message = []
    · simp [henabled, hmessage]
    · by_cases hprivate : isPrivate = true
      · by_cases hsender : senderId ∈ ar.exceptions
        · simp [henabled, hmessage, hprivate, hsender]
        · simp [henabled, hmessage, hprivate, hsender]
      · simp [henabled, hmessage, hprivate]
  · simp [henabled]

/-- The reply is decided by the switch, the message, the chat, the sender and the schedule. -/
theorem autoresponderShouldFire_spec (hwindow : (ar.activeFrom, ar.activeTo) = windowOf message)
    (now : PyTime) (senderId : Int) (isPrivate : Bool) :
    ∃ fires, autoresponderShouldFire ar now senderId isPrivate = some fires ∧
      (fires = true ↔ ar.enabled = true ∧ ar.message ≠ [] ∧ isPrivate = true ∧
        senderId ∉ ar.exceptions ∧ InSchedule message now) := by
  rw [autoresponderShouldFire_eq]
  by_cases hwanted : ar.enabled = true ∧ ar.message ≠ [] ∧ isPrivate = true ∧
      senderId ∉ ar.exceptions
  · obtain ⟨fires, hopen, hiff⟩ := windowOpen_spec hwindow now
    rw [if_pos hwanted]
    refine ⟨fires, hopen, ?_⟩
    rw [hiff]
    exact ⟨fun hin => ⟨hwanted.1, hwanted.2.1, hwanted.2.2.1, hwanted.2.2.2, hin⟩,
      fun hall => hall.2.2.2.2⟩
  · rw [if_neg hwanted]
    refine ⟨false, rfl, iff_of_false Bool.false_ne_true ?_⟩
    rintro ⟨henabled, hmessage, hprivate, hsender, -⟩
    exact hwanted ⟨henabled, hmessage, hprivate, hsender⟩

/-- Whatever is loaded has times in normal form. -/
theorem hhmmFromDict_normal {value : Json} {loaded : Option Text}
    (h : hhmmFromDict value = some loaded) : NormalTime loaded := by
  rw [hhmmFromDict] at h
  split at h
  · obtain ⟨raw, -, rfl⟩ := Option.map_eq_some_iff.mp h
    exact normalTime_parseHhmm raw
  · rw [← Option.some.inj h]
    exact nofun

theorem fromDict_normalTimes {d : Json} (h : Autoresponder.fromDict d = some ar) :
    NormalTime ar.activeFrom ∧ NormalTime ar.activeTo := by
  rw [Autoresponder.fromDict] at h
  simp only [Option.bind_eq_bind, Option.bind_eq_some_iff, Option.pure_def,
    Option.some.injEq] at h
  obtain ⟨_, -, _, -, _, -, _, -, _, -, _, -, _, -, activeFrom, hfrom, _, -, activeTo, hto, _, -,
    _, -, _, -, rfl⟩ := h
  exact ⟨hhmmFromDict_normal hfrom, hhmmFromDict_normal hto⟩

/-- With loaded times the decision does not raise. -/
theorem autoresponderShouldFire_isSome (hfrom : NormalTime ar.activeFrom)
    (hto : NormalTime ar.activeTo) (now : PyTime) (senderId : Int) (isPrivate : Bool) :
    (autoresponderShouldFire ar now senderId isPrivate).isSome = true := by
  rw [autoresponderShouldFire_eq]
  split
  · rw [windowOpen]
    cases hstart : ar.activeFrom with
    | none => rfl
    | some x =>
        cases hstop : ar.activeTo with
        | none => rfl
        | some y =>
            obtain ⟨start, htyped, rfl⟩ := parseHhmm_eq_some_iff.mp (hfrom x hstart)
            obtain ⟨stop, htyped', rfl⟩ := parseHhmm_eq_some_iff.mp (hto y hstop)
            obtain ⟨fires, hwithin, -⟩ := withinWindow_hhmm htyped htyped' now
            exact Option.isSome_of_eq_some hwithin
  · rfl

/-- A record comes back with its first buttons. -/
theorem fromDict_toDict_take (hfrom : NormalTime ar.activeFrom) (hto : NormalTime ar.activeTo) :
    Autoresponder.fromDict ar.toDict =
      some { ar with buttons := ar.buttons.take MAX_BUTTONS } := by
  have hcut : ar.toDict =
      Autoresponder.toDict { ar with buttons := ar.buttons.take MAX_BUTTONS } := by
    simp [Autoresponder.toDict, buttonsToDicts, List.take_take]
  rw [hcut]
  exact Autoresponder.fromDict_toDict ⟨List.length_take_le _ _, hfrom, hto⟩

/-- What the userbot loads after `set_ar_time`: the ends of the new window and, of the old
record, everything else. -/
theorem setArTime_loads {db db' : Database} {telegramId : Int} {userId : Nat}
    (loads : loadAr db telegramId = some (db', userId, ar)) (message : Text) :
    ∃ saved, setArTime db telegramId message = some saved ∧
      Autoresponder.fromDict (saved.loadAutoresponder userId) = some
        { ar with
          activeFrom := (windowOf message).1
          activeTo := (windowOf message).2
          buttons := ar.buttons.take MAX_BUTTONS } := by
  refine ⟨db'.setAutoresponder userId (Autoresponder.toDict
    { ar with activeFrom := (windowOf message).1, activeTo := (windowOf message).2 }), ?_, ?_⟩
  · rw [setArTime, editAr, loads]
    rfl
  · rw [Database.loadAutoresponder_eq, Database.setAutoresponder, Database.settingsOf_assign,
      if_pos rfl]
    exact fromDict_toDict_take (normalTime_windowOf message).1 (normalTime_windowOf message).2

/-- The schedules of two texts with the same two times, in either order, are complementary. -/
theorem inSchedule_swap {message' : Text} (h : TypedWindow message start stop)
    (h' : TypedWindow message' stop start) (hne : start ≠ stop) (now : PyTime) :
    InSchedule message' now ↔ ¬InSchedule message now := by
  rw [inSchedule_iff h, inSchedule_iff h', or_iff_right hne, or_iff_right hne.symm,
    PyTime.between_swap hne]

/-- After `set_ar_time` the userbot replies exactly when the schedule in the text lets it and
the rest of the stored record does. For two different times the schedules in the two
orders are complementary, and no record that is loaded makes the decision raise. -/
theorem typedSchedule_runs :
    (∀ db telegramId db' userId ar, loadAr db telegramId = some (db', userId, ar) →
      ∀ message now senderId isPrivate, ∃ saved loaded fires,
        setArTime db telegramId message = some saved ∧
        Autoresponder.fromDict (saved.loadAutoresponder userId) = some loaded ∧
        autoresponderShouldFire loaded now senderId isPrivate = some fires ∧
        (fires = true ↔ ar.enabled = true ∧ ar.message ≠ [] ∧ isPrivate = true ∧
          senderId ∉ ar.exceptions ∧ InSchedule message now)) ∧
    (∀ message message' start stop, TypedWindow message start stop →
      TypedWindow message' stop start → start ≠ stop →
        ∀ now, InSchedule message' now ↔ ¬InSchedule message now) ∧
    ∀ stored ar, Autoresponder.fromDict stored = some ar → ∀ now senderId isPrivate,
      (autoresponderShouldFire ar now senderId isPrivate).isSome = true := by
  refine ⟨?_, fun _ _ _ _ h h' hne now => inSchedule_swap h h' hne now, ?_⟩
  · intro db telegramId db' userId ar loads message now senderId isPrivate
    obtain ⟨saved, hsaved, hloaded⟩ := setArTime_loads loads message
    obtain ⟨fires, hfires, hiff⟩ := @autoresponderShouldFire_spec message
      { ar with
        activeFrom := (windowOf message).1
        activeTo := (windowOf message).2
        buttons := ar.buttons.take MAX_BUTTONS } rfl now senderId isPrivate
    exact ⟨saved, _, fires, hsaved, hloaded, hfires, hiff⟩
  · intro stored ar hload now senderId isPrivate
    obtain ⟨hfrom, hto⟩ := fromDict_normalTimes hload
    exact autoresponderShouldFire_isSome hfrom hto now senderId isPrivate

/-! A night shift, typed with one digit for the hour. -/

def nightShift : Text := text " 22:0 - 7:00"

def dayShift : Text := text "07:00-22:00"

theorem nightShift_typed : TypedWindow nightShift ⟨22, 0, 0, 0⟩ ⟨7, 0, 0, 0⟩ := by
  refine ⟨text "22:0 ", text " 7:00", by decide +kernel, ⟨text "22", text "0", 22, 0, ?_⟩,
    ⟨text "7", text "00", 7, 0, ?_⟩⟩
  · decide +kernel
  · decide +kernel

theorem dayShift_typed : TypedWindow dayShift ⟨7, 0, 0, 0⟩ ⟨22, 0, 0, 0⟩ := by
  refine ⟨text "07:00", text "22:00", by decide +kernel, ⟨text "07", text "00", 7, 0, ?_⟩,
    ⟨text "22", text "00", 22, 0, ?_⟩⟩
  · decide +kernel
  · decide +kernel

end Fires

def away : Autoresponder := { enabled := true, message := text "away" }

/-- User 1 with the autoresponder on. -/
def awayDb : Database where
  users := Loops.Dict.ofPairs [(1, 1)]
  userSettings := Loops.Dict.ofPairs [(1, { autoresponder := away.toDict })]

theorem awayDb_loadAr : loadAr awayDb 1 = some (awayDb, 1, away) := by
  have hload : Autoresponder.fromDict away.toDict = some away :=
    Autoresponder.fromDict_toDict ⟨by decide, nofun, nofun⟩
  exact congrArg (Option.map fun ar => (awayDb, 1, ar)) hload

/-- Two minutes before midnight the night shift replies, and the day shift does not. -/
theorem awayDb_shifts :
    (∃ saved loaded fires, setArTime awayDb 1 nightShift = some saved ∧
      Autoresponder.fromDict (saved.loadAutoresponder 1) = some loaded ∧
      autoresponderShouldFire loaded ⟨23, 58, 0, 0⟩ 7 true = some fires ∧
      (fires = true ↔ away.enabled = true ∧ away.message ≠ [] ∧ true = true ∧
        7 ∉ away.exceptions ∧ InSchedule nightShift ⟨23, 58, 0, 0⟩)) ∧
    (∀ now, InSchedule nightShift now ↔ ¬InSchedule dayShift now) ∧
    autoresponderShouldFire { away with
        activeFrom := (windowOf nightShift).1, activeTo := (windowOf nightShift).2 }
      ⟨23, 58, 0, 0⟩ 7 true = some true ∧
    autoresponderShouldFire { away with
        activeFrom := (windowOf dayShift).1, activeTo := (windowOf dayShift).2 }
      ⟨23, 58, 0, 0⟩ 7 true = some false ∧
    (autoresponderShouldFire away ⟨23, 58, 0, 0⟩ 7 true).isSome = true := by
  refine ⟨typedSchedule_runs.1 awayDb 1 awayDb 1 away awayDb_loadAr nightShift _ 7 true,
    typedSchedule_runs.2.1 dayShift nightShift _ _ dayShift_typed nightShift_typed (by decide),
    by decide +kernel, by decide +kernel, ?_⟩
  exact typedSchedule_runs.2.2 away.toDict away
    (Autoresponder.fromDict_toDict ⟨by decide, nofun, nofun⟩) _ 7 true

end UserTgBot.Settings
