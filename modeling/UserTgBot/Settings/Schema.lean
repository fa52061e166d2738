import UserTgBot.Library.PaddedDecimal
import UserTgBot.Library.PyJson
import UserTgBot.Library.PyStr

/-!
# Settings records

`shared/settings_schema.py`: the `.me` card, the autoresponder and the feature switches, how
they are written to JSON columns and read back, and the parsers for what an owner types in.
`from_dict` does not check the types of what it reads; it is defined here where they are the
declared ones and it does not raise.
-/

namespace UserTgBot.Settings

open PyText (Text CodePoint text strip ofChar padded)
open PyJson (Json)

def MAX_BUTTONS : Nat := 5

/-! ## Buttons -/

structure LinkButton where
  text : Text
  url : Text
deriving DecidableEq, Repr

namespace LinkButton

def toDict (b : LinkButton) : Json := .dict [("text", .str b.text), ("url", .str b.url)]

def fromDict (d : Json) : Option LinkButton := do
  let label ← (← d.item "text").asStr
  let url ← (← d.item "url").asStr
  return ⟨label, url⟩

@[simp] theorem fromDict_toDict (b : LinkButton) : fromDict b.toDict = some b := rfl

end LinkButton

def ALLOWED_URL_SCHEMES : List Text := [text "http://", text "https://", text "tg://"]

def isValidUrl (value : Text) : Bool :=
  !value.isEmpty && ALLOWED_URL_SCHEMES.any fun scheme => scheme.isPrefixOf (strip value)

/-- An address without white space around it begins with one of the schemes. -/
theorem isValidUrl_iff {url : Text} (trimmed : PyText.Trimmed url) :
    isValidUrl url = true ↔ ∃ scheme ∈ ALLOWED_URL_SCHEMES, scheme <+: url := by
  rw [isValidUrl, trimmed.strip_eq, Bool.and_eq_true, List.any_eq_true]
  simp only [List.isPrefixOf_iff_prefix]
  refine and_iff_right_of_imp ?_
  rintro ⟨scheme, hscheme, hprefix⟩
  cases url with
  | nil =>
      rw [List.prefix_nil.mp hprefix] at hscheme
      exact absurd hscheme (by decide)
  | cons c url => rfl

/-- The loop of `parse_buttons` over the lines, with the buttons collected so far. -/
def parseButtonsFrom (buttons : List LinkButton) : List Text → List LinkButton
  | [] => buttons
  | line :: rest =>
      if ofChar '|' ∉ line then parseButtonsFrom buttons rest
      else
        let label := strip (PyText.partition (ofChar '|') line).1
        let url := strip (PyText.partition (ofChar '|') line).2
        let buttons :=
          if !label.isEmpty && isValidUrl url then buttons ++ [⟨label.take 64, url⟩] else buttons
        if MAX_BUTTONS ≤ buttons.length then buttons else parseButtonsFrom buttons rest

def parseButtons (raw : Text) : List LinkButton := parseButtonsFrom [] (PyText.splitlines raw)

/-- The button that a line `label | url` describes, if it is valid. -/
def lineButton (line : Text) : Option LinkButton :=
  let label := strip (PyText.partition (ofChar '|') line).1
  let url := strip (PyText.partition (ofChar '|') line).2
  if ofChar '|' ∈ line ∧ label ≠ [] ∧ isValidUrl url = true then
    some ⟨label.take 64, url⟩
  else none

/-- The first valid lines, up to the limit. -/
def firstButtons (raw : Text) : List LinkButton :=
  ((PyText.splitlines raw).filterMap lineButton).take MAX_BUTTONS

/-- One line of the loop. -/
theorem parseButtonsFrom_cons (buttons : List LinkButton) (line : Text) (rest : List Text) :
    parseButtonsFrom buttons (line :: rest) =
      if ofChar '|' ∈ line ∧ MAX_BUTTONS ≤ (buttons ++ (lineButton line).toList).length then
        buttons ++ (lineButton line).toList
      else parseButtonsFrom (buttons ++ (lineButton line).toList) rest := by
  rw [parseButtonsFrom, lineButton]
  by_cases hbar : ofChar '|' ∈ line
  · by_cases hlabel : strip (PyText.partition (ofChar '|') line).1 = []
    · simp [hbar, hlabel]
    · by_cases hurl : isValidUrl (strip (PyText.partition (ofChar '|') line).2) = true
      · simp [hbar, hlabel, hurl]
      · simp [hbar, hlabel, hurl]
  · simp [hbar]

theorem parseButtonsFrom_eq {buttons : List LinkButton} (lines : List Text)
    (few : buttons.length < MAX_BUTTONS) :
    parseButtonsFrom buttons lines = (buttons ++ lines.filterMap lineButton).take MAX_BUTTONS := by
  induction lines generalizing buttons with
  | nil =>
      rw [parseButtonsFrom, List.filterMap_nil, List.append_nil]
      exact (List.take_of_length_le (Nat.le_of_lt few)).symm
  | cons line rest ih =>
      have hfilter : (line :: rest).filterMap lineButton =
          (lineButton line).toList ++ rest.filterMap lineButton := by
        rw [List.filterMap_cons]
        cases lineButton line <;> rfl
      rw [parseButtonsFrom_cons, hfilter, ← List.append_assoc]
      -- At most one button is added, so the limit is reached exactly.
      have hone : (lineButton line).toList.length ≤ 1 := by
        cases lineButton line <;> simp
      by_cases hfull : MAX_BUTTONS ≤ (buttons ++ (lineButton line).toList).length
      · have hbar : ofChar '|' ∈ line := by
          by_contra hbar
          have hnone : lineButton line = none := if_neg fun h => hbar h.1
          rw [hnone, Option.toList_none, List.append_nil] at hfull
          omega
        rw [if_pos ⟨hbar, hfull⟩, List.take_append_of_le_length hfull, List.take_of_length_le]
        rw [List.length_append]
        omega
      · rw [if_neg fun h => hfull h.2]
        exact ih (Nat.lt_of_not_le hfull)

/-- `parse_buttons` keeps the first valid lines, in their order. -/
theorem parseButtons_eq (raw : Text) : parseButtons raw = firstButtons raw := by
  rw [parseButtons, parseButtonsFrom_eq _ (by decide), List.nil_append, firstButtons]

theorem length_firstButtons (raw : Text) : (firstButtons raw).length ≤ MAX_BUTTONS :=
  List.length_take_le _ _

/-- Labels are not empty, and addresses are valid. -/
theorem valid_of_mem_firstButtons {raw : Text} {b : LinkButton} (h : b ∈ firstButtons raw) :
    b.text ≠ [] ∧ PyText.Trimmed b.url ∧ isValidUrl b.url = true := by
  obtain ⟨line, -, hline⟩ := List.mem_filterMap.mp (List.mem_of_mem_take h)
  obtain ⟨⟨-, hlabel, hurl⟩, heq⟩ := Option.ite_none_right_eq_some.mp hline
  obtain rfl := Option.some.inj heq
  refine ⟨fun hnil => ?_, PyText.trimmed_strip _, hurl⟩
  obtain hzero | hempty := List.take_eq_nil_iff.mp hnil
  · exact absurd hzero (by decide)
  · exact hlabel hempty

def buttonsToDicts (buttons : List LinkButton) : Json :=
  .list ((buttons.take MAX_BUTTONS).map LinkButton.toDict)

def buttonsFromDicts (raw : Json) : Option (List LinkButton) := do
  (← (raw.or (.list [])).iter).mapM LinkButton.fromDict

theorem buttonsFromDicts_toDicts {buttons : List LinkButton}
    (few : buttons.length ≤ MAX_BUTTONS) :
    buttonsFromDicts (buttonsToDicts buttons) = some buttons := by
  have hmap : ∀ buttons : List LinkButton,
      (buttons.map LinkButton.toDict).mapM LinkButton.fromDict = some buttons := by
    intro buttons
    induction buttons with
    | nil => rfl
    | cons b buttons ih => simp [ih]
  rw [buttonsToDicts, List.take_of_length_le few]
  cases buttons with
  | nil => rfl
  | cons b buttons => exact hmap (b :: buttons)

/-! ## Times of day -/

/-- `[01]?\d|2[0-3]`. -/
def hourOf : Text → Option Nat
  | [d] => PyText.decimalValue d
  | [c, d] =>
      if c = ofChar '0' then PyText.decimalValue d
      else if c = ofChar '1' then (PyText.decimalValue d).map (10 + ·)
      else if c = ofChar '2' ∧ 0x30 ≤ d.val ∧ d.val ≤ 0x33 then some (20 + (d.val - 0x30))
      else none
  | _ => none

/-- `[0-5]?\d`. -/
def minuteOf : Text → Option Nat
  | [d] => PyText.decimalValue d
  | [c, d] =>
      if 0x30 ≤ c.val ∧ c.val ≤ 0x35 then
        (PyText.decimalValue d).map (10 * (c.val - 0x30) + ·)
      else none
  | _ => none

/-- `f"{hour:02d}:{minute:02d}"`. -/
def formatHhmm (hour minute : Nat) : Text := padded 2 hour ++ ofChar ':' :: padded 2 minute

def parseHhmm (value : Text) : Option Text :=
  match (strip value).splitOn (ofChar ':') with
  | [h, m] => do return formatHhmm (← hourOf h) (← minuteOf m)
  | _ => none

theorem decimalValue_lt {c : CodePoint} {n : Nat} (h : PyText.decimalValue c = some n) :
    n < 10 := by
  obtain ⟨first, hfirst, rfl⟩ := Option.map_eq_some_iff.mp h
  have hrange := List.find?_some hfirst
  simp only [Bool.and_eq_true, decide_eq_true_eq] at hrange
  omega

theorem hourOf_lt {h : Text} {n : Nat} (parsed : hourOf h = some n) : n < 24 := by
  unfold hourOf at parsed
  split at parsed
  · have hlt := decimalValue_lt parsed
    omega
  · split at parsed
    · have hlt := decimalValue_lt parsed
      omega
    · split at parsed
      · obtain ⟨d, hd, rfl⟩ := Option.map_eq_some_iff.mp parsed
        have hlt := decimalValue_lt hd
        omega
      · split at parsed
        · next hrange =>
            cases parsed
            omega
        · cases parsed
  · cases parsed

theorem minuteOf_lt {m : Text} {n : Nat} (parsed : minuteOf m = some n) : n < 60 := by
  unfold minuteOf at parsed
  split at parsed
  · have hlt := decimalValue_lt parsed
    omega
  · split at parsed
    · next hrange =>
        obtain ⟨d, hd, rfl⟩ := Option.map_eq_some_iff.mp parsed
        have hlt := decimalValue_lt hd
        omega
    · cases parsed
  · cases parsed

theorem hourOf_padded : ∀ n < 24, hourOf (padded 2 n) = some n := by decide +kernel

theorem minuteOf_padded : ∀ n < 60, minuteOf (padded 2 n) = some n := by decide +kernel

theorem digit_ne_colon (n : Nat) : PyText.digit n ≠ ofChar ':' := by
  intro heq
  have hval : 0x30 + n % 10 = 0x3a := congrArg Fin.val heq
  omega

theorem isSpace_digit (n : Nat) : PyText.isSpace (PyText.digit n) = false := by
  have hlow : 0x30 ≤ (PyText.digit n).val := Nat.le_add_right _ _
  have hhigh : (PyText.digit n).val < 0x3a := by
    show 0x30 + n % 10 < 0x3a
    omega
  generalize PyText.digit n = c at hlow hhigh
  simp [PyText.isSpace]
  omega

/-- A time of day that was written is read back. -/
theorem parseHhmm_formatHhmm {hour minute : Nat} (hhour : hour < 24) (hminute : minute < 60) :
    parseHhmm (formatHhmm hour minute) = some (formatHhmm hour minute) := by
  have hform : formatHhmm hour minute = [PyText.digit (hour / 10), PyText.digit hour,
      ofChar ':', PyText.digit (minute / 10), PyText.digit minute] := rfl
  have hstrip : strip (formatHhmm hour minute) = formatHhmm hour minute := by
    apply PyText.strip_eq_self
    · intro c hc
      exact Option.some.inj hc ▸ isSpace_digit _
    · intro c hc
      exact Option.some.inj hc ▸ isSpace_digit _
  have hsplit : (formatHhmm hour minute).splitOn (ofChar ':') =
      [padded 2 hour, padded 2 minute] := by
    rw [hform]
    simp [List.splitOn, List.splitOnP_cons_eq_if_modifyHead, List.splitOnP_nil, digit_ne_colon, padded]
  rw [parseHhmm, hstrip, hsplit]
  simp [hourOf_padded _ hhour, minuteOf_padded _ hminute]

/-- Normalizing twice changes nothing. -/
theorem parseHhmm_idem {value normal : Text} (h : parseHhmm value = some normal) :
    parseHhmm normal = some normal := by
  rw [parseHhmm] at h
  split at h
  · simp only [Option.bind_eq_bind, Option.bind_eq_some_iff, Option.pure_def,
      Option.some.injEq] at h
    obtain ⟨hour, hhour, minute, hminute, rfl⟩ := h
    exact parseHhmm_formatHhmm (hourOf_lt hhour) (minuteOf_lt hminute)
  · cases h

/-- `parse_hhmm` of a value in a column. -/
def hhmmFromDict (value : Json) : Option (Option Text) :=
  if value.truthy then value.asStr.map parseHhmm else some none

/-- No time of day, or one that `parse_hhmm` returned. -/
def NormalTime (value : Option Text) : Prop := ∀ s ∈ value, parseHhmm s = some s

theorem normalTime_parseHhmm (raw : Text) : NormalTime (parseHhmm raw) := fun _ hs =>
  parseHhmm_idem hs

theorem hhmmFromDict_ofOption {value : Option Text} (normal : NormalTime value) :
    hhmmFromDict (.ofOption value) = some value := by
  cases value with
  | none => rfl
  | some s =>
      have hs := normal s rfl
      cases s with
      | nil => exact absurd hs (by decide)
      | cons c s => exact congrArg some hs

/-! ## Records -/

/-- The `.me` card. -/
structure MeCard where
  text : Text := []
  link : Option Text := none
  hasPhoto : Bool := false
  buttons : List LinkButton := []
deriving DecidableEq, Repr

namespace MeCard

def toDict (card : MeCard) : Json :=
  .dict [("text", .str card.text), ("link", .ofOption card.link),
    ("has_photo", .bool card.hasPhoto), ("buttons", buttonsToDicts card.buttons)]

def fromDict (d : Json) : Option MeCard := do
  let d := d.or (.dict [])
  return {
    text := ← (← d.get "text" (.str [])).asStr
    link := ← (← d.get "link").asOptionalStr
    hasPhoto := (← d.get "has_photo" (.bool false)).truthy
    buttons := ← buttonsFromDicts (← d.get "buttons") }

theorem fromDict_toDict {card : MeCard} (few : card.buttons.length ≤ MAX_BUTTONS) :
    fromDict card.toDict = some card := by
  have hbuttons := buttonsFromDicts_toDicts few
  simp [fromDict, toDict, Json.or, Json.truthy, Json.get, List.lookup, Json.asStr, hbuttons]

end MeCard

structure Autoresponder where
  enabled : Bool := false
  message : Text := []
  hasPhoto : Bool := false
  buttons : List LinkButton := []
  activeFrom : Option Text := none
  activeTo : Option Text := none
  exceptions : List Int := []
deriving DecidableEq, Repr

namespace Autoresponder

def toDict (ar : Autoresponder) : Json :=
  .dict [("enabled", .bool ar.enabled), ("message", .str ar.message),
    ("has_photo", .bool ar.hasPhoto), ("buttons", buttonsToDicts ar.buttons),
    ("active_from", .ofOption ar.activeFrom), ("active_to", .ofOption ar.activeTo),
    ("exceptions", .list (ar.exceptions.map .int))]

def fromDict (d : Json) : Option Autoresponder := do
  let d := d.or (.dict [])
  return {
    enabled := (← d.get "enabled" (.bool false)).truthy
    message := ← (← d.get "message" (.str [])).asStr
    hasPhoto := (← d.get "has_photo" (.bool false)).truthy
    buttons := ← buttonsFromDicts (← d.get "buttons")
    activeFrom := ← hhmmFromDict (← d.get "active_from")
    activeTo := ← hhmmFromDict (← d.get "active_to")
    exceptions := ← (← (← d.get "exceptions" (.list [])).iter).mapM Json.toInt }

/-- What `to_dict` does not cut and `from_dict` does not normalize. -/
structure Normal (ar : Autoresponder) : Prop where
  buttons : ar.buttons.length ≤ MAX_BUTTONS
  activeFrom : NormalTime ar.activeFrom
  activeTo : NormalTime ar.activeTo

theorem fromDict_toDict {ar : Autoresponder} (normal : ar.Normal) :
    fromDict ar.toDict = some ar := by
  have hbuttons := buttonsFromDicts_toDicts normal.buttons
  have hfrom := hhmmFromDict_ofOption normal.activeFrom
  have hto := hhmmFromDict_ofOption normal.activeTo
  have hexceptions : ∀ ids : List Int, (ids.map Json.int).mapM Json.toInt = some ids := by
    intro ids
    induction ids with
    | nil => rfl
    | cons id ids ih => simp [Json.toInt, ih]
  simp [fromDict, toDict, Json.or, Json.truthy, Json.get, List.lookup, Json.asStr, Json.iter,
    hbuttons, hfrom, hto, hexceptions]

end Autoresponder

/-- The keys of `Features`. -/
inductive Feature where
  | deleted
  | edited
  | info
  | me
  | ban
  | check
  | viewoncePhoto
  | viewonceVoice
deriving DecidableEq, Repr

def Feature.name : Feature → String
  | .deleted => "deleted"
  | .edited => "edited"
  | .info => "info"
  | .me => "me"
  | .ban => "ban"
  | .check => "check"
  | .viewoncePhoto => "viewonce_photo"
  | .viewonceVoice => "viewonce_voice"

structure Features where
  deleted : Bool := true
  edited : Bool := true
  info : Bool := true
  me : Bool := true
  ban : Bool := true
  check : Bool := true
  viewoncePhoto : Bool := true
  viewonceVoice : Bool := true
deriving DecidableEq, Repr

namespace Features

def toDict (features : Features) : Json :=
  .dict [(Feature.deleted.name, .bool features.deleted), (Feature.edited.name, .bool features.edited),
    (Feature.info.name, .bool features.info), (Feature.me.name, .bool features.me),
    (Feature.ban.name, .bool features.ban), (Feature.check.name, .bool features.check),
    (Feature.viewoncePhoto.name, .bool features.viewoncePhoto),
    (Feature.viewonceVoice.name, .bool features.viewonceVoice)]

def fromDict (d : Json) : Option Features := do
  let d := d.or (.dict [])
  let flag (feature : Feature) : Option Bool :=
    (d.get feature.name (.bool true)).map Json.truthy
  return {
    deleted := ← flag .deleted
    edited := ← flag .edited
    info := ← flag .info
    me := ← flag .me
    ban := ← flag .ban
    check := ← flag .check
    viewoncePhoto := ← flag .viewoncePhoto
    viewonceVoice := ← flag .viewonceVoice }

theorem fromDict_toDict (features : Features) : fromDict features.toDict = some features := by
  simp [fromDict, toDict, Json.or, Json.truthy, Json.get, List.lookup, Feature.name]

/-- `setattr(features, key, not getattr(features, key))`. -/
def toggle (features : Features) : Feature → Features
  | .deleted => { features with deleted := !features.deleted }
  | .edited => { features with edited := !features.edited }
  | .info => { features with info := !features.info }
  | .me => { features with me := !features.me }
  | .ban => { features with ban := !features.ban }
  | .check => { features with check := !features.check }
  | .viewoncePhoto => { features with viewoncePhoto := !features.viewoncePhoto }
  | .viewonceVoice => { features with viewonceVoice := !features.viewonceVoice }

end Features

end UserTgBot.Settings
