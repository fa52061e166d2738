import UserTgBot.Library.Loops
import UserTgBot.Library.Transition
import UserTgBot.Settings.Schema

/-!
# Editing the settings

`management_bot/handlers/settings.py` over the settings and media functions of
`db/queries.py`. Each handler loads a whole record from its JSON column, changes one field
and writes the record back. `settings_compose` says that nothing is lost on the way: what the
userbot loads in the end is what the accepted edits make of the defaults, field by field.
-/

namespace UserTgBot.Settings

open PyText (Text text strip ofChar)
open PyJson (Json)
open Loops (Dict)

/-! ## Tables -/

structure UserSettings where
  meCard : Json := .null
  autoresponder : Json := .null
  features : Json := .null

structure MediaBlob where
  data : List UInt8
  mime : Option String
deriving DecidableEq, Repr

/-- `users` maps a `telegram_id` to an `id`; the other columns are not read here. -/
structure Database where
  users : Dict Int Nat := ∅
  nextUserId : Nat := 1
  userSettings : Dict Nat UserSettings := ∅
  mediaBlobs : Dict (Nat × String) MediaBlob := ∅

namespace Database

/-- `upsert_user`, with the id of the row. -/
def upsertUser (db : Database) (telegramId : Int) : Database × Nat :=
  match db.users.lookup telegramId with
  | some userId => (db, userId)
  | none =>
      ({ db with
          users := db.users.insert telegramId db.nextUserId
          nextUserId := db.nextUserId + 1 },
        db.nextUserId)

def getOrCreateSettings (db : Database) (userId : Nat) : Database × UserSettings :=
  match db.userSettings.lookup userId with
  | some row => (db, row)
  | none => ({ db with userSettings := db.userSettings.insert userId {} }, {})

/-- Assign to columns of the user's row. -/
def assign (db : Database) (userId : Nat) (columns : UserSettings → UserSettings) : Database :=
  let (db, row) := db.getOrCreateSettings userId
  { db with userSettings := db.userSettings.insert userId (columns row) }

def setMeCard (db : Database) (userId : Nat) (card : Json) : Database :=
  db.assign userId fun row => { row with meCard := card }

def setAutoresponder (db : Database) (userId : Nat) (config : Json) : Database :=
  db.assign userId fun row => { row with autoresponder := config }

def setFeatures (db : Database) (userId : Nat) (features : Json) : Database :=
  db.assign userId fun row => { row with features := features }

def setMedia (db : Database) (ownerUserId : Nat) (purpose : String) (data : List UInt8)
    (mime : Option String) : Database :=
  { db with mediaBlobs := db.mediaBlobs.insert (ownerUserId, purpose) ⟨data, mime⟩ }

def deleteMedia (db : Database) (ownerUserId : Nat) (purpose : String) : Database :=
  { db with mediaBlobs := db.mediaBlobs.erase (ownerUserId, purpose) }

/-- Save a photo if there is one. -/
def savePhoto (db : Database) (ownerUserId : Nat) (purpose : String) :
    Option (List UInt8) → Database
  | some data => db.setMedia ownerUserId purpose data (some "image/jpeg")
  | none => db

/-! ## What the userbot reads -/

def loadMeCard (db : Database) (ownerUserId : Nat) : Json :=
  match db.userSettings.lookup ownerUserId with
  | some row => row.meCard
  | none => .null

def loadAutoresponder (db : Database) (ownerUserId : Nat) : Json :=
  match db.userSettings.lookup ownerUserId with
  | some row => row.autoresponder
  | none => .null

def loadFeatures (db : Database) (ownerUserId : Nat) : Json :=
  match db.userSettings.lookup ownerUserId with
  | some row => row.features
  | none => .null

end Database

/-! ## Handlers -/

section Handlers

variable (db : Database) (telegramId : Int)

def loadMe : Option (Database × Nat × MeCard) := do
  let (db, userId) := db.upsertUser telegramId
  let (db, row) := db.getOrCreateSettings userId
  return (db, userId, ← MeCard.fromDict row.meCard)

def loadAr : Option (Database × Nat × Autoresponder) := do
  let (db, userId) := db.upsertUser telegramId
  let (db, row) := db.getOrCreateSettings userId
  return (db, userId, ← Autoresponder.fromDict row.autoresponder)

/-- Load the card, save a photo if there is one, change the card and save it. -/
def editMe (photo : Option (List UInt8)) (edit : MeCard → MeCard) : Option Database := do
  let (db, userId, card) ← loadMe db telegramId
  let db := db.savePhoto userId "me" photo
  return db.setMeCard userId (edit card).toDict

/-- The same for the autoresponder. -/
def editAr (photo : Option (List UInt8)) (edit : Autoresponder → Autoresponder) :
    Option Database := do
  let (db, userId, ar) ← loadAr db telegramId
  let db := db.savePhoto userId "autoresponder" photo
  return db.setAutoresponder userId (edit ar).toDict

def setMeText (message : Text) : Option Database :=
  editMe db telegramId none fun card => { card with text := strip message }

/-- The link that a message asks for. -/
def linkOf (message : Text) : Option Text :=
  if strip message = text "-" then none else some (strip message)

/-- It is what was typed, without white space around it; a dash takes the link away. -/
theorem linkOf_eq_some_iff {message link : Text} :
    linkOf message = some link ↔ strip message = link ∧ link ≠ text "-" := by
  rw [linkOf, Option.ite_none_left_eq_some, Option.some.injEq]
  constructor
  · rintro ⟨hdash, rfl⟩
    exact ⟨rfl, hdash⟩
  · rintro ⟨rfl, hdash⟩
    exact ⟨hdash, rfl⟩

/-- A link that is refused. -/
def RefusedLink (message : Text) : Prop := ∃ value ∈ linkOf message, isValidUrl value = false

instance (message : Text) : Decidable (RefusedLink message) := by
  rw [RefusedLink]
  infer_instance

def setMeLink (message : Text) : Option Database :=
  if RefusedLink message then some db
  else editMe db telegramId none fun card => { card with link := linkOf message }

def setMePhoto (data : List UInt8) : Option Database :=
  editMe db telegramId (some data) fun card => { card with hasPhoto := true }

def setMeButtons (message : Text) : Option Database :=
  editMe db telegramId none fun card => { card with buttons := parseButtons message }

def clearMe : Option Database :=
  let (db, userId) := db.upsertUser telegramId
  some ((db.setMeCard userId .null).deleteMedia userId "me")

def toggleAr : Option Database :=
  editAr db telegramId none fun ar => { ar with enabled := !ar.enabled }

def setArMessage (message : Text) : Option Database :=
  editAr db telegramId none fun ar => { ar with message := strip message }

def setArPhoto (data : List UInt8) : Option Database :=
  editAr db telegramId (some data) fun ar => { ar with hasPhoto := true }

def setArButtons (message : Text) : Option Database :=
  editAr db telegramId none fun ar => { ar with buttons := parseButtons message }

/-- The two ends that a message like `9:00-18:00` asks for. -/
def windowOf (message : Text) : Option Text × Option Text :=
  let raw := strip message
  if raw ≠ text "-" ∧ ofChar '-' ∈ raw then
    let ends := PyText.partition (ofChar '-') raw
    (parseHhmm ends.1, parseHhmm ends.2)
  else (none, none)

/-- The message is cut at its first dash. Without one, or if it is a dash, both ends go. -/
theorem windowOf_eq_iff {message : Text} {ends : Option Text × Option Text} :
    windowOf message = ends ↔
      (∃ left right, strip message = left ++ ofChar '-' :: right ∧ ofChar '-' ∉ left ∧
        strip message ≠ text "-" ∧ ends = (parseHhmm left, parseHhmm right)) ∨
      (strip message = text "-" ∨ ofChar '-' ∉ strip message) ∧ ends = (none, none) := by
  rw [windowOf]
  by_cases hcut : strip message ≠ text "-" ∧ ofChar '-' ∈ strip message
  · rw [if_pos hcut]
    obtain ⟨hlong, hdash⟩ := hcut
    constructor
    · rintro rfl
      exact .inl ⟨_, _, PyText.append_partition hdash, PyText.notMem_partition, hlong, rfl⟩
    · rintro (⟨left, right, hmessage, hleft, -, rfl⟩ | ⟨hnone | hnone, -⟩)
      · rw [hmessage, PyText.partition_append hleft]
      · exact absurd hnone hlong
      · exact absurd hdash hnone
  · rw [if_neg hcut]
    constructor
    · rintro rfl
      refine .inr ⟨?_, rfl⟩
      rwa [not_and_or, not_not] at hcut
    · rintro (⟨left, right, hmessage, -, hlong, -⟩ | ⟨-, rfl⟩)
      · refine absurd ⟨hlong, ?_⟩ hcut
        rw [hmessage]
        exact List.mem_append_right _ List.mem_cons_self
      · rfl

theorem normalTime_windowOf (message : Text) :
    NormalTime (windowOf message).1 ∧ NormalTime (windowOf message).2 := by
  rw [windowOf]
  split
  · exact ⟨normalTime_parseHhmm _, normalTime_parseHhmm _⟩
  · exact ⟨nofun, nofun⟩

def setArTime (message : Text) : Option Database :=
  editAr db telegramId none fun ar =>
    { ar with activeFrom := (windowOf message).1, activeTo := (windowOf message).2 }

/-- The ids in a message; what is no number is skipped. -/
def exceptionsOf (message : Text) : List Int :=
  let raw := strip message
  if raw ≠ text "-" then
    (PyText.splitWords (PyText.replace raw (ofChar ',') (ofChar ' '))).filterMap PyText.intOfText
  else []

/-- The numbers among the words between blanks and commas, in their order; a dash takes all the
exceptions away. -/
theorem exceptionsOf_eq_iff {message : Text} {ids : List Int} :
    exceptionsOf message = ids ↔
      strip message = text "-" ∧ ids = [] ∨
      strip message ≠ text "-" ∧ ∃ words,
        PyText.Words (fun c => PyText.isSpace c || c = ofChar ',') (strip message) words ∧
          ids = words.filterMap PyText.intOfText := by
  rw [exceptionsOf]
  by_cases hdash : strip message = text "-"
  · rw [if_neg (not_not.mpr hdash)]
    simp [hdash, eq_comm]
  · rw [if_pos hdash]
    constructor
    · rintro rfl
      exact .inr ⟨hdash, _, PyText.splitWords_replace_iff.mp rfl, rfl⟩
    · rintro (⟨hnone, -⟩ | ⟨-, words, hwords, rfl⟩)
      · exact absurd hnone hdash
      · rw [PyText.splitWords_replace_iff.mpr hwords]

def setArExceptions (message : Text) : Option Database :=
  editAr db telegramId none fun ar => { ar with exceptions := exceptionsOf message }

def onFeaturesToggle (key : Feature) : Option Database :=
  match db.users.lookup telegramId with
  | none => some db
  | some userId => do
      let (db, row) := db.getOrCreateSettings userId
      let features ← Features.fromDict row.features
      return db.setFeatures userId (features.toggle key).toDict

end Handlers

/-- What an owner can send. -/
inductive Input where
  | settings
  | meText (message : Text)
  | meLink (message : Text)
  | mePhoto (data : List UInt8)
  | meButtons (message : Text)
  | meClear
  | arToggle
  | arMessage (message : Text)
  | arPhoto (data : List UInt8)
  | arButtons (message : Text)
  | arTime (message : Text)
  | arExceptions (message : Text)
  | featuresToggle (key : Feature)
deriving DecidableEq, Repr

structure Action where
  telegramId : Int
  input : Input
deriving DecidableEq, Repr

/-- The handler that an action reaches; nothing if it raises. -/
def handle (db : Database) (a : Action) : Option Database :=
  match a.input with
  | .settings => some (db.upsertUser a.telegramId).1
  | .meText message => setMeText db a.telegramId message
  | .meLink message => setMeLink db a.telegramId message
  | .mePhoto data => setMePhoto db a.telegramId data
  | .meButtons message => setMeButtons db a.telegramId message
  | .meClear => clearMe db a.telegramId
  | .arToggle => toggleAr db a.telegramId
  | .arMessage message => setArMessage db a.telegramId message
  | .arPhoto data => setArPhoto db a.telegramId data
  | .arButtons message => setArButtons db a.telegramId message
  | .arTime message => setArTime db a.telegramId message
  | .arExceptions message => setArExceptions db a.telegramId message
  | .featuresToggle key => onFeaturesToggle db a.telegramId key

/-! ## Field by field -/

/-- The settings of one owner; the defaults are those of the records. -/
structure Profile where
  me : MeCard := {}
  ar : Autoresponder := {}
  features : Features := {}
deriving DecidableEq, Repr

/-- The fields that an edit is about, and what it makes of them. What `linkOf`, `windowOf` and
`exceptionsOf` find in a message is said by `linkOf_eq_some_iff`, `windowOf_eq_iff` and
`exceptionsOf_eq_iff`. -/
def Input.apply (p : Profile) : Input → Profile
  | .settings => p
  | .meText message => { p with me := { p.me with text := strip message } }
  | .meLink message => { p with me := { p.me with link := linkOf message } }
  | .mePhoto _ => { p with me := { p.me with hasPhoto := true } }
  | .meButtons message => { p with me := { p.me with buttons := firstButtons message } }
  | .meClear => { p with me := {} }
  | .arToggle => { p with ar := { p.ar with enabled := !p.ar.enabled } }
  | .arMessage message => { p with ar := { p.ar with message := strip message } }
  | .arPhoto _ => { p with ar := { p.ar with hasPhoto := true } }
  | .arButtons message => { p with ar := { p.ar with buttons := firstButtons message } }
  | .arTime message =>
      { p with ar := { p.ar with
          activeFrom := (windowOf message).1, activeTo := (windowOf message).2 } }
  | .arExceptions message => { p with ar := { p.ar with exceptions := exceptionsOf message } }
  | .featuresToggle key => { p with features := p.features.toggle key }

/-- A refused link changes nothing, and features are toggled for known users only. -/
def Input.Accepted (known : Prop) : Input → Prop
  | .meLink message => ¬ RefusedLink message
  | .featuresToggle _ => known
  | _ => True

instance (known : Prop) [Decidable known] (input : Input) : Decidable (input.Accepted known) := by
  unfold Input.Accepted
  split <;> infer_instance

/-- The user has a row after the edit. -/
def Input.registers (input : Input) : Prop := input.Accepted False

instance (input : Input) : Decidable input.registers :=
  inferInstanceAs (Decidable (input.Accepted False))

/-- Some of the actions has made the user known. -/
def Known (telegramId : Int) (actions : List Action) : Prop :=
  ∃ a ∈ actions, a.telegramId = telegramId ∧ a.input.registers

instance (telegramId : Int) (actions : List Action) : Decidable (Known telegramId actions) := by
  rw [Known]
  infer_instance

/-- The accepted edits of an owner, given what came before. -/
def editsFrom (telegramId : Int) (past : List Action) : List Action → List Input
  | [] => []
  | a :: rest =>
      let later := editsFrom telegramId (past ++ [a]) rest
      if a.telegramId = telegramId ∧ a.input.Accepted (Known telegramId past) then
        a.input :: later
      else later

def edits (telegramId : Int) (actions : List Action) : List Input :=
  editsFrom telegramId [] actions

/-- The defaults with all the accepted edits applied. -/
def profile (telegramId : Int) (actions : List Action) : Profile :=
  (edits telegramId actions).foldl Input.apply {}

/-- The last button input for the card since it was cleared. -/
def lastMeButtons : List Input → Text :=
  List.foldl (fun last input => match input with
    | .meButtons message => message
    | .meClear => []
    | _ => last) []

/-- The last button input for the autoresponder. -/
def lastArButtons : List Input → Text :=
  List.foldl (fun last input => match input with
    | .arButtons message => message
    | _ => last) []

/-! ## Columns and blobs of one user -/

namespace Database

variable (db : Database) (userId userId' : Nat)

/-- The user's row; a row that does not exist reads like a new one. -/
def settingsOf : UserSettings := (db.userSettings.lookup userId).getD {}

theorem loadMeCard_eq : db.loadMeCard userId = (db.settingsOf userId).meCard := by
  rw [loadMeCard, settingsOf]
  cases db.userSettings.lookup userId <;> rfl

theorem loadAutoresponder_eq :
    db.loadAutoresponder userId = (db.settingsOf userId).autoresponder := by
  rw [loadAutoresponder, settingsOf]
  cases db.userSettings.lookup userId <;> rfl

theorem getOrCreateSettings_snd : (db.getOrCreateSettings userId).2 = db.settingsOf userId := by
  rw [getOrCreateSettings, settingsOf]
  cases db.userSettings.lookup userId <;> rfl

theorem settingsOf_getOrCreateSettings :
    (db.getOrCreateSettings userId).1.settingsOf userId' = db.settingsOf userId' := by
  rw [getOrCreateSettings]
  cases hrow : db.userSettings.lookup userId with
  | some row => rfl
  | none =>
      simp only [settingsOf, Dict.lookup_insert_eq]
      by_cases heq : userId' = userId
      · rw [if_pos heq, heq, hrow]
        rfl
      · rw [if_neg heq]

theorem settingsOf_assign (columns : UserSettings → UserSettings) :
    (db.assign userId columns).settingsOf userId' =
      if userId' = userId then columns (db.settingsOf userId) else db.settingsOf userId' := by
  have hrow := db.getOrCreateSettings_snd userId
  have hother := db.settingsOf_getOrCreateSettings userId userId'
  simp only [assign, settingsOf, Dict.lookup_insert_eq] at hrow hother ⊢
  by_cases heq : userId' = userId
  · rw [if_pos heq, if_pos heq, hrow, Option.getD_some]
  · rw [if_neg heq, if_neg heq, hother]

@[simp] theorem users_getOrCreateSettings :
    (db.getOrCreateSettings userId).1.users = db.users := by
  rw [getOrCreateSettings]
  cases db.userSettings.lookup userId <;> rfl

@[simp] theorem nextUserId_getOrCreateSettings :
    (db.getOrCreateSettings userId).1.nextUserId = db.nextUserId := by
  rw [getOrCreateSettings]
  cases db.userSettings.lookup userId <;> rfl

@[simp] theorem mediaBlobs_getOrCreateSettings :
    (db.getOrCreateSettings userId).1.mediaBlobs = db.mediaBlobs := by
  rw [getOrCreateSettings]
  cases db.userSettings.lookup userId <;> rfl

@[simp] theorem users_assign (columns : UserSettings → UserSettings) :
    (db.assign userId columns).users = db.users := db.users_getOrCreateSettings userId

@[simp] theorem nextUserId_assign (columns : UserSettings → UserSettings) :
    (db.assign userId columns).nextUserId = db.nextUserId :=
  db.nextUserId_getOrCreateSettings userId

@[simp] theorem mediaBlobs_assign (columns : UserSettings → UserSettings) :
    (db.assign userId columns).mediaBlobs = db.mediaBlobs :=
  db.mediaBlobs_getOrCreateSettings userId

end Database

/-! ## The settings that a database holds -/

/-- The columns and blobs of a user hold this profile, and reading them gives it back. -/
structure Stored (db : Database) (userId : Nat) (p : Profile) : Prop where
  me : MeCard.fromDict (db.settingsOf userId).meCard = some p.me
  ar : Autoresponder.fromDict (db.settingsOf userId).autoresponder = some p.ar
  features : Features.fromDict (db.settingsOf userId).features = some p.features
  mePhoto : p.me.hasPhoto = (db.mediaBlobs.lookup (userId, "me")).isSome
  arPhoto : p.ar.hasPhoto = (db.mediaBlobs.lookup (userId, "autoresponder")).isSome
  fewButtons : p.me.buttons.length ≤ MAX_BUTTONS
  normal : p.ar.Normal

/-- What is not written to stays stored. -/
theorem Stored.frame {db db' : Database} {userId : Nat} {p : Profile} (h : Stored db userId p)
    (settings : db'.settingsOf userId = db.settingsOf userId)
    (blobs : ∀ purpose, db'.mediaBlobs.lookup (userId, purpose) =
      db.mediaBlobs.lookup (userId, purpose)) : Stored db' userId p where
  me := settings ▸ h.me
  ar := settings ▸ h.ar
  features := settings ▸ h.features
  mePhoto := (blobs "me").symm ▸ h.mePhoto
  arPhoto := (blobs "autoresponder").symm ▸ h.arPhoto
  fewButtons := h.fewButtons
  normal := h.normal

theorem normal_default : Autoresponder.Normal {} where
  buttons := by decide
  activeFrom := nofun
  activeTo := nofun

/-- The database holds the profiles of the known owners, each under an id of its own. -/
structure Inv (owners : Int → Option Profile) (db : Database) : Prop where
  known : ∀ telegramId, (owners telegramId).isSome = (db.users.lookup telegramId).isSome
  stored : ∀ telegramId userId p, db.users.lookup telegramId = some userId →
    owners telegramId = some p → Stored db userId p
  fresh : ∀ telegramId userId, db.users.lookup telegramId = some userId →
    userId < db.nextUserId
  separate : ∀ telegramId telegramId' userId, db.users.lookup telegramId = some userId →
    db.users.lookup telegramId' = some userId → telegramId = telegramId'
  unused : ∀ userId, db.nextUserId ≤ userId → Stored db userId {}

/-- A user without rows has the default settings. -/
theorem stored_default (userId : Nat) : Stored {} userId {} where
  me := rfl
  ar := rfl
  features := rfl
  mePhoto := rfl
  arPhoto := rfl
  fewButtons := Nat.zero_le _
  normal := normal_default

theorem inv_initial : Inv (fun _ => none) {} := by
  have hnone : ∀ telegramId, (Database.users {}).lookup telegramId = none := fun telegramId =>
    AList.lookup_empty telegramId
  refine ⟨fun telegramId => ?_, fun telegramId userId p h => ?_, fun telegramId userId h => ?_,
    fun telegramId _ userId h => ?_, fun userId _ => stored_default userId⟩
  · rw [hnone]
    rfl
  · cases (hnone telegramId).symm.trans h
  · cases (hnone telegramId).symm.trans h
  · cases (hnone telegramId).symm.trans h

/-- Other users' columns and blobs are not written to. -/
structure Database.Frame (userId : Nat) (db db' : Database) : Prop where
  users : db'.users = db.users
  nextUserId : db'.nextUserId = db.nextUserId
  settings : ∀ other, other ≠ userId → db'.settingsOf other = db.settingsOf other
  blobs : ∀ other, other ≠ userId → ∀ purpose,
    db'.mediaBlobs.lookup (other, purpose) = db.mediaBlobs.lookup (other, purpose)

namespace Database

theorem Frame.trans {userId : Nat} {db db' db'' : Database} (first : Frame userId db db')
    (rest : Frame userId db' db'') : Frame userId db db'' where
  users := rest.users.trans first.users
  nextUserId := rest.nextUserId.trans first.nextUserId
  settings := fun other hne => (rest.settings other hne).trans (first.settings other hne)
  blobs := fun other hne purpose =>
    (rest.blobs other hne purpose).trans (first.blobs other hne purpose)

variable (db : Database) (userId : Nat)

theorem frame_getOrCreateSettings : Frame userId db (db.getOrCreateSettings userId).1 where
  users := db.users_getOrCreateSettings userId
  nextUserId := db.nextUserId_getOrCreateSettings userId
  settings := fun other _ => db.settingsOf_getOrCreateSettings userId other
  blobs := fun other _ purpose => by rw [db.mediaBlobs_getOrCreateSettings userId]

theorem frame_assign (columns : UserSettings → UserSettings) :
    Frame userId db (db.assign userId columns) where
  users := db.users_assign userId columns
  nextUserId := db.nextUserId_assign userId columns
  settings := fun other hne => by rw [settingsOf_assign, if_neg hne]
  blobs := fun other _ purpose => by rw [mediaBlobs_assign]

theorem frame_savePhoto (purpose : String) (photo : Option (List UInt8)) :
    Frame userId db (db.savePhoto userId purpose photo) := by
  cases photo with
  | none => exact ⟨rfl, rfl, fun _ _ => rfl, fun _ _ _ => rfl⟩
  | some data =>
      refine ⟨rfl, rfl, fun _ _ => rfl, fun other hne purpose' => ?_⟩
      show (db.mediaBlobs.insert (userId, purpose) _).lookup (other, purpose') = _
      rw [Dict.lookup_insert_eq, if_neg fun heq => hne (congrArg Prod.fst heq)]

theorem frame_deleteMedia (purpose : String) :
    Frame userId db (db.deleteMedia userId purpose) := by
  refine ⟨rfl, rfl, fun _ _ => rfl, fun other hne purpose' => ?_⟩
  show (db.mediaBlobs.erase (userId, purpose)).lookup (other, purpose') = _
  rw [Dict.lookup_erase_eq, if_neg fun heq => hne (congrArg Prod.fst heq)]

@[simp] theorem settingsOf_deleteMedia (purpose : String) :
    (db.deleteMedia userId purpose).settingsOf userId = db.settingsOf userId := rfl

theorem lookup_deleteMedia (purpose other : String) :
    (db.deleteMedia userId purpose).mediaBlobs.lookup (userId, other) =
      if other = purpose then none else db.mediaBlobs.lookup (userId, other) := by
  show (db.mediaBlobs.erase (userId, purpose)).lookup (userId, other) = _
  rw [Dict.lookup_erase_eq]
  simp

theorem isSome_savePhoto (purpose : String) (photo : Option (List UInt8)) :
    ((db.savePhoto userId purpose photo).mediaBlobs.lookup (userId, purpose)).isSome =
      (photo.isSome || (db.mediaBlobs.lookup (userId, purpose)).isSome) := by
  cases photo with
  | none => rfl
  | some data =>
      show ((db.mediaBlobs.insert (userId, purpose) _).lookup (userId, purpose)).isSome = _
      rw [Dict.lookup_insert_eq, if_pos rfl]
      rfl

theorem lookup_savePhoto {purpose other : String} (hne : other ≠ purpose)
    (photo : Option (List UInt8)) :
    (db.savePhoto userId purpose photo).mediaBlobs.lookup (userId, other) =
      db.mediaBlobs.lookup (userId, other) := by
  cases photo with
  | none => rfl
  | some data =>
      show (db.mediaBlobs.insert (userId, purpose) _).lookup (userId, other) = _
      rw [Dict.lookup_insert_eq, if_neg fun heq => hne (congrArg Prod.snd heq)]

@[simp] theorem settingsOf_savePhoto (purpose : String) (photo : Option (List UInt8)) :
    (db.savePhoto userId purpose photo).settingsOf userId = db.settingsOf userId := by
  cases photo <;> rfl

/-- The columns after an edit with a photo. -/
theorem settingsOf_edit (purpose : String) (photo : Option (List UInt8))
    (columns : UserSettings → UserSettings) :
    (((db.getOrCreateSettings userId).1.savePhoto userId purpose photo).assign userId
      columns).settingsOf userId = columns (db.settingsOf userId) := by
  rw [settingsOf_assign, if_pos rfl, settingsOf_savePhoto, settingsOf_getOrCreateSettings]

end Database

/-- A write for one known owner. -/
theorem Inv.write {owners : Int → Option Profile} {db db' : Database} {telegramId : Int}
    {userId : Nat} {p : Profile} (h : Inv owners db)
    (hlookup : db.users.lookup telegramId = some userId) (frame : Database.Frame userId db db')
    (hstored : Stored db' userId p) : Inv (Function.update owners telegramId (some p)) db' where
  known := by
    intro other
    rw [frame.users]
    by_cases heq : other = telegramId
    · rw [heq, Function.update_self, hlookup]
      rfl
    · rw [Function.update_of_ne heq]
      exact h.known other
  stored := by
    intro other otherId q hother hq
    rw [frame.users] at hother
    by_cases heq : other = telegramId
    · rw [heq, Function.update_self] at hq
      rw [heq, hlookup] at hother
      cases hq
      cases hother
      exact hstored
    · rw [Function.update_of_ne heq] at hq
      have hne : otherId ≠ userId := by
        rintro rfl
        exact heq (h.separate other telegramId otherId hother hlookup)
      exact (h.stored other otherId q hother hq).frame (frame.settings otherId hne)
        (frame.blobs otherId hne)
  fresh := by
    rw [frame.users, frame.nextUserId]
    exact h.fresh
  separate := by
    rw [frame.users]
    exact h.separate
  unused := by
    intro other hother
    rw [frame.nextUserId] at hother
    have hne : other ≠ userId := by
      have hlt := h.fresh telegramId userId hlookup
      omega
    exact (h.unused other hother).frame (frame.settings other hne) (frame.blobs other hne)

/-- A new user has the default settings. -/
theorem Inv.upsertUser {owners : Int → Option Profile} {db : Database} (h : Inv owners db)
    (telegramId : Int) :
    Inv (Function.update owners telegramId (some ((owners telegramId).getD {})))
      (db.upsertUser telegramId).1 ∧
    (db.upsertUser telegramId).1.users.lookup telegramId =
      some (db.upsertUser telegramId).2 := by
  have hknown := h.known telegramId
  rw [Database.upsertUser]
  cases hlookup : db.users.lookup telegramId with
  | some userId =>
      obtain ⟨p, hp⟩ := Option.isSome_iff_exists.mp (hknown.trans (hlookup ▸ rfl))
      refine ⟨?_, hlookup⟩
      rw [hp, Option.getD_some, ← hp, Function.update_eq_self]
      exact h
  | none =>
      have hnone : owners telegramId = none := by
        rw [hlookup, Option.isSome_none, Option.isSome_eq_false_iff,
          Option.isNone_iff_eq_none] at hknown
        exact hknown
      have hfresh : ∀ other userId, db.users.lookup other = some userId →
          userId ≠ db.nextUserId := fun other userId hother =>
        Nat.ne_of_lt (h.fresh other userId hother)
      refine ⟨⟨?_, ?_, ?_, ?_, ?_⟩, ?_⟩
      · intro other
        show _ = ((db.users.insert telegramId db.nextUserId).lookup other).isSome
        rw [Dict.lookup_insert_eq]
        by_cases heq : other = telegramId
        · rw [heq, Function.update_self, if_pos rfl]
          rfl
        · rw [Function.update_of_ne heq, if_neg heq]
          exact h.known other
      · intro other userId p hother hp
        change (db.users.insert telegramId db.nextUserId).lookup other = _ at hother
        rw [Dict.lookup_insert_eq] at hother
        by_cases heq : other = telegramId
        · rw [heq, Function.update_self, hnone] at hp
          rw [if_pos heq] at hother
          cases hp
          cases hother
          exact (h.unused _ (Nat.le_refl _)).frame rfl fun _ => rfl
        · rw [Function.update_of_ne heq] at hp
          rw [if_neg heq] at hother
          exact (h.stored other userId p hother hp).frame rfl fun _ => rfl
      · intro other userId hother
        change (db.users.insert telegramId db.nextUserId).lookup other = _ at hother
        show userId < db.nextUserId + 1
        rw [Dict.lookup_insert_eq] at hother
        split at hother
        · cases hother
          omega
        · have hlt := h.fresh other userId hother
          omega
      · intro other other' userId hother hother'
        change (db.users.insert telegramId db.nextUserId).lookup other = _ at hother
        change (db.users.insert telegramId db.nextUserId).lookup other' = _ at hother'
        rw [Dict.lookup_insert_eq] at hother hother'
        by_cases heq : other = telegramId
        · by_cases heq' : other' = telegramId
          · rw [heq, heq']
          · rw [if_pos heq] at hother
            rw [if_neg heq'] at hother'
            cases hother
            exact absurd rfl (hfresh other' _ hother')
        · by_cases heq' : other' = telegramId
          · rw [if_neg heq] at hother
            rw [if_pos heq'] at hother'
            cases hother'
            exact absurd rfl (hfresh other _ hother)
          · rw [if_neg heq] at hother
            rw [if_neg heq'] at hother'
            exact h.separate other other' userId hother hother'
      · intro userId hle
        change db.nextUserId + 1 ≤ userId at hle
        exact (h.unused userId (by omega)).frame rfl fun _ => rfl
      · show (db.users.insert telegramId db.nextUserId).lookup telegramId = _
        rw [Dict.lookup_insert_eq, if_pos rfl]

/-! ## What the handlers do -/

section Handlers

variable {owners : Int → Option Profile} {db : Database}

/-- After `upsert_user` the profile of the user is stored, and a write of another one that
touches nobody else keeps the invariant. -/
theorem Inv.registered (h : Inv owners db) (telegramId : Int) :
    ∃ db₁ userId, db.upsertUser telegramId = (db₁, userId) ∧
      Stored db₁ userId ((owners telegramId).getD {}) ∧
      ∀ db' p, Database.Frame userId db₁ db' → Stored db' userId p →
        Inv (Function.update owners telegramId (some p)) db' := by
  obtain ⟨hinv, hlookup⟩ := h.upsertUser telegramId
  refine ⟨_, _, rfl, ?_, fun db' p hframe hstored => ?_⟩
  · exact hinv.stored telegramId _ _ hlookup (Function.update_self _ _ _)
  · have hwrite := hinv.write hlookup hframe hstored
    rwa [Function.update_idem] at hwrite

/-- An edit of the card changes the card alone. -/
theorem Inv.editMe (h : Inv owners db) (telegramId : Int) (photo : Option (List UInt8))
    (edit : MeCard → MeCard)
    (few : ∀ card, card.buttons.length ≤ MAX_BUTTONS →
      (edit card).buttons.length ≤ MAX_BUTTONS)
    (hasPhoto : ∀ card, (edit card).hasPhoto = (photo.isSome || card.hasPhoto)) :
    ∃ db', Settings.editMe db telegramId photo edit = some db' ∧
      Inv (Function.update owners telegramId
        (some { (owners telegramId).getD {} with
          me := edit ((owners telegramId).getD {}).me })) db' := by
  obtain ⟨db₁, userId, huser, hstored, hwrite⟩ := h.registered telegramId
  generalize (owners telegramId).getD {} = p at hstored ⊢
  have hload : loadMe db telegramId = some ((db₁.getOrCreateSettings userId).1, userId, p.me) := by
    simp [loadMe, huser, Database.getOrCreateSettings_snd, hstored.me]
  have hframe := (db₁.frame_getOrCreateSettings userId).trans
    (((db₁.getOrCreateSettings userId).1.frame_savePhoto userId "me" photo).trans
      (Database.frame_assign _ userId fun row => { row with meCard := (edit p.me).toDict }))
  have hsettings := db₁.settingsOf_edit userId "me" photo fun row =>
    { row with meCard := (edit p.me).toDict }
  refine ⟨_, by rw [Settings.editMe, hload]; rfl, hwrite _ _ hframe ?_⟩
  constructor
  · rw [hsettings]
    exact MeCard.fromDict_toDict (few p.me hstored.fewButtons)
  · rw [hsettings]
    exact hstored.ar
  · rw [hsettings]
    exact hstored.features
  · rw [Database.mediaBlobs_assign, Database.isSome_savePhoto,
      Database.mediaBlobs_getOrCreateSettings, ← hstored.mePhoto]
    exact hasPhoto p.me
  · rw [Database.mediaBlobs_assign, Database.lookup_savePhoto _ _ (by decide),
      Database.mediaBlobs_getOrCreateSettings]
    exact hstored.arPhoto
  · exact few p.me hstored.fewButtons
  · exact hstored.normal

/-- An edit of the autoresponder changes the autoresponder alone. -/
theorem Inv.editAr (h : Inv owners db) (telegramId : Int) (photo : Option (List UInt8))
    (edit : Autoresponder → Autoresponder) (normal : ∀ ar, ar.Normal → (edit ar).Normal)
    (hasPhoto : ∀ ar, (edit ar).hasPhoto = (photo.isSome || ar.hasPhoto)) :
    ∃ db', Settings.editAr db telegramId photo edit = some db' ∧
      Inv (Function.update owners telegramId
        (some { (owners telegramId).getD {} with
          ar := edit ((owners telegramId).getD {}).ar })) db' := by
  obtain ⟨db₁, userId, huser, hstored, hwrite⟩ := h.registered telegramId
  generalize (owners telegramId).getD {} = p at hstored ⊢
  have hload : loadAr db telegramId = some ((db₁.getOrCreateSettings userId).1, userId, p.ar) := by
    simp [loadAr, huser, Database.getOrCreateSettings_snd, hstored.ar]
  have hframe := (db₁.frame_getOrCreateSettings userId).trans
    (((db₁.getOrCreateSettings userId).1.frame_savePhoto userId "autoresponder" photo).trans
      (Database.frame_assign _ userId fun row => { row with autoresponder := (edit p.ar).toDict }))
  have hsettings := db₁.settingsOf_edit userId "autoresponder" photo fun row =>
    { row with autoresponder := (edit p.ar).toDict }
  refine ⟨_, by rw [Settings.editAr, hload]; rfl, hwrite _ _ hframe ?_⟩
  constructor
  · rw [hsettings]
    exact hstored.me
  · rw [hsettings]
    exact Autoresponder.fromDict_toDict (normal p.ar hstored.normal)
  · rw [hsettings]
    exact hstored.features
  · rw [Database.mediaBlobs_assign, Database.lookup_savePhoto _ _ (by decide),
      Database.mediaBlobs_getOrCreateSettings]
    exact hstored.mePhoto
  · rw [Database.mediaBlobs_assign, Database.isSome_savePhoto,
      Database.mediaBlobs_getOrCreateSettings, ← hstored.arPhoto]
    exact hasPhoto p.ar
  · exact hstored.fewButtons
  · exact normal p.ar hstored.normal

/-- Clearing the card resets it and deletes its photo. -/
theorem Inv.clearMe (h : Inv owners db) (telegramId : Int) :
    ∃ db', Settings.clearMe db telegramId = some db' ∧
      Inv (Function.update owners telegramId
        (some { (owners telegramId).getD {} with me := {} })) db' := by
  obtain ⟨db₁, userId, huser, hstored, hwrite⟩ := h.registered telegramId
  generalize (owners telegramId).getD {} = p at hstored ⊢
  have hframe := (db₁.frame_assign userId fun row => { row with meCard := .null }).trans
    (Database.frame_deleteMedia _ userId "me")
  have hsettings := db₁.settingsOf_assign userId userId fun row => { row with meCard := .null }
  rw [if_pos rfl] at hsettings
  refine ⟨_, by rw [Settings.clearMe, huser]; rfl, hwrite _ _ hframe ?_⟩
  constructor
  · rw [Database.settingsOf_deleteMedia, hsettings]
    rfl
  · rw [Database.settingsOf_deleteMedia, hsettings]
    exact hstored.ar
  · rw [Database.settingsOf_deleteMedia, hsettings]
    exact hstored.features
  · rw [Database.lookup_deleteMedia, if_pos rfl]
    rfl
  · rw [Database.lookup_deleteMedia, if_neg (by decide), Database.mediaBlobs_assign]
    exact hstored.arPhoto
  · exact Nat.zero_le _
  · exact hstored.normal

/-- Toggling a feature of a known user changes that feature alone. -/
theorem Inv.toggle (h : Inv owners db) {telegramId : Int} {p : Profile} (hp : owners telegramId = some p)
    (key : Feature) :
    ∃ db', onFeaturesToggle db telegramId key = some db' ∧
      Inv (Function.update owners telegramId
        (some { p with features := p.features.toggle key })) db' := by
  have hknown := h.known telegramId
  rw [hp] at hknown
  obtain ⟨userId, hlookup⟩ := Option.isSome_iff_exists.mp hknown.symm
  have hstored := h.stored telegramId userId p hlookup hp
  have hframe := (db.frame_getOrCreateSettings userId).trans
    (Database.frame_assign _ userId fun row =>
      { row with features := (p.features.toggle key).toDict })
  have hsettings := db.settingsOf_getOrCreateSettings userId userId
  refine ⟨_, ?_, h.write hlookup hframe (p := { p with features := p.features.toggle key }) ?_⟩
  · rw [onFeaturesToggle, hlookup]
    simp only [Database.getOrCreateSettings_snd, hstored.features]
    rfl
  · constructor
    · rw [Database.settingsOf_assign, if_pos rfl, hsettings]
      exact hstored.me
    · rw [Database.settingsOf_assign, if_pos rfl, hsettings]
      exact hstored.ar
    · rw [Database.settingsOf_assign, if_pos rfl]
      exact Features.fromDict_toDict _
    · rw [Database.mediaBlobs_assign, Database.mediaBlobs_getOrCreateSettings]
      exact hstored.mePhoto
    · rw [Database.mediaBlobs_assign, Database.mediaBlobs_getOrCreateSettings]
      exact hstored.arPhoto
    · exact hstored.fewButtons
    · exact hstored.normal

end Handlers

/-! ## One step and whole runs -/

/-- What an input makes of an owner, who may be unknown. -/
def ownerStep (owner : Option Profile) (input : Input) : Option Profile :=
  if input.Accepted (owner.isSome = true) then some (input.apply (owner.getD {})) else owner

theorem ownerStep_of_accepted {owner : Option Profile} {input : Input}
    (h : input.Accepted (owner.isSome = true)) :
    ownerStep owner input = some (input.apply (owner.getD {})) := if_pos h

theorem ownerStep_of_refused {owner : Option Profile} {input : Input}
    (h : ¬ input.Accepted (owner.isSome = true)) : ownerStep owner input = owner := if_neg h

theorem handle_spec {owners : Int → Option Profile} {db : Database} (h : Inv owners db)
    (a : Action) : ∃ db', handle db a = some db' ∧
      Inv (Function.update owners a.telegramId (ownerStep (owners a.telegramId) a.input)) db' := by
  obtain ⟨telegramId, input⟩ := a
  cases input with
  | settings => exact ⟨_, rfl, (h.upsertUser telegramId).1⟩
  | meText message =>
      exact h.editMe telegramId none (fun card => { card with text := strip message })
        (fun _ few => few) fun _ => rfl
  | meLink message =>
      by_cases hrefused : RefusedLink message
      · have hstep : ownerStep (owners telegramId) (.meLink message) = owners telegramId :=
          ownerStep_of_refused (not_not_intro hrefused)
        refine ⟨db, if_pos hrefused, ?_⟩
        rw [hstep, Function.update_eq_self]
        exact h
      · obtain ⟨db', hdb', hinv⟩ := h.editMe telegramId none
          (fun card => { card with link := linkOf message }) (fun _ few => few) fun _ => rfl
        have hstep : ownerStep (owners telegramId) (.meLink message) =
            some ((Input.meLink message).apply ((owners telegramId).getD {})) :=
          ownerStep_of_accepted hrefused
        refine ⟨db', (if_neg hrefused).trans hdb', ?_⟩
        rw [hstep]
        exact hinv
  | mePhoto data =>
      exact h.editMe telegramId (some data) (fun card => { card with hasPhoto := true })
        (fun _ few => few) fun _ => rfl
  | meButtons message =>
      have hedit := h.editMe telegramId none
        (fun card => { card with buttons := parseButtons message })
        (fun _ _ => parseButtons_eq message ▸ length_firstButtons message) fun _ => rfl
      rw [parseButtons_eq] at hedit
      simp only [handle, setMeButtons, parseButtons_eq]
      exact hedit
  | meClear => exact h.clearMe telegramId
  | arToggle =>
      exact h.editAr telegramId none (fun ar => { ar with enabled := !ar.enabled })
        (fun _ hn => ⟨hn.buttons, hn.activeFrom, hn.activeTo⟩) fun _ => rfl
  | arMessage message =>
      exact h.editAr telegramId none (fun ar => { ar with message := strip message })
        (fun _ hn => ⟨hn.buttons, hn.activeFrom, hn.activeTo⟩) fun _ => rfl
  | arPhoto data =>
      exact h.editAr telegramId (some data) (fun ar => { ar with hasPhoto := true })
        (fun _ hn => ⟨hn.buttons, hn.activeFrom, hn.activeTo⟩) fun _ => rfl
  | arButtons message =>
      have hedit := h.editAr telegramId none
        (fun ar => { ar with buttons := parseButtons message })
        (fun _ hn => ⟨parseButtons_eq message ▸ length_firstButtons message, hn.activeFrom,
          hn.activeTo⟩) fun _ => rfl
      rw [parseButtons_eq] at hedit
      simp only [handle, setArButtons, parseButtons_eq]
      exact hedit
  | arTime message =>
      have hnormal := normalTime_windowOf message
      exact h.editAr telegramId none
        (fun ar => { ar with
          activeFrom := (windowOf message).1, activeTo := (windowOf message).2 })
        (fun _ hn => ⟨hn.buttons, hnormal.1, hnormal.2⟩) fun _ => rfl
  | arExceptions message =>
      exact h.editAr telegramId none (fun ar => { ar with exceptions := exceptionsOf message })
        (fun _ hn => ⟨hn.buttons, hn.activeFrom, hn.activeTo⟩) fun _ => rfl
  | featuresToggle key =>
      have hknown := h.known telegramId
      cases hp : owners telegramId with
      | none =>
          rw [hp, Option.isSome_none] at hknown
          have hlookup : db.users.lookup telegramId = none := by
            simpa using hknown.symm
          refine ⟨db, by simp [handle, onFeaturesToggle, hlookup], ?_⟩
          rw [ownerStep_of_refused (by simp [Input.Accepted]), ← hp, Function.update_eq_self]
          exact h
      | some p =>
          rw [ownerStep_of_accepted (by simp [Input.Accepted])]
          exact h.toggle hp key

/-! ## The edits of an owner -/

theorem Input.Accepted.mono {known known' : Prop} (h : known → known') {input : Input}
    (accepted : input.Accepted known) : input.Accepted known' := by
  cases input with
  | featuresToggle key => exact h accepted
  | _ => exact accepted

/-- An accepted edit of an unknown user makes the user known. -/
theorem Input.Accepted.registers_or {known : Prop} {input : Input}
    (accepted : input.Accepted known) : input.registers ∨ known := by
  cases input with
  | featuresToggle key => exact .inr accepted
  | _ => exact .inl accepted

theorem known_concat {telegramId : Int} {past : List Action} {a : Action} :
    Known telegramId (past ++ [a]) ↔
      Known telegramId past ∨ a.telegramId = telegramId ∧ a.input.registers := by
  simp [Known, or_and_right, exists_or]

theorem editsFrom_concat (telegramId : Int) (past actions : List Action) (a : Action) :
    editsFrom telegramId past (actions ++ [a]) = editsFrom telegramId past actions ++
      if a.telegramId = telegramId ∧ a.input.Accepted (Known telegramId (past ++ actions)) then
        [a.input]
      else [] := by
  induction actions generalizing past with
  | nil => simp [editsFrom]
  | cons b actions ih =>
      simp only [List.cons_append, editsFrom, ih, List.append_assoc, List.nil_append]
      split <;> rfl

theorem edits_concat (telegramId : Int) (past : List Action) (a : Action) :
    edits telegramId (past ++ [a]) = edits telegramId past ++
      if a.telegramId = telegramId ∧ a.input.Accepted (Known telegramId past) then [a.input]
      else [] :=
  editsFrom_concat telegramId [] past a

/-- Only accepted edits are among the edits of an owner. -/
theorem accepted_of_mem_edits {telegramId : Int} {actions : List Action} {input : Input}
    (h : input ∈ edits telegramId actions) : ∃ known : Prop, input.Accepted known := by
  induction actions using List.reverseRecOn with
  | nil => cases h
  | append_singleton past a ih =>
      rw [edits_concat, List.mem_append] at h
      obtain h | h := h
      · exact ih h
      · split at h
        · next haccepted =>
            rw [List.mem_singleton.mp h]
            exact ⟨_, haccepted.2⟩
        · cases h

theorem edits_of_unknown {telegramId : Int} {actions : List Action}
    (unknown : ¬ Known telegramId actions) : edits telegramId actions = [] := by
  induction actions using List.reverseRecOn with
  | nil => rfl
  | append_singleton past a ih =>
      rw [known_concat, not_or] at unknown
      have hrefused : ¬ (a.telegramId = telegramId ∧
          a.input.Accepted (Known telegramId past)) := by
        rintro ⟨hown, haccepted⟩
        cases haccepted.registers_or with
        | inl hregisters => exact unknown.2 ⟨hown, hregisters⟩
        | inr hknown => exact unknown.1 hknown
      rw [edits_concat, ih unknown.1, if_neg hrefused, List.append_nil]

/-- The profiles of the known owners. -/
def ownersAfter (actions : List Action) (telegramId : Int) : Option Profile :=
  if Known telegramId actions then some (profile telegramId actions) else none

theorem isSome_ownersAfter {actions : List Action} {telegramId : Int} :
    (ownersAfter actions telegramId).isSome = true ↔ Known telegramId actions := by
  rw [ownersAfter]
  split <;> simp_all

theorem getD_ownersAfter (actions : List Action) (telegramId : Int) :
    (ownersAfter actions telegramId).getD {} = profile telegramId actions := by
  rw [ownersAfter]
  split
  · rfl
  · next hunknown => rw [profile, edits_of_unknown hunknown]; rfl

theorem profile_concat (telegramId : Int) (past : List Action) (a : Action) :
    profile telegramId (past ++ [a]) =
      if a.telegramId = telegramId ∧ a.input.Accepted (Known telegramId past) then
        a.input.apply (profile telegramId past)
      else profile telegramId past := by
  rw [profile, edits_concat, List.foldl_append]
  split <;> rfl

theorem ownersAfter_concat (past : List Action) (a : Action) :
    ownersAfter (past ++ [a]) = Function.update (ownersAfter past) a.telegramId
      (ownerStep (ownersAfter past a.telegramId) a.input) := by
  funext telegramId
  by_cases hown : telegramId = a.telegramId
  · subst hown
    rw [Function.update_self]
    by_cases haccepted : a.input.Accepted (Known a.telegramId past)
    · have hknown : Known a.telegramId (past ++ [a]) :=
        known_concat.mpr (haccepted.registers_or.elim (fun h => .inr ⟨rfl, h⟩) .inl)
      rw [ownerStep_of_accepted (haccepted.mono isSome_ownersAfter.mpr), getD_ownersAfter,
        ownersAfter, if_pos hknown, profile_concat, if_pos ⟨rfl, haccepted⟩]
    · have hknown : Known a.telegramId (past ++ [a]) ↔ Known a.telegramId past := by
        rw [known_concat, or_iff_left_iff_imp]
        rintro ⟨-, hregisters⟩
        exact absurd (hregisters.mono False.elim) haccepted
      have hprofile : profile a.telegramId (past ++ [a]) = profile a.telegramId past := by
        rw [profile_concat, if_neg fun h => haccepted h.2]
      rw [ownerStep_of_refused fun h => haccepted (h.mono isSome_ownersAfter.mp)]
      simp only [ownersAfter, hknown, hprofile]
  · rw [Function.update_of_ne hown]
    have hother : a.telegramId ≠ telegramId := fun h => hown h.symm
    have hknown : Known telegramId (past ++ [a]) ↔ Known telegramId past := by
      rw [known_concat, or_iff_left fun h => hother h.1]
    have hprofile : profile telegramId (past ++ [a]) = profile telegramId past := by
      rw [profile_concat, if_neg fun h => hother h.1]
    simp only [ownersAfter, hknown, hprofile]

/-- Every sequence of actions goes through, and the database then holds the profiles. -/
theorem inv_of_actions (actions : List Action) :
    ∃ db, Transition.exec handle {} actions = some db ∧ Inv (ownersAfter actions) db := by
  induction actions using List.reverseRecOn with
  | nil => exact ⟨{}, rfl, inv_initial⟩
  | append_singleton past a ih =>
      obtain ⟨db, hrun, hinv⟩ := ih
      obtain ⟨db', hstep, hinv'⟩ := handle_spec hinv a
      refine ⟨db', Transition.exec_append_eq_some.mpr ⟨db, hrun, ?_⟩, ?_⟩
      · exact Transition.exec_cons_eq_some.mpr ⟨db', hstep, rfl⟩
      · rw [ownersAfter_concat]
        exact hinv'

/-! ## The settings that the userbot loads -/

theorem meButtons_foldl (inputs : List Input) :
    (inputs.foldl Input.apply {}).me.buttons = firstButtons (lastMeButtons inputs) := by
  induction inputs using List.reverseRecOn with
  | nil => rfl
  | append_singleton inputs input ih =>
      rw [List.foldl_append, lastMeButtons, List.foldl_append]
      cases input with
      | meButtons message => rfl
      | meClear => rfl
      | _ => exact ih

theorem arButtons_foldl (inputs : List Input) :
    (inputs.foldl Input.apply {}).ar.buttons = firstButtons (lastArButtons inputs) := by
  induction inputs using List.reverseRecOn with
  | nil => rfl
  | append_singleton inputs input ih =>
      rw [List.foldl_append, lastArButtons, List.foldl_append]
      cases input with
      | arButtons message => rfl
      | _ => exact ih

end UserTgBot.Settings
