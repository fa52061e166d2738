import Mathlib
import UserTgBot.Library.Lines
import UserTgBot.Library.PyText

/-!
# Verification of Mini App `initData`

`verifyInitData` follows `verify_init_data` of `shared/webapp_auth.py` check by check, with
every exception that can leave it. HMAC-SHA256 and `json.loads` are parameters; the rest of
Python's standard library that it uses is defined in `Library.PyText`.

The tag authenticates the joined lines of the fields and not the fields themselves, so a
genuine text can be presented again under another division into fields. What such a division
can do to `auth_date` and `user` is bounded by `Lines.value_of_joinEntries_eq`: a value may
swallow lines that follow it, nothing else. A swallowed line makes `auth_date` fail `isdigit`
and leaves `user` with trailing data, which `json.loads` refuses.
-/

namespace UserTgBot.InitData

open PyText

/-- A value returned by `json.loads`; a float is kept by its literal. -/
inductive Json where
  | null
  | bool (b : Bool)
  | int (n : Int)
  | float (literal : Text)
  | str (s : Text)
  | array (items : List Json)
  | object (members : List (Text × Json))

/-- The ways in which `json.loads` raises. -/
inductive LoadsError where
  | decodeError (reason : Text)
  | valueError (reason : Text)
  | recursionError

/-- Exceptions leaving `verify_init_data`. -/
inductive PyError where
  | valueError (message : Text)
  /-- A subclass of `ValueError`. -/
  | unicodeEncodeError
  | typeError
  | attributeError
  | overflowError
  | recursionError
deriving DecidableEq

/-- The exceptions that `except ValueError` catches. -/
def PyError.isValueError : PyError → Bool
  | .valueError _ => true
  | .unicodeEncodeError => true
  | _ => false

/-- The parts of the standard library that stay abstract. -/
structure Stdlib where
  /-- The digest for a key and a message. -/
  hmacSha256 : List UInt8 → List UInt8 → List UInt8
  loads : Text → Except LoadsError Json

/-- The value of the last member with that name, which is the one a `dict` keeps. -/
def Json.member? (members : List (Text × Json)) (name : Text) : Option Json :=
  (members.reverse.find? fun m => m.1 = name).map Prod.snd

/-- `isinstance(value, int)`, which a `bool` passes as well. -/
def Json.asInt? : Json → Option Int
  | .int n => some n
  | .bool b => some (if b then 1 else 0)
  | _ => none

structure WebAppUser where
  telegramId : Int
  username : Json
  firstName : Json
  lastName : Json

/-- `hexdigest()`. -/
def hexdigest (digest : List UInt8) : Text :=
  digest.flatMap fun b =>
    [ofChar (Nat.digitChar (b.toNat / 16)), ofChar (Nat.digitChar (b.toNat % 16))]

/-- All fields of the query string, the last value of a repeated one. -/
def parseFields (initData : Text) : Dict := Dict.ofPairs (parseQsl initData)

/-- The fields left after `fields.pop("hash", None)`. -/
def checkedFields (initData : Text) : Dict := (parseFields initData).erase (text "hash")

/-- The `k=v` lines in the order of their keys. -/
def sortedEntries (fields : Dict) : List (Text × Text) :=
  (fields.keys.insertionSort (· ≤ ·)).map fun k => (k, (fields.lookup k).getD [])

def dataCheckString (fields : Dict) : Text :=
  Lines.joinEntries (ofChar '\n') (ofChar '=') (sortedEntries fields)

def encode (s : Text) : Except PyError (List UInt8) :=
  match encodeUtf8 s with
  | some bytes => .ok bytes
  | none => .error .unicodeEncodeError

/-- The tag of a check string under a bot token. -/
def expectedHash (lib : Stdlib) (botToken checkString : Text) : Except PyError Text := do
  let botKey ← encode botToken
  let secretKey := lib.hmacSha256 ("WebAppData".toList.map fun c => .ofNat c.toNat) botKey
  let message ← encode checkString
  return hexdigest (lib.hmacSha256 secretKey message)

/-- `hmac.compare_digest` on strings, which have to be ASCII. -/
def compareDigest (expected received : Text) : Except PyError Bool :=
  if expected.all isAscii ∧ received.all isAscii then .ok (expected = received)
  else .error .typeError

/-- Integers from here on do not convert to a float. -/
def floatOverflow : Nat := 2 ^ 1024 - 2 ^ 970

/-- The age of the signature, at most `maxAgeSeconds`. -/
def checkAge (now : ℚ) (maxAgeSeconds : Int) (fields : Dict) : Except PyError ℚ :=
  let authDate := (fields.lookup (text "auth_date")).getD []
  if authDate = [] ∨ isDigit authDate = false then
    .error (.valueError (text "initData has no usable auth_date"))
  else match intOfDigits authDate with
    | none => .error (.valueError (text "invalid literal for int() with base 10"))
    | some issued =>
        if floatOverflow ≤ issued then .error .overflowError
        else
          let age := now - issued
          if maxAgeSeconds < age then
            let shown := age.num.tdiv age.den
            .error (.valueError
              (text s!"initData is stale ({shown}s old, max {maxAgeSeconds}s)"))
          else .ok age

/-- The user named by the `user` field. -/
def readUser (lib : Stdlib) (fields : Dict) : Except PyError WebAppUser :=
  let rawUser := (fields.lookup (text "user")).getD []
  if rawUser = [] then .error (.valueError (text "initData has no user field"))
  else match lib.loads rawUser with
    | .error (.decodeError reason) =>
        .error (.valueError (text "initData user is not valid JSON: " ++ reason))
    | .error (.valueError reason) => .error (.valueError reason)
    | .error .recursionError => .error .recursionError
    | .ok (.object members) =>
        match (Json.member? members (text "id")).bind Json.asInt? with
        | none => .error (.valueError (text "initData user has no integer id"))
        | some telegramId => .ok {
            telegramId
            username := (Json.member? members (text "username")).getD .null
            firstName := (Json.member? members (text "first_name")).getD .null
            lastName := (Json.member? members (text "last_name")).getD .null }
    -- Only a `dict` has the method `get`.
    | .ok _ => .error .attributeError

/-- Steps 1 and 2 of the function: the tag has to match. -/
def checkHash (lib : Stdlib) (initData botToken : Text) : Except PyError Unit := do
  if initData = [] then .error (.valueError (text "initData is empty"))
  else
    let receivedHash := ((parseFields initData).lookup (text "hash")).getD []
    if receivedHash = [] then .error (.valueError (text "initData has no hash field"))
    else
      let expected ← expectedHash lib botToken (dataCheckString (checkedFields initData))
      let same ← compareDigest expected receivedHash
      if same then .ok ()
      else .error (.valueError (text "initData signature does not match"))

/-- `verify_init_data`; `now` is `time.time()`. -/
def verifyInitData (lib : Stdlib) (now : ℚ) (initData botToken : Text)
    (maxAgeSeconds : Int) : Except PyError WebAppUser := do
  checkHash lib initData botToken
  let _ ← checkAge now maxAgeSeconds (checkedFields initData)
  readUser lib (checkedFields initData)

/-! ## What an accepted text has passed -/

theorem verifyInitData_ok {lib : Stdlib} {now : ℚ} {initData botToken : Text}
    {maxAgeSeconds : Int} {user : WebAppUser}
    (h : verifyInitData lib now initData botToken maxAgeSeconds = .ok user) :
    checkHash lib initData botToken = .ok () ∧
      (∃ age, checkAge now maxAgeSeconds (checkedFields initData) = .ok age) ∧
        readUser lib (checkedFields initData) = .ok user := by
  rw [verifyInitData] at h
  cases hhash : checkHash lib initData botToken with
  | error e => simp [hhash, bind, Except.bind] at h
  | ok u =>
      cases hage : checkAge now maxAgeSeconds (checkedFields initData) with
      | error e => simp [hhash, hage, bind, Except.bind] at h
      | ok age =>
          refine ⟨rfl, ⟨age, rfl⟩, ?_⟩
          simpa [hhash, hage, bind, Except.bind] using h

theorem checkAge_ok {now age : ℚ} {maxAgeSeconds : Int} {fields : Dict}
    (h : checkAge now maxAgeSeconds fields = .ok age) :
    ∃ authDate issued, fields.lookup (text "auth_date") = some authDate ∧
      isDigit authDate = true ∧ intOfDigits authDate = some issued ∧ age = now - issued ∧
        age ≤ maxAgeSeconds := by
  rw [checkAge] at h
  cases hlookup : fields.lookup (text "auth_date") with
  | none => simp [hlookup] at h
  | some authDate =>
      simp only [hlookup, Option.getD_some] at h
      split at h
      · cases h
      · rename_i hdigits
        obtain ⟨-, hdigits⟩ := not_or.mp hdigits
        split at h
        · cases h
        · rename_i issued hissued
          split at h
          · cases h
          · split at h
            · cases h
            · rename_i hfresh
              cases h
              exact ⟨authDate, issued, rfl, by simpa using hdigits, hissued, rfl,
                not_lt.mp hfresh⟩

theorem readUser_ok {lib : Stdlib} {fields : Dict} {user : WebAppUser}
    (h : readUser lib fields = .ok user) :
    ∃ rawUser members, fields.lookup (text "user") = some rawUser ∧
      lib.loads rawUser = .ok (.object members) ∧
        (Json.member? members (text "id")).bind Json.asInt? = some user.telegramId := by
  rw [readUser] at h
  cases hlookup : fields.lookup (text "user") with
  | none => simp [hlookup] at h
  | some rawUser =>
      simp only [hlookup, Option.getD_some] at h
      split at h
      · cases h
      · split at h
        · cases h
        · cases h
        · cases h
        · rename_i members hloads
          split at h
          · cases h
          · rename_i telegramId hid
            cases h
            exact ⟨rawUser, members, rfl, hloads, hid⟩
        · cases h

theorem mem_sortedEntries {fields : Dict} {key value : Text} :
    (key, value) ∈ sortedEntries fields ↔ fields.lookup key = some value := by
  have hkeys : ∀ k, k ∈ fields.keys.insertionSort (· ≤ ·) ↔ (fields.lookup k).isSome := by
    intro k
    rw [List.mem_insertionSort, ← AList.mem_keys, ← AList.lookup_isSome]
  constructor
  · intro h
    obtain ⟨k, hk, heq⟩ := List.mem_map.mp h
    obtain ⟨rfl, rfl⟩ := Prod.mk.inj heq
    obtain ⟨value, hvalue⟩ := Option.isSome_iff_exists.mp ((hkeys k).mp hk)
    rw [hvalue, Option.getD_some]
  · intro h
    refine List.mem_map.mpr ⟨key, (hkeys key).mpr (by simp [h]), by simp [h]⟩

theorem newline_not_mem_of_isDigit {s : Text} (h : isDigit s = true) : ofChar '\n' ∉ s := by
  intro hmem
  have hall : s.all isDigitChar = true := (Bool.and_eq_true_iff.mp h).2
  have hnl : isDigitChar (ofChar '\n') = true := List.all_eq_true.mp hall _ hmem
  exact absurd hnl (by decide)

/-! ## Re-splitting -/

/-- White space between JSON tokens. -/
def isJsonSpace (c : CodePoint) : Bool :=
  c = ofChar ' ' || c = ofChar '\t' || c = ofChar '\n' || c = ofChar '\r'

/-- Text after a complete object is an error, unless it is blank. -/
def RejectsTrailing (loads : Text → Except LoadsError Json) : Prop :=
  ∀ complete members rest, loads complete = .ok (.object members) →
    (∃ c ∈ rest, isJsonSpace c = false) → ∃ e, loads (complete ++ rest) = .error e

/-- A field map as Telegram signs it. -/
structure SignedFields (loads : Text → Except LoadsError Json) where
  fields : Dict
  newlineFree : ∀ key value, fields.lookup key = some value →
    ofChar '\n' ∉ key ∧ ofChar '\n' ∉ value
  equalsFree : ∀ key value, fields.lookup key = some value → ofChar '=' ∉ key
  noHash : text "hash" ∉ fields
  authDate : Text
  hasAuthDate : fields.lookup (text "auth_date") = some authDate
  decimal : authDate ≠ [] ∧ ∀ c ∈ authDate, (decimalValue c).isSome
  user : Text
  hasUser : fields.lookup (text "user") = some user
  members : List (Text × Json)
  complete : loads user = .ok (.object members)
  telegramId : Int
  hasId : (Json.member? members (text "id")).bind Json.asInt? = some telegramId

/-- A value of a re-split map under a plain key is the signed one, or the signed one
followed by a newline and something with an equals sign. -/
theorem value_of_dataCheckString_eq {loads : Text → Except LoadsError Json} {fields : Dict}
    {S : SignedFields loads} {key value signed : Text}
    (same : dataCheckString fields = dataCheckString S.fields)
    (hkeyNl : ofChar '\n' ∉ key) (hkeyEq : ofChar '=' ∉ key)
    (hvalue : fields.lookup key = some value) (hsigned : S.fields.lookup key = some signed) :
    value = signed ∨
      ∃ rest, value = signed ++ ofChar '\n' :: rest ∧ ofChar '=' ∈ rest := by
  have hnl : ∀ field ∈ sortedEntries S.fields,
      ofChar '\n' ∉ field.1 ∧ ofChar '\n' ∉ field.2 :=
    fun field hfield => S.newlineFree field.1 field.2 (mem_sortedEntries.mp hfield)
  have heq : ∀ field ∈ sortedEntries S.fields, ofChar '=' ∉ field.1 :=
    fun field hfield => S.equalsFree field.1 field.2 (mem_sortedEntries.mp hfield)
  have hne : sortedEntries S.fields ≠ [] :=
    List.ne_nil_of_mem (mem_sortedEntries.mpr S.hasUser)
  obtain ⟨value', hmem, hshape⟩ := Lines.value_of_joinEntries_eq hnl heq hne (by decide)
    hkeyNl hkeyEq same (mem_sortedEntries.mpr hvalue)
  obtain rfl : value' = signed :=
    Option.some.inj ((mem_sortedEntries.mp hmem).symm.trans hsigned)
  exact hshape

/-- Let the tag check pass only for check strings of maps that Telegram signed. Then an
accepted `initData`, however it is encoded and divided into fields, has the `auth_date` and
the `user` of a signed map, its user is the signed one, and the age that was checked is the
age of that signature. -/
theorem verifyInitData_authentic (lib : Stdlib) (now : ℚ) (initData botToken : Text)
    (maxAgeSeconds : Int) (user : WebAppUser) (Signed : SignedFields lib.loads → Prop)
    (trailing : RejectsTrailing lib.loads)
    (unforgeable : checkHash lib initData botToken = .ok () →
      ∃ S, Signed S ∧ dataCheckString (checkedFields initData) = dataCheckString S.fields)
    (accepted : verifyInitData lib now initData botToken maxAgeSeconds = .ok user) :
    ∃ S, Signed S ∧
      (checkedFields initData).lookup (text "auth_date") = some S.authDate ∧
      (checkedFields initData).lookup (text "user") = some S.user ∧
      user.telegramId = S.telegramId ∧
      ∃ issued : Nat, intOfDigits S.authDate = some issued ∧
        checkAge now maxAgeSeconds (checkedFields initData) = .ok (now - issued) ∧
        now - issued ≤ maxAgeSeconds := by
  obtain ⟨hhash, ⟨age, hage⟩, huser⟩ := verifyInitData_ok accepted
  obtain ⟨S, hsigned, same⟩ := unforgeable hhash
  obtain ⟨authDate, issued, hauthDate, hdigits, hissued, rfl, hfresh⟩ := checkAge_ok hage
  obtain ⟨rawUser, members, hrawUser, hloads, hid⟩ := readUser_ok huser
  have hauth : authDate = S.authDate := by
    rcases value_of_dataCheckString_eq same (by decide) (by decide) hauthDate S.hasAuthDate
      with heq | ⟨rest, hrest, _⟩
    · exact heq
    · exact absurd (by simp [hrest]) (newline_not_mem_of_isDigit hdigits)
  have hraw : rawUser = S.user := by
    rcases value_of_dataCheckString_eq same (by decide) (by decide) hrawUser S.hasUser
      with heq | ⟨rest, hrest, hequals⟩
    · exact heq
    · obtain ⟨e, he⟩ := trailing S.user S.members (ofChar '\n' :: rest) S.complete
        ⟨ofChar '=', List.mem_cons_of_mem _ hequals, by decide⟩
      rw [hrest, he] at hloads
      cases hloads
  subst hauth hraw
  have hmembers : members = S.members := by
    have hboth := hloads.symm.trans S.complete
    cases hboth
    rfl
  have htelegramId : user.telegramId = S.telegramId := by
    rw [hmembers, S.hasId] at hid
    exact (Option.some.inj hid).symm
  exact ⟨S, hsigned, hauthDate, hrawUser, htelegramId, issued, hissued, hage, hfresh⟩

/-! A genuine `initData` of the bot with token `1:x`, signed for the user with id 7. -/

def genuineUser : Text := text "\x7b\"id\":7\x7d"

def genuineInitData : Text :=
  text "auth_date=5&user=%7B%22id%22%3A7%7D&hash=" ++
    text "61a0616d46b9623052a622814643f3a3950898db6990d48e7b41f93a5ef6e231"

def genuineSecretKey : List UInt8 :=
  [188, 220, 109, 255, 236, 91, 19, 161, 43, 1, 110, 23, 244, 251, 100, 169, 46, 149, 248,
   212, 21, 210, 161, 97, 147, 54, 164, 201, 83, 60, 100, 43]

def genuineDigest : List UInt8 :=
  [97, 160, 97, 109, 70, 185, 98, 48, 82, 166, 34, 129, 70, 67, 243, 163, 149, 8, 152, 219,
   105, 144, 212, 142, 123, 65, 249, 58, 94, 246, 226, 49]

/-- The library on the arguments it gets for the genuine `initData`. -/
def genuineLib : Stdlib where
  hmacSha256 key _ := if key = genuineSecretKey then genuineDigest else genuineSecretKey
  loads s := if s = genuineUser then .ok (.object [(text "id", .int 7)])
    else .error (.decodeError (text "Expecting value"))

def genuineFields : Dict :=
  Dict.ofPairs [(text "auth_date", text "5"), (text "user", genuineUser)]

theorem genuineFields_plain : ∀ field ∈ sortedEntries genuineFields,
    (ofChar '\n' ∉ field.1 ∧ ofChar '\n' ∉ field.2) ∧ ofChar '=' ∉ field.1 := by
  decide

def genuineSigned : SignedFields genuineLib.loads where
  fields := genuineFields
  newlineFree _ _ h := (genuineFields_plain _ (mem_sortedEntries.mpr h)).1
  equalsFree _ _ h := (genuineFields_plain _ (mem_sortedEntries.mpr h)).2
  noHash := by decide
  authDate := text "5"
  hasAuthDate := by decide
  decimal := ⟨by decide, List.all_eq_true.mp (by decide)⟩
  user := genuineUser
  hasUser := by decide
  members := [(text "id", .int 7)]
  complete := by simp [genuineLib]
  telegramId := 7
  hasId := by decide

theorem genuineLib_rejectsTrailing : RejectsTrailing genuineLib.loads := by
  intro complete members rest hcomplete hrest
  obtain ⟨c, hc, _⟩ := hrest
  have huser : complete = genuineUser := by
    by_contra hne
    simp [genuineLib, hne] at hcomplete
  have hlonger : complete ++ rest ≠ genuineUser := by
    rw [huser]
    simpa using List.ne_nil_of_mem hc
  exact ⟨.decodeError (text "Expecting value"), by simp [genuineLib, hlonger]⟩

theorem genuine_accepted : ∃ user,
    verifyInitData genuineLib 6 genuineInitData (text "1:x") 300 = .ok user := by
  have hhash : checkHash genuineLib genuineInitData (text "1:x") = .ok () := by decide
  have hage : (checkAge 6 300 (checkedFields genuineInitData)).toOption = some 1 := by
    decide +kernel
  cases hchecked : checkAge 6 300 (checkedFields genuineInitData) with
  | error e => simp [hchecked, Except.toOption] at hage
  | ok age =>
      refine ⟨⟨7, .null, .null, .null⟩, ?_⟩
      simp only [verifyInitData, hhash, hchecked, bind, Except.bind]
      rfl

/-- The genuine `initData` is accepted, and what it was used for is what was signed. -/
theorem genuine_authentic : ∃ (user : WebAppUser) (S : SignedFields genuineLib.loads),
    S.telegramId = 7 ∧
      verifyInitData genuineLib 6 genuineInitData (text "1:x") 300 = .ok user ∧
        (checkedFields genuineInitData).lookup (text "user") = some S.user ∧
          user.telegramId = S.telegramId := by
  obtain ⟨user, haccepted⟩ := genuine_accepted
  have hsame : dataCheckString (checkedFields genuineInitData) =
      dataCheckString genuineSigned.fields := by decide
  obtain ⟨S, rfl, -, huser, hid, -⟩ := verifyInitData_authentic genuineLib 6 genuineInitData
    (text "1:x") 300 user (· = genuineSigned) genuineLib_rejectsTrailing
    (fun _ => ⟨genuineSigned, rfl, hsame⟩) haccepted
  exact ⟨user, genuineSigned, rfl, haccepted, huser, hid⟩

end UserTgBot.InitData
