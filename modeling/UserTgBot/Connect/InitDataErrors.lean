import UserTgBot.Connect.CompleteSession

/-!
# What `verify_init_data` raises

Its caller catches `ValueError` and answers 401. Each of the three checks is followed to the
inputs on which it raises something else: a hash that is not ASCII, which `compare_digest`
refuses, before any signature has been checked; and under a valid signature an `auth_date` too
large for a float, and a `user` that is JSON but no object or is nested too deeply.
-/

namespace UserTgBot.InitData

open PyText

universe u

variable {α : Type u} {β : Type u} {x : Except PyError α}

/-- What is raised, if anything, is a `ValueError`. -/
def ValueErrorOnly (x : Except PyError α) : Prop := ∀ e, x = .error e → e.isValueError = true

theorem valueErrorOnly_ok (a : α) : ValueErrorOnly (.ok a) := fun e h => by cases h

theorem valueErrorOnly_error_iff {e : PyError} :
    ValueErrorOnly (.error e : Except PyError α) ↔ e.isValueError = true := by
  constructor
  · intro h
    exact h e rfl
  · intro h e' he
    injection he with heq
    exact heq ▸ h

theorem valueErrorOnly_bind_iff {f : α → Except PyError β} :
    ValueErrorOnly (x >>= f) ↔ ValueErrorOnly x ∧ ∀ a, x = .ok a → ValueErrorOnly (f a) := by
  cases x with
  | error e =>
      change ValueErrorOnly (.error e) ↔ _
      rw [valueErrorOnly_error_iff, valueErrorOnly_error_iff]
      exact (and_iff_left fun a h => by cases h).symm
  | ok a =>
      change ValueErrorOnly (f a) ↔ _
      refine ⟨fun h => ⟨valueErrorOnly_ok a, fun b hb => ?_⟩, fun h => h.2 a rfl⟩
      injection hb with heq
      exact heq ▸ h

/-! ## The hash -/

/-- The tag that the fields should have under a bot token. -/
def tag (lib : Stdlib) (initData botToken : Text) : Except PyError Text :=
  expectedHash lib botToken (dataCheckString (checkedFields initData))

def receivedHash (initData : Text) : Text :=
  ((parseFields initData).lookup (text "hash")).getD []

/-- The hash field is the tag. -/
def Signed (lib : Stdlib) (initData botToken : Text) : Prop :=
  initData ≠ [] ∧ receivedHash initData ≠ [] ∧
    tag lib initData botToken = .ok (receivedHash initData)

section Checks

variable {lib : Stdlib} {now : ℚ} {initData botToken checkString expected : Text}
variable {maxAgeSeconds : Int} {fields : Dict}

theorem isAscii_hexdigest (digest : List UInt8) : (hexdigest digest).all isAscii = true := by
  have hdigit : ∀ n < 16, isAscii (ofChar (Nat.digitChar n)) = true := by decide
  refine List.all_eq_true.mpr fun c hc => ?_
  obtain ⟨b, -, hb⟩ := List.mem_flatMap.mp hc
  have hlt := b.toNat_lt
  obtain rfl | hc := List.mem_cons.mp hb
  · exact hdigit _ (by omega)
  · obtain rfl := List.mem_singleton.mp hc
    exact hdigit _ (by omega)

theorem encode_valueErrorOnly (s : Text) : ValueErrorOnly (encode s) := by
  intro e he
  rw [encode] at he
  cases hbytes : encodeUtf8 s with
  | some bytes =>
      rw [hbytes] at he
      cases he
  | none =>
      rw [hbytes] at he
      cases he
      rfl

theorem tag_valueErrorOnly : ValueErrorOnly (tag lib initData botToken) := by
  refine valueErrorOnly_bind_iff.mpr ⟨encode_valueErrorOnly _, fun botKey _ => ?_⟩
  exact valueErrorOnly_bind_iff.mpr ⟨encode_valueErrorOnly _, fun _ _ => valueErrorOnly_ok _⟩

theorem isAscii_tag (h : tag lib initData botToken = .ok expected) :
    expected.all isAscii = true := by
  rw [tag, expectedHash] at h
  cases hkey : encode botToken with
  | error e =>
      rw [hkey] at h
      cases h
  | ok botKey =>
      cases hmessage : encode (dataCheckString (checkedFields initData)) with
      | error e =>
          rw [hkey, hmessage] at h
          cases h
      | ok message =>
          rw [hkey, hmessage] at h
          cases h
          exact isAscii_hexdigest _

/-- `compare_digest` against a tag. -/
theorem compareDigest_tag (h : tag lib initData botToken = .ok expected) (received : Text) :
    compareDigest expected received =
      if received.all isAscii then .ok (expected = received) else .error .typeError := by
  simp [compareDigest, isAscii_tag h]

theorem checkHash_eq (hdata : initData ≠ []) (hhash : receivedHash initData ≠ []) :
    checkHash lib initData botToken = (do
      let expected ← tag lib initData botToken
      let same ← compareDigest expected (receivedHash initData)
      if same then .ok ()
      else .error (.valueError (text "initData signature does not match"))) := by
  rw [checkHash, if_neg hdata]
  exact if_neg hhash

theorem checkHash_valueErrorOnly_iff : ValueErrorOnly (checkHash lib initData botToken) ↔
    ∀ expected, tag lib initData botToken = .ok expected →
      (receivedHash initData).all isAscii = true := by
  by_cases hdata : initData = []
  · subst hdata
    refine iff_of_true (valueErrorOnly_error_iff.mpr rfl) fun _ _ => by decide
  · by_cases hhash : receivedHash initData = []
    · rw [checkHash, if_neg hdata]
      refine iff_of_true ?_ fun _ _ => by rw [hhash]; rfl
      change ValueErrorOnly (if receivedHash initData = [] then _ else _)
      rw [if_pos hhash]
      exact valueErrorOnly_error_iff.mpr rfl
    · rw [checkHash_eq hdata hhash, valueErrorOnly_bind_iff, and_iff_right tag_valueErrorOnly]
      refine forall_congr' fun expected => forall_congr' fun htag => ?_
      rw [compareDigest_tag htag, valueErrorOnly_bind_iff]
      cases hascii : (receivedHash initData).all isAscii with
      | false =>
          refine iff_of_false (fun h => ?_) Bool.false_ne_true
          exact Bool.false_ne_true (valueErrorOnly_error_iff.mp h.1)
      | true =>
          refine iff_of_true ⟨valueErrorOnly_ok _, fun same _ => ?_⟩ rfl
          cases same with
          | true => exact valueErrorOnly_ok _
          | false => exact valueErrorOnly_error_iff.mpr rfl

theorem checkHash_eq_ok_iff :
    checkHash lib initData botToken = .ok () ↔ Signed lib initData botToken := by
  by_cases hdata : initData = []
  · rw [checkHash, if_pos hdata]
    exact iff_of_false (fun h => by cases h) fun h => h.1 hdata
  · by_cases hhash : receivedHash initData = []
    · rw [checkHash, if_neg hdata]
      refine iff_of_false (fun h => ?_) fun h => h.2.1 hhash
      change (if receivedHash initData = [] then _ else _) = _ at h
      rw [if_pos hhash] at h
      cases h
    · rw [checkHash_eq hdata hhash, Signed, and_iff_right hdata, and_iff_right hhash]
      cases htag : tag lib initData botToken with
      | error e => exact iff_of_false (fun h => by cases h) fun h => by cases h
      | ok expected =>
          change (compareDigest expected _ >>= _) = _ ↔ _
          rw [compareDigest_tag htag]
          have hascii := isAscii_tag htag
          constructor
          · intro h
            split at h
            · change (if decide (expected = receivedHash initData) = true then _ else _) = _ at h
              split at h
              · rename_i heq
                rw [of_decide_eq_true heq]
              · cases h
            · cases h
          · intro h
            injection h with heq
            subst heq
            rw [if_pos hascii]
            exact if_pos (decide_eq_true rfl)

/-! ## The age -/

/-- The signature was made at that time, as far as the fields say. -/
def IssuedAt (fields : Dict) (issued : Nat) : Prop :=
  ∃ authDate, fields.lookup (text "auth_date") = some authDate ∧ isDigit authDate = true ∧
    intOfDigits authDate = some issued

theorem IssuedAt.unique {issued issued' : Nat} (h : IssuedAt fields issued)
    (h' : IssuedAt fields issued') : issued = issued' := by
  obtain ⟨authDate, hlookup, -, hissued⟩ := h
  obtain ⟨authDate', hlookup', -, hissued'⟩ := h'
  obtain rfl := Option.some.inj (hlookup.symm.trans hlookup')
  exact Option.some.inj (hissued.symm.trans hissued')

theorem checkAge_of_issuedAt (now : ℚ) (maxAgeSeconds : Int) {issued : Nat} (h : IssuedAt fields issued) :
    (floatOverflow ≤ issued ∧ checkAge now maxAgeSeconds fields = .error .overflowError) ∨
    (issued < floatOverflow ∧ maxAgeSeconds < now - issued ∧
      ∃ message, checkAge now maxAgeSeconds fields = .error (.valueError message)) ∨
    (issued < floatOverflow ∧ now - issued ≤ maxAgeSeconds ∧
      checkAge now maxAgeSeconds fields = .ok (now - issued)) := by
  obtain ⟨authDate, hlookup, hdigits, hissued⟩ := h
  have hne : ¬ (authDate = [] ∨ isDigit authDate = false) := by
    rintro (rfl | hdigits')
    · cases hdigits
    · rw [hdigits] at hdigits'
      cases hdigits'
  simp only [checkAge, hlookup, Option.getD_some, if_neg hne, hissued]
  by_cases hlarge : floatOverflow ≤ issued
  · exact .inl ⟨hlarge, if_pos hlarge⟩
  · have hsmall := Nat.lt_of_not_le hlarge
    rw [if_neg hlarge]
    by_cases hstale : maxAgeSeconds < now - issued
    · exact .inr (.inl ⟨hsmall, hstale, _, if_pos hstale⟩)
    · exact .inr (.inr ⟨hsmall, not_lt.mp hstale, if_neg hstale⟩)

/-- No usable `auth_date` is a `ValueError`. -/
theorem checkAge_of_not_issuedAt (now : ℚ) (maxAgeSeconds : Int)
    (h : ∀ issued, ¬ IssuedAt fields issued) :
    ∃ message, checkAge now maxAgeSeconds fields = .error (.valueError message) := by
  cases hlookup : fields.lookup (text "auth_date") with
  | none => exact ⟨_, by rw [checkAge, hlookup]; exact if_pos (.inl rfl)⟩
  | some authDate =>
      simp only [checkAge, hlookup, Option.getD_some]
      by_cases hbad : authDate = [] ∨ isDigit authDate = false
      · exact ⟨_, if_pos hbad⟩
      · rw [if_neg hbad]
        cases hissued : intOfDigits authDate with
        | none => exact ⟨_, rfl⟩
        | some issued =>
            have hdigits := eq_true_of_ne_false (not_or.mp hbad).2
            exact absurd ⟨authDate, hlookup, hdigits, hissued⟩ (h issued)

theorem checkAge_valueErrorOnly_iff : ValueErrorOnly (checkAge now maxAgeSeconds fields) ↔
    ∀ issued, IssuedAt fields issued → issued < floatOverflow := by
  by_cases h : ∃ issued, IssuedAt fields issued
  · obtain ⟨issued, hissued⟩ := h
    have hall : (∀ issued', IssuedAt fields issued' → issued' < floatOverflow) ↔
        issued < floatOverflow :=
      ⟨fun hall => hall issued hissued, fun hlt issued' h' => hissued.unique h' ▸ hlt⟩
    rw [hall]
    obtain ⟨hlarge, heq⟩ | ⟨hsmall, -, message, heq⟩ | ⟨hsmall, -, heq⟩ :=
      checkAge_of_issuedAt now maxAgeSeconds hissued
    · rw [heq, valueErrorOnly_error_iff]
      exact iff_of_false (fun h => by cases h) (Nat.not_lt.mpr hlarge)
    · rw [heq, valueErrorOnly_error_iff]
      exact iff_of_true rfl hsmall
    · rw [heq]
      exact iff_of_true (valueErrorOnly_ok _) hsmall
  · have hnone := not_exists.mp h
    obtain ⟨message, heq⟩ := checkAge_of_not_issuedAt now maxAgeSeconds hnone
    rw [heq, valueErrorOnly_error_iff]
    exact iff_of_true rfl fun issued hissued => absurd hissued (hnone issued)

/-- The signature is recent enough. -/
def Fresh (now : ℚ) (maxAgeSeconds : Int) (fields : Dict) : Prop :=
  ∃ issued, IssuedAt fields issued ∧ issued < floatOverflow ∧ now - issued ≤ maxAgeSeconds

theorem checkAge_eq_ok_iff : (∃ age, checkAge now maxAgeSeconds fields = .ok age) ↔
    Fresh now maxAgeSeconds fields := by
  constructor
  · rintro ⟨age, hage⟩
    obtain ⟨authDate, issued, hlookup, hdigits, hissued, -, -⟩ := checkAge_ok hage
    have hat : IssuedAt fields issued := ⟨authDate, hlookup, hdigits, hissued⟩
    obtain ⟨-, heq⟩ | ⟨-, -, message, heq⟩ | ⟨hsmall, hfresh, -⟩ :=
      checkAge_of_issuedAt now maxAgeSeconds hat
    · rw [heq] at hage
      cases hage
    · rw [heq] at hage
      cases hage
    · exact ⟨issued, hat, hsmall, hfresh⟩
  · rintro ⟨issued, hat, hsmall, hfresh⟩
    obtain ⟨hlarge, -⟩ | ⟨-, hstale, -⟩ | ⟨-, -, heq⟩ :=
      checkAge_of_issuedAt now maxAgeSeconds hat
    · omega
    · exact absurd hfresh (not_le.mpr hstale)
    · exact ⟨_, heq⟩

/-! ## The user -/

/-- `json.loads` gives an object, or refuses the text with a `ValueError`. -/
def ObjectOnly (loads : Text → Except LoadsError Json) (rawUser : Text) : Prop :=
  loads rawUser ≠ .error .recursionError ∧
    ∀ value, loads rawUser = .ok value → ∃ members, value = .object members

theorem readUser_valueErrorOnly_iff : ValueErrorOnly (readUser lib fields) ↔
    ∀ rawUser, fields.lookup (text "user") = some rawUser → rawUser ≠ [] →
      ObjectOnly lib.loads rawUser := by
  cases hlookup : fields.lookup (text "user") with
  | none =>
      have heq : readUser lib fields = .error (.valueError (text "initData has no user field")) := by
        rw [readUser, hlookup]
        rfl
      rw [heq, valueErrorOnly_error_iff]
      exact iff_of_true rfl fun _ h => by cases h
  | some rawUser =>
      by_cases hne : rawUser = []
      · have heq : readUser lib fields =
            .error (.valueError (text "initData has no user field")) := by
          rw [readUser, hlookup]
          exact if_pos hne
        rw [heq, valueErrorOnly_error_iff]
        exact iff_of_true rfl fun _ h hne' => absurd (Option.some.inj h ▸ hne) hne'
      · have hall : (∀ rawUser', some rawUser = some rawUser' → rawUser' ≠ [] →
            ObjectOnly lib.loads rawUser') ↔ ObjectOnly lib.loads rawUser :=
          ⟨fun h => h rawUser rfl hne, fun h _ heq _ => Option.some.inj heq ▸ h⟩
        rw [hall]
        simp only [ObjectOnly, readUser, hlookup, Option.getD_some, if_neg hne]
        cases lib.loads rawUser with
        | error e =>
            have hloaded : ∀ value, (.error e : Except LoadsError Json) = .ok value →
                ∃ members, value = .object members := fun _ h => by cases h
            rw [and_iff_left hloaded]
            cases e with
            | decodeError reason =>
                exact iff_of_true (valueErrorOnly_error_iff.mpr rfl) fun h => by cases h
            | valueError reason =>
                exact iff_of_true (valueErrorOnly_error_iff.mpr rfl) fun h => by cases h
            | recursionError =>
                exact iff_of_false (fun h => by cases valueErrorOnly_error_iff.mp h)
                  fun h => h rfl
        | ok value =>
            have hloaded : (.ok value : Except LoadsError Json) ≠ .error .recursionError :=
              fun h => by cases h
            rw [and_iff_right hloaded]
            by_cases hobject : ∃ members, value = .object members
            · refine iff_of_true ?_ fun _ h => Except.ok.inj h ▸ hobject
              obtain ⟨members, rfl⟩ := hobject
              dsimp only
              split
              · exact valueErrorOnly_error_iff.mpr rfl
              · exact valueErrorOnly_ok _
            · refine iff_of_false (fun h => ?_) fun h => hobject (h value rfl)
              split at h
              all_goals try contradiction
              · rename_i heq
                exact hobject ⟨_, Except.ok.inj heq⟩
              · cases valueErrorOnly_error_iff.mp h

/-! ## The whole function -/

theorem exists_tag_iff (lib : Stdlib) : (∃ expected, tag lib initData botToken = .ok expected) ↔
    (encodeUtf8 botToken).isSome = true ∧
      (encodeUtf8 (dataCheckString (checkedFields initData))).isSome = true := by
  rw [tag, expectedHash, encode, encode]
  cases hkey : encodeUtf8 botToken with
  | none => exact iff_of_false (fun ⟨_, h⟩ => by cases h) fun h => by cases h.1
  | some botKey =>
      cases hmessage : encodeUtf8 (dataCheckString (checkedFields initData)) with
      | none => exact iff_of_false (fun ⟨_, h⟩ => by cases h) fun h => by cases h.2
      | some message => exact iff_of_true ⟨_, rfl⟩ ⟨rfl, rfl⟩

/-- The inputs that get a user or a `ValueError`. -/
structure Answerable (lib : Stdlib) (now : ℚ) (initData botToken : Text)
    (maxAgeSeconds : Int) : Prop where
  /-- Unless a text with a surrogate stops the function first, the hash is ASCII. -/
  hash : (encodeUtf8 botToken).isSome = true →
    (encodeUtf8 (dataCheckString (checkedFields initData))).isSome = true →
      (receivedHash initData).all isAscii = true
  /-- A signed date converts to a float. -/
  authDate : Signed lib initData botToken → ∀ issued,
    IssuedAt (checkedFields initData) issued → issued < floatOverflow
  /-- A signed user is an object, or no JSON at all. -/
  user : Signed lib initData botToken → Fresh now maxAgeSeconds (checkedFields initData) →
    ∀ rawUser, (checkedFields initData).lookup (text "user") = some rawUser → rawUser ≠ [] →
      ObjectOnly lib.loads rawUser

theorem valueErrorOnly_iff_answerable (lib : Stdlib) (now : ℚ) (initData botToken : Text)
    (maxAgeSeconds : Int) :
    ValueErrorOnly (verifyInitData lib now initData botToken maxAgeSeconds) ↔
      Answerable lib now initData botToken maxAgeSeconds := by
  have hhash : ValueErrorOnly (checkHash lib initData botToken) ↔
      ((encodeUtf8 botToken).isSome = true →
        (encodeUtf8 (dataCheckString (checkedFields initData))).isSome = true →
          (receivedHash initData).all isAscii = true) := by
    rw [checkHash_valueErrorOnly_iff, ← and_imp, ← exists_tag_iff lib,
      forall_exists_index]
  have hrest : ValueErrorOnly (do
        let _ ← checkAge now maxAgeSeconds (checkedFields initData)
        readUser lib (checkedFields initData)) ↔
      (∀ issued, IssuedAt (checkedFields initData) issued → issued < floatOverflow) ∧
        (Fresh now maxAgeSeconds (checkedFields initData) → ∀ rawUser,
          (checkedFields initData).lookup (text "user") = some rawUser → rawUser ≠ [] →
            ObjectOnly lib.loads rawUser) := by
    rw [valueErrorOnly_bind_iff, checkAge_valueErrorOnly_iff, readUser_valueErrorOnly_iff,
      ← checkAge_eq_ok_iff, forall_exists_index]
  rw [verifyInitData, valueErrorOnly_bind_iff, hhash]
  constructor
  · rintro ⟨hascii, hsigned⟩
    have hparts : Signed lib initData botToken → _ :=
      fun hs => hrest.mp (hsigned () (checkHash_eq_ok_iff.mpr hs))
    exact ⟨hascii, fun hs => (hparts hs).1, fun hs => (hparts hs).2⟩
  · rintro ⟨hascii, hdate, huser⟩
    refine ⟨hascii, fun _ hok => hrest.mpr ?_⟩
    have hs : Signed lib initData botToken := checkHash_eq_ok_iff.mp hok
    exact ⟨hdate hs, huser hs⟩

end Checks

/-! ## The answer of `complete_session` -/

section Answer

open CompleteSession

variable (env : Env) (req : Nat → Request) (i : Nat) (now : ℚ)

/-- Wherever request `i` has found its token, bad `initData` ends it with status 401. -/
def AnsweredBy401 : Prop :=
  ∀ w row e, w.phase i = .found row →
    verifyInitData env.lib now (req i).payload.initData env.botToken maxAgeSeconds =
      .error e →
    step env req w ⟨i, .verify now⟩ = some (w.abort i (.refused 401))

theorem answeredBy401_iff : AnsweredBy401 env req i now ↔ ValueErrorOnly
    (verifyInitData env.lib now (req i).payload.initData env.botToken maxAgeSeconds) := by
  constructor
  · intro h e he
    let w := (start oneToken).advance i (start oneToken).db (.found issuedToken)
    have hfound : w.phase i = .found issuedToken := Function.update_self ..
    have hstep := h w issuedToken e hfound he
    simp only [step, hfound, he] at hstep
    have hphase := congrArg (fun w => w.phase i) (Option.some.inj hstep)
    simp only [World.abort, World.advance, Function.update_self] at hphase
    split at hphase
    · assumption
    · cases hphase
  · intro h w row e hfound he
    simp only [step, hfound, he, h e he, if_true]

/-- A text that is not accepted raises `ValueError`, and so gets status 401, exactly when it is
of none of the three kinds that raise something else. -/
theorem fails_closed_iff_answerable (lib : Stdlib) (initData botToken : Text) (maxAge : Int) :
    (ValueErrorOnly (verifyInitData lib now initData botToken maxAge) ↔
      Answerable lib now initData botToken maxAge) ∧
    (AnsweredBy401 env req i now ↔
      Answerable env.lib now (req i).payload.initData env.botToken maxAgeSeconds) :=
  ⟨valueErrorOnly_iff_answerable .., (answeredBy401_iff env req i now).trans
    (valueErrorOnly_iff_answerable ..)⟩

/-- A hash that is no ASCII is a `TypeError`, before any signature has been checked. -/
theorem accented_hash_typeError :
    verifyInitData genuineLib 0 (text "hash=%C3%A9") (text "1:x") 300 = .error .typeError ∧
      ¬ ValueErrorOnly (verifyInitData genuineLib 0 (text "hash=%C3%A9") (text "1:x") 300) := by
  have hhash : checkHash genuineLib (text "hash=%C3%A9") (text "1:x") = .error .typeError := by
    decide +kernel
  have hraised : verifyInitData genuineLib 0 (text "hash=%C3%A9") (text "1:x") 300 =
      .error .typeError := by
    simp only [verifyInitData, hhash, bind, Except.bind]
  exact ⟨hraised, fun h => Bool.false_ne_true (h _ hraised)⟩

end Answer

end UserTgBot.InitData
