import UserTgBot.I18n.Texts
import UserTgBot.Library.Html
import UserTgBot.Library.PyInt
import UserTgBot.Settings.Edits

/-!
# Notices and cards

`userbot/formatting.py` makes HTML of texts that others wrote. Each of its functions is stated
twice: as the string that the code puts together, and as the tags and characters that it is
about. The strings are the rendered forms of the latter, so that they are read back as
these and nothing in a text becomes markup.
-/

namespace UserTgBot.Formatting

open PyText Html I18n
open Settings (LinkButton MeCard)

/-- The tags and references of the messenger. -/
def telegramHtml : Dialect where
  entity name :=
    [(text "amp", ofChar '&'), (text "lt", ofChar '<'), (text "gt", ofChar '>'),
      (text "quot", ofChar '"')].lookup name
  tag name :=
    [text "b", text "strong", text "i", text "em", text "u", text "ins", text "s",
      text "strike", text "del", text "span", text "tg-spoiler", text "a", text "tg-emoji",
      text "code", text "pre", text "blockquote"].contains name
  amp := by decide
  lt := by decide
  gt := by decide
  quot := by decide
  bold := by decide
  code := by decide
  link := by decide

/-! ## The strings -/

/-- `s.replace(old, new)` for one character. -/
def replaceChar (s : Text) (old : CodePoint) (new : Text) : Text :=
  s.flatMap fun c => if c = old then new else [c]

/-- An optional text where the code tests whether there is one: an empty one is none. -/
def given (s : Option Text) : Option Text := s.filter fun s => !s.isEmpty

/-- `_esc_attr`. -/
def escAttr (url : Text) : Text :=
  replaceChar (replaceChar url (ofChar '&') (text "&amp;")) (ofChar '"') (text "&quot;")

/-- `_esc`. -/
def esc (s : Option Text) : Text :=
  match given s with
  | none => []
  | some s =>
      replaceChar (replaceChar (replaceChar s (ofChar '&') (text "&amp;"))
        (ofChar '<') (text "&lt;")) (ofChar '>') (text "&gt;")

/-- An id in an f-string. -/
def idText : Option Int → Text
  | some id => strOfInt id
  | none => text "None"

def entityRef (entityId : Option Int) (username name : Option Text) (lang : Language) : Text :=
  match given username, given name with
  | some username, _ => text "@" ++ username
  | none, some name =>
      text "<a href=\"tg://user?id=" ++ idText entityId ++ text "\">" ++ esc (some name) ++
        text "</a>"
  | none, none =>
      match entityId.filter (· ≠ 0) with
      | some id => text "<code>" ++ strOfInt id ++ text "</code>"
      | none => t lang .unknown

def formatDeletedNotice (chatRef senderRef s : Text) (lang : Language) : Text :=
  t lang .noteDeleted ++ text "\n" ++ t lang .noteChat ++ text ": " ++ chatRef ++ text "\n" ++
    t lang .noteFrom ++ text ": " ++ senderRef ++ text "\n\n" ++ esc (some s)

def formatEditedNotice (chatRef senderRef previous new : Text) (lang : Language) : Text :=
  t lang .noteEdited ++ text "\n" ++ t lang .noteChat ++ text ": " ++ chatRef ++ text "\n" ++
    t lang .noteFrom ++ text ": " ++ senderRef ++ text "\n\n" ++
    t lang .noteWas ++ text ":\n" ++ esc (some previous) ++ text "\n\n" ++
    t lang .noteNow ++ text ":\n" ++ esc (some new)

def formatAutoresponderNotice (senderRef s : Text) (lang : Language) : Text :=
  t lang .noteArFired ++ text "\n" ++ t lang .noteFrom ++ text ": " ++ senderRef ++
    text "\n\n" ++ t lang .noteIncoming ++ text ":\n" ++ esc (some s)

structure TargetInfo where
  entityId : Int
  isChat : Bool
  titleOrName : Text
  username : Option Text := none
  isPremium : Bool := false
  isVerified : Bool := false
  isBot : Bool := false
  membersCount : Option Int := none
  bio : Option Text := none
  phone : Option Text := none
deriving DecidableEq, Repr

/-- The badges of a user. -/
def TargetInfo.badges (info : TargetInfo) : Text :=
  (if info.isPremium then text "⭐️" else []) ++ (if info.isVerified then text "✅" else []) ++
    (if info.isBot then text "🤖" else [])

/-- `s.lstrip('+')`. -/
def lstripPlus (s : Text) : Text := s.dropWhile (· = ofChar '+')

/-- The lines of `format_target_info`. -/
def targetInfoLines (info : TargetInfo) (lang : Language) : List Text :=
  if info.isChat then
    [text "💬 <b>" ++ esc (some info.titleOrName) ++ text "</b>",
      text "🆔 <code>" ++ strOfInt info.entityId ++ text "</code>"] ++
    ((given info.username).map fun username => text "🔗 @" ++ username).toList ++
    (info.membersCount.map fun count => tFormat lang .ubInfoMembers (strOfInt count)).toList
  else
    let name := esc (some info.titleOrName) ++
      if info.badges ≠ [] then text " " ++ info.badges else []
    [text "👤 <b>" ++ name ++ text "</b>",
      text "🆔 <code>" ++ strOfInt info.entityId ++ text "</code>",
      match given info.username with
      | some username => text "🔗 @" ++ username
      | none => t lang .ubInfoNoUsername] ++
    ((given info.phone).map fun phone => text "📱 +" ++ lstripPlus phone).toList ++
    [t lang (if info.isPremium then .ubInfoPremium else .ubInfoNoPremium)] ++
    ((given info.bio).map fun bio => text "📝 " ++ esc (some bio)).toList

def formatTargetInfo (info : TargetInfo) (lang : Language) : Text :=
  (text "\n").intercalate (targetInfoLines info lang)

/-- A link as it stands in cards and below texts. -/
def linkLine (url label : Text) : Text :=
  text "🔗 <a href=\"" ++ escAttr url ++ text "\">" ++ esc (some label) ++ text "</a>"

def buildMeCard (card : MeCard) : Text × List LinkButton :=
  let body := if card.text ≠ [] then esc (some card.text) else []
  let body := match given card.link with
    | some link =>
        if body ≠ [] then body ++ text "\n" ++ linkLine link link else linkLine link link
    | none => body
  (strip body, card.buttons)

def formatLinkButtons (buttons : List LinkButton) : Text :=
  (text "\n").intercalate (buttons.map fun b => linkLine b.url b.text)

/-- What `_do_me` sends for a card. -/
def meMessage (card : MeCard) : Text :=
  let (body, buttons) := buildMeCard card
  if buttons ≠ [] then
    if body ≠ [] then body ++ text "\n\n" ++ formatLinkButtons buttons
    else formatLinkButtons buttons
  else body

/-! ## What they are about -/

/-- A text like `🗑 <b>Deleted message</b>`: words in bold after an emoji. -/
def heading (row : Text) : List Token :=
  chars (row.takeWhile (· ≠ ofChar '<')) ++
    element (text "b") []
      (chars (((row.dropWhile (· ≠ ofChar '>')).drop 1).takeWhile (· ≠ ofChar '<')))

/-- A link with its address. -/
def anchor (url label : Text) : List Token :=
  element (text "a") [(text "href", url)] (chars label)

/-- A letter, a digit or an underscore. -/
def isUsernameChar (c : CodePoint) : Bool :=
  (0x30 ≤ c.val && c.val ≤ 0x39) || (0x41 ≤ c.val && c.val ≤ 0x5a) ||
    (0x61 ≤ c.val && c.val ≤ 0x7a) || c = ofChar '_'

/-- Whom a notice refers to, as `entity_ref` is told. -/
structure Entity where
  id : Option Int
  username : Option Text := none
  name : Option Text := none
  usernameChars : ∀ username' ∈ username, ∀ c ∈ username', isUsernameChar c = true

namespace Entity

def ref (e : Entity) (lang : Language) : Text := entityRef e.id e.username e.name lang

def tokens (e : Entity) (lang : Language) : List Token :=
  match given e.username, given e.name with
  | some username, _ => chars (text "@" ++ username)
  | none, some name => anchor (text "tg://user?id=" ++ idText e.id) name
  | none, none =>
      match e.id.filter (· ≠ 0) with
      | some id => element (text "code") [] (chars (strOfInt id))
      | none => chars (t lang .unknown)

/-- The tags around a reference; they depend on which fields there are. -/
def shape (e : Entity) : List (Bool × Text) :=
  match given e.username, given e.name with
  | some _, _ => []
  | none, some _ => [(false, text "a"), (true, text "a")]
  | none, none =>
      if e.id.any (· ≠ 0) then [(false, text "code"), (true, text "code")] else []

end Entity

section Notices

variable (lang : Language) (chat sender : Entity)

def deletedNotice (s : Text) : List Token :=
  heading (t lang .noteDeleted) ++ chars (text "\n" ++ t lang .noteChat ++ text ": ") ++
    chat.tokens lang ++ chars (text "\n" ++ t lang .noteFrom ++ text ": ") ++
    sender.tokens lang ++ chars (text "\n\n" ++ s)

def editedNotice (previous new : Text) : List Token :=
  heading (t lang .noteEdited) ++ chars (text "\n" ++ t lang .noteChat ++ text ": ") ++
    chat.tokens lang ++ chars (text "\n" ++ t lang .noteFrom ++ text ": ") ++
    sender.tokens lang ++
    chars (text "\n\n" ++ t lang .noteWas ++ text ":\n" ++ previous ++
      text "\n\n" ++ t lang .noteNow ++ text ":\n" ++ new)

def autoresponderNotice (s : Text) : List Token :=
  heading (t lang .noteArFired) ++ chars (text "\n" ++ t lang .noteFrom ++ text ": ") ++
    sender.tokens lang ++ chars (text "\n\n" ++ t lang .noteIncoming ++ text ":\n" ++ s)

end Notices

/-- The lines about a user or a chat. -/
def targetInfoTokens (info : TargetInfo) (lang : Language) : List (List Token) :=
  let code := chars (text "🆔 ") ++
    element (text "code") [] (chars (strOfInt info.entityId))
  if info.isChat then
    [chars (text "💬 ") ++ element (text "b") [] (chars info.titleOrName), code] ++
    ((given info.username).map fun username => chars (text "🔗 @" ++ username)).toList ++
    (info.membersCount.map fun count =>
      chars (tFormat lang .ubInfoMembers (strOfInt count))).toList
  else
    let name := info.titleOrName ++ if info.badges ≠ [] then text " " ++ info.badges else []
    [chars (text "👤 ") ++ element (text "b") [] (chars name), code,
      match given info.username with
      | some username => chars (text "🔗 @" ++ username)
      | none => chars (t lang .ubInfoNoUsername)] ++
    ((given info.phone).map fun phone => chars (text "📱 +" ++ phone)).toList ++
    [chars (t lang (if info.isPremium then .ubInfoPremium else .ubInfoNoPremium))] ++
    ((given info.bio).map fun bio => chars (text "📝 " ++ bio)).toList

def targetInfo (info : TargetInfo) (lang : Language) : List Token :=
  (chars (text "\n")).intercalate (targetInfoTokens info lang)

def linkTokens (url label : Text) : List Token := chars (text "🔗 ") ++ anchor url label

/-- The parts of a message that there are, with `sep` in between. -/
def joined (sep : Text) (parts : List (List Token)) : List Token :=
  (chars sep).intercalate (parts.filter (!·.isEmpty))

def linkButtons (buttons : List LinkButton) : List Token :=
  (chars (text "\n")).intercalate (buttons.map fun b => linkTokens b.url b.text)

/-- The message for a card: its text and its link, then the buttons. -/
def meCard (card : MeCard) : List Token :=
  joined (text "\n\n")
    [joined (text "\n")
      [chars card.text, ((given card.link).map fun link => linkTokens link link).getD []],
     linkButtons card.buttons]

/-! ## Escaping once -/

theorem replaceChar_flatMap (s : Text) (f : CodePoint → Text) (old : CodePoint) (new : Text) :
    replaceChar (s.flatMap f) old new = s.flatMap fun c => replaceChar (f c) old new :=
  List.flatMap_assoc

/-- The `&` goes first, so that those of the references stay. -/
theorem esc_some (s : Text) : esc (some s) = escape s := by
  have hchar : ∀ c : CodePoint,
      replaceChar (replaceChar (if c = ofChar '&' then text "&amp;" else [c])
        (ofChar '<') (text "&lt;")) (ofChar '>') (text "&gt;") = escapeChar c := by
    intro c
    rw [escapeChar]
    by_cases hamp : c = ofChar '&'
    · rw [if_pos hamp, if_pos hamp]
      decide
    by_cases hlt : c = ofChar '<'
    · rw [if_neg hamp, if_neg hamp, if_pos hlt, hlt]
      decide
    by_cases hgt : c = ofChar '>'
    · rw [if_neg hamp, if_neg hamp, if_neg hlt, if_pos hgt, hgt]
      decide
    · simp [replaceChar, hamp, hlt, hgt]
  cases s with
  | nil => rfl
  | cons c s =>
      have hamp : replaceChar (c :: s) (ofChar '&') (text "&amp;") =
          (c :: s).flatMap fun c => if c = ofChar '&' then text "&amp;" else [c] := rfl
      show replaceChar (replaceChar (replaceChar (c :: s) _ _) _ _) _ _ = _
      rw [hamp, replaceChar_flatMap, replaceChar_flatMap, escape]
      exact List.flatMap_congr fun c _ => hchar c

theorem escAttr_eq (url : Text) : escAttr url = escapeAttr url := by
  have hchar : ∀ c : CodePoint,
      replaceChar (if c = ofChar '&' then text "&amp;" else [c]) (ofChar '"') (text "&quot;") =
        escapeAttrChar c := by
    intro c
    rw [escapeAttrChar]
    by_cases hamp : c = ofChar '&'
    · rw [if_pos hamp, if_pos hamp]
      decide
    · simp [replaceChar, hamp]
  have hamp : replaceChar url (ofChar '&') (text "&amp;") =
      url.flatMap fun c => if c = ofChar '&' then text "&amp;" else [c] := rfl
  rw [escAttr, hamp, replaceChar_flatMap, escapeAttr]
  exact List.flatMap_congr fun c _ => hchar c

/-! ## The texts of the templates -/

/-- The rows that are markup. -/
def Key.marked : Key → Bool
  | .noteDeleted | .noteEdited | .noteArFired => true
  | _ => false

/-- No row needs escaping, apart from the headings. -/
theorem escape_t (lang : Language) (key : Key) (h : Key.marked key = false) :
    escape (t lang key) = t lang key := by
  cases lang <;> cases key <;> first | decide +kernel | cases h

theorem render_heading (lang : Language) (key : Key) (h : Key.marked key = true) :
    render (heading (t lang key)) = t lang key := by
  cases lang <;> cases key <;> first | decide +kernel | cases h

/-- Nothing in the text is escaped. -/
def isPlain (s : Text) : Bool :=
  s.all fun c => c ≠ ofChar '&' && c ≠ ofChar '<' && c ≠ ofChar '>' && c ≠ ofChar '"'

theorem escapeChar_of_plain {c : CodePoint} (h : isPlain [c] = true) :
    escapeChar c = [c] ∧ escapeAttrChar c = [c] := by
  simp only [isPlain, List.all_cons, List.all_nil, Bool.and_true, Bool.and_eq_true,
    decide_eq_true_eq] at h
  obtain ⟨⟨⟨hamp, hlt⟩, hgt⟩, hquot⟩ := h
  rw [escapeChar, escapeAttrChar, if_neg hamp, if_neg hlt, if_neg hgt, if_neg hamp, if_neg hquot]
  exact ⟨rfl, rfl⟩

/-- Texts over an alphabet without the four characters. -/
theorem isPlain_of_all {s : Text} (p : CodePoint → Bool)
    (halphabet : [ofChar '&', ofChar '<', ofChar '>', ofChar '"'].all (!p ·) = true)
    (h : ∀ c ∈ s, p c = true) : isPlain s = true := by
  simp only [List.all_cons, List.all_nil, Bool.and_true, Bool.and_eq_true,
    Bool.not_eq_true'] at halphabet
  obtain ⟨hamp, hlt, hgt, hquot⟩ := halphabet
  have hne : ∀ c ∈ s, ∀ c', p c' = false → c ≠ c' := by
    rintro c hc c' hc' rfl
    rw [h c hc] at hc'
    contradiction
  rw [isPlain, List.all_eq_true]
  intro c hc
  simp [hne c hc _ hamp, hne c hc _ hlt, hne c hc _ hgt, hne c hc _ hquot]

theorem isPlain_mem {s : Text} (h : isPlain s = true) {c : CodePoint} (hc : c ∈ s) :
    isPlain [c] = true := by
  rw [isPlain, List.all_eq_true] at h
  rw [isPlain, List.all_cons, List.all_nil, Bool.and_true]
  exact h c hc

theorem escape_of_plain {s : Text} (h : isPlain s = true) : escape s = s := by
  calc escape s = s.flatMap fun c => [c] :=
        List.flatMap_congr fun c hc => (escapeChar_of_plain (isPlain_mem h hc)).1
    _ = s := List.flatMap_singleton' s

theorem escapeAttr_of_plain {s : Text} (h : isPlain s = true) : escapeAttr s = s := by
  calc escapeAttr s = s.flatMap fun c => [c] :=
        List.flatMap_congr fun c hc => (escapeChar_of_plain (isPlain_mem h hc)).2
    _ = s := List.flatMap_singleton' s

theorem escape_append (s s' : Text) : escape (s ++ s') = escape s ++ escape s' :=
  List.flatMap_append

theorem isPlain_append {s s' : Text} (h : isPlain s = true) (h' : isPlain s' = true) :
    isPlain (s ++ s') = true := by
  rw [isPlain, List.all_append, Bool.and_eq_true]
  exact ⟨h, h'⟩

theorem isPlain_strOfInt (n : Int) : isPlain (strOfInt n) = true := by
  apply isPlain_of_all (fun c => c = ofChar '-' || decide (IsAsciiDigit c)) (by decide)
  intro c hc
  rw [Bool.or_eq_true, decide_eq_true_eq, decide_eq_true_eq]
  exact mem_strOfInt hc

theorem isPlain_idText (id : Option Int) : isPlain (idText id) = true := by
  cases id with
  | none => decide
  | some id => exact isPlain_strOfInt id

theorem isPlain_username {username : Text}
    (h : ∀ c ∈ username, isUsernameChar c = true) : isPlain username = true :=
  isPlain_of_all isUsernameChar (by decide) h

theorem isPlain_phone {phone : Text} (h : ∀ c ∈ phone, isDigitChar c = true) :
    isPlain phone = true :=
  isPlain_of_all isDigitChar (by decide) h

theorem lstripPlus_phone {phone : Text} (h : ∀ c ∈ phone, isDigitChar c = true) :
    lstripPlus phone = phone := by
  cases phone with
  | nil => rfl
  | cons c phone =>
      have hc : c ≠ ofChar '+' := by
        rintro rfl
        exact absurd (h _ List.mem_cons_self) (by decide)
      rw [lstripPlus, List.dropWhile_cons, if_neg (by simpa using hc)]

theorem given_some {s : Text} (h : s ≠ []) : given (some s) = some s := by
  simp [given, h]

theorem mem_of_given {s : Option Text} {s' : Text} (h : given s = some s') : s' ∈ s :=
  (Option.filter_eq_some_iff.mp h).1

/-! ## References -/

theorem render_anchor (url label : Text) :
    render (anchor url label) =
      text "<a href=\"" ++ escapeAttr url ++ text "\">" ++ escape label ++ text "</a>" := by
  rw [anchor, render_element, render_chars, List.flatMap_singleton, renderAttr]
  simp [text]

theorem render_code (s : Text) :
    render (element (text "code") [] (chars s)) =
      text "<code>" ++ escape s ++ text "</code>" := by
  rw [render_element, render_chars]
  simp [text]

theorem render_bold (s : Text) :
    render (element (text "b") [] (chars s)) = text "<b>" ++ escape s ++ text "</b>" := by
  rw [render_element, render_chars]
  simp [text]

namespace Entity

theorem render_tokens (e : Entity) (lang : Language) : render (e.tokens lang) = e.ref lang := by
  rw [tokens, ref, entityRef]
  cases husername : given e.username with
  | some username =>
      have hchars := e.usernameChars username (mem_of_given husername)
      rw [render_chars, escape_append, escape_of_plain (isPlain_username hchars)]
      rfl
  | none =>
      cases hname : given e.name with
      | some name =>
          have hurl : isPlain (text "tg://user?id=" ++ idText e.id) = true :=
            isPlain_append (by decide) (isPlain_idText e.id)
          have hopen : text "<a href=\"" ++ text "tg://user?id=" =
              text "<a href=\"tg://user?id=" := by decide
          simp only [render_anchor, escapeAttr_of_plain hurl, esc_some, ← List.append_assoc, hopen]
      | none =>
          cases hid : e.id.filter (· ≠ 0) with
          | some id => simp only [render_code, escape_of_plain (isPlain_strOfInt id)]
          | none => simp only [render_chars, escape_t lang .unknown rfl]

theorem tags_tokens (e : Entity) (lang : Language) : Html.tags (e.tokens lang) = e.shape := by
  rw [tokens, shape]
  cases given e.username with
  | some username => exact tags_chars _
  | none =>
      cases given e.name with
      | some name =>
          simp only [anchor, tags_element, tags_chars]
          rfl
      | none =>
          cases hid : e.id with
          | none => exact tags_chars _
          | some id =>
              by_cases hzero : id = 0
              · subst hzero
                exact tags_chars _
              · have hfilter : (some id).filter (· ≠ 0) = some id := by simp [hzero]
                have hany : (some id).any (· ≠ 0) = true := by simp [hzero]
                simp only [hfilter, hany, if_true, tags_element, tags_chars]
                rfl

end Entity

section WellFormed

variable (d : Dialect)

theorem wellFormed_anchor (url label : Text) : WellFormed d (anchor url label) := by
  refine .element ⟨d.link, by decide, ?_⟩ (.chars label)
  intro attr hattr
  have hname : attr.1 = text "href" := congrArg Prod.fst (List.mem_singleton.mp hattr)
  rw [hname]
  decide

theorem wellFormed_bold (s : Text) : WellFormed d (element (text "b") [] (chars s)) :=
  .element ⟨d.bold, by decide, nofun⟩ (.chars s)

theorem wellFormed_code (s : Text) : WellFormed d (element (text "code") [] (chars s)) :=
  .element ⟨d.code, by decide, nofun⟩ (.chars s)

theorem wellFormed_heading (row : Text) : WellFormed d (heading row) :=
  .append (.chars _) (wellFormed_bold d _)

theorem Entity.wellFormed (e : Entity) (lang : Language) : WellFormed d (e.tokens lang) := by
  rw [Entity.tokens]
  split
  · exact .chars _
  · exact wellFormed_anchor d _ _
  · split
    · exact wellFormed_code d _
    · exact .chars _

end WellFormed

/-- The text is read as these tokens, and these are its tags. -/
structure ReadsAs (d : Dialect) (s : Text) (ts : List Token) (shape : List (Bool × Text)) :
    Prop where
  parsed : parse d s = some ts
  tags : Html.tags ts = shape

theorem ReadsAs.of_render {d : Dialect} {s : Text} {ts : List Token} {shape : List (Bool × Text)}
    (hrender : render ts = s) (hwell : WellFormed d ts) (htags : Html.tags ts = shape) :
    ReadsAs d s ts shape where
  parsed := hrender ▸ parse_render hwell
  tags := htags

def boldShape : List (Bool × Text) := [(false, text "b"), (true, text "b")]

def linkShape : List (Bool × Text) := [(false, text "a"), (true, text "a")]

/-! ## Notices -/

section Notices

variable (d : Dialect) (lang : Language) (chat sender : Entity)

theorem tags_heading (row : Text) : Html.tags (heading row) = boldShape := by
  rw [heading, tags_append, tags_chars, tags_element, tags_chars]
  rfl

/-- What stands between the words of a notice. -/
theorem escape_separators :
    escape (text "\n") = text "\n" ∧ escape (text ": ") = text ": " ∧
      escape (text "\n\n") = text "\n\n" ∧ escape (text ":\n") = text ":\n" := by
  decide

theorem readsAs_deleted (s : Text) :
    ReadsAs d (formatDeletedNotice (chat.ref lang) (sender.ref lang) s lang)
      (deletedNotice lang chat sender s) (boldShape ++ chat.shape ++ sender.shape) := by
  refine .of_render ?_ ?_ ?_
  · simp only [deletedNotice, formatDeletedNotice, render_append, render_chars,
      render_heading lang .noteDeleted rfl, Entity.render_tokens, escape_append, escape_separators,
      escape_t lang .noteChat rfl, escape_t lang .noteFrom rfl, esc_some,
      List.append_assoc]
  · exact (((((wellFormed_heading d _).append (.chars _)).append (chat.wellFormed d lang)).append
      (.chars _)).append (sender.wellFormed d lang)).append (.chars _)
  · simp only [deletedNotice, tags_append, tags_heading, tags_chars, Entity.tags_tokens,
      List.append_nil]

theorem readsAs_edited (previous new : Text) :
    ReadsAs d (formatEditedNotice (chat.ref lang) (sender.ref lang) previous new lang)
      (editedNotice lang chat sender previous new)
      (boldShape ++ chat.shape ++ sender.shape) := by
  refine .of_render ?_ ?_ ?_
  · simp only [editedNotice, formatEditedNotice, render_append, render_chars,
      render_heading lang .noteEdited rfl, Entity.render_tokens, escape_append, escape_separators,
      escape_t lang .noteChat rfl, escape_t lang .noteFrom rfl, escape_t lang .noteWas rfl,
      escape_t lang .noteNow rfl, esc_some, List.append_assoc]
  · exact (((((wellFormed_heading d _).append (.chars _)).append (chat.wellFormed d lang)).append
      (.chars _)).append (sender.wellFormed d lang)).append (.chars _)
  · simp only [editedNotice, tags_append, tags_heading, tags_chars, Entity.tags_tokens,
      List.append_nil]

theorem readsAs_autoresponder (s : Text) :
    ReadsAs d (formatAutoresponderNotice (sender.ref lang) s lang)
      (autoresponderNotice lang sender s) (boldShape ++ sender.shape) := by
  refine .of_render ?_ ?_ ?_
  · simp only [autoresponderNotice, formatAutoresponderNotice, render_append, render_chars,
      render_heading lang .noteArFired rfl, Entity.render_tokens, escape_append, escape_separators,
      escape_t lang .noteFrom rfl, escape_t lang .noteIncoming rfl, esc_some,
      List.append_assoc]
  · exact (((wellFormed_heading d _).append (.chars _)).append (sender.wellFormed d lang)).append
      (.chars _)
  · simp only [autoresponderNotice, tags_append, tags_heading, tags_chars, Entity.tags_tokens,
      List.append_nil]

end Notices

/-! ## Users and chats -/

def codeShape : List (Bool × Text) := [(false, text "code"), (true, text "code")]

section TargetInfo

variable {info : TargetInfo} {lang : Language}

theorem isPlain_badges (info : TargetInfo) : isPlain info.badges = true := by
  refine isPlain_append (isPlain_append ?_ ?_) ?_ <;> split <;> decide

/-- The template has no character that is escaped, and neither has a number. -/
theorem escape_members (lang : Language) (count : Int) :
    escape (tFormat lang .ubInfoMembers (strOfInt count)) =
      tFormat lang .ubInfoMembers (strOfInt count) := by
  have haround : isPlain (around (t lang .ubInfoMembers)).1 = true ∧
      isPlain (around (t lang .ubInfoMembers)).2 = true := by
    cases lang <;> decide +kernel
  apply escape_of_plain
  exact isPlain_append (isPlain_append haround.1 (isPlain_strOfInt count)) haround.2

/-- The tokens are rendered line by line. -/
theorem render_targetInfoTokens
    (husername : ∀ username ∈ info.username, ∀ c ∈ username, isUsernameChar c = true)
    (hphone : ∀ phone ∈ info.phone, ∀ c ∈ phone, isDigitChar c = true) :
    (targetInfoTokens info lang).map render = targetInfoLines info lang := by
  have hcode : render (chars (text "🆔 ") ++
      element (text "code") [] (chars (strOfInt info.entityId))) =
      text "🆔 <code>" ++ strOfInt info.entityId ++ text "</code>" := by
    rw [render_append, render_chars, render_code, @escape_of_plain (text "🆔 ") (by decide),
      escape_of_plain (isPlain_strOfInt _), ← List.append_assoc, ← List.append_assoc]
    rfl
  have hname : ∀ username, given info.username = some username →
      render (chars (text "🔗 @" ++ username)) = text "🔗 @" ++ username := by
    intro username hgiven
    rw [render_chars, escape_append, @escape_of_plain (text "🔗 @") (by decide),
      escape_of_plain (isPlain_username (husername username (mem_of_given hgiven)))]
  rw [targetInfoTokens, targetInfoLines]
  cases info.isChat with
  | true =>
      have htitle : render (chars (text "💬 ") ++
          element (text "b") [] (chars info.titleOrName)) =
          text "💬 <b>" ++ esc (some info.titleOrName) ++ text "</b>" := by
        rw [render_append, render_chars, render_bold, @escape_of_plain (text "💬 ") (by decide),
          esc_some, ← List.append_assoc, ← List.append_assoc]
        rfl
      have hlink : ((given info.username).map fun username =>
          chars (text "🔗 @" ++ username)).toList.map render =
          ((given info.username).map fun username => text "🔗 @" ++ username).toList := by
        cases hgiven : given info.username with
        | none => rfl
        | some username => exact congrArg (fun line => [line]) (hname username hgiven)
      have hmembers : (info.membersCount.map fun count =>
          chars (tFormat lang .ubInfoMembers (strOfInt count))).toList.map render =
          (info.membersCount.map fun count =>
            tFormat lang .ubInfoMembers (strOfInt count)).toList := by
        cases info.membersCount with
        | none => rfl
        | some count =>
            exact congrArg (fun line => [line])
              ((render_chars _).trans (escape_members lang count))
      simp only [if_true, List.map_append, List.map_cons, List.map_nil, htitle, hcode, hlink,
        hmembers]
  | false =>
      have htitle : render (chars (text "👤 ") ++ element (text "b") []
          (chars (info.titleOrName ++
            if info.badges ≠ [] then text " " ++ info.badges else []))) =
          text "👤 <b>" ++ (esc (some info.titleOrName) ++
            if info.badges ≠ [] then text " " ++ info.badges else []) ++ text "</b>" := by
        have hbadges : isPlain (if info.badges ≠ [] then text " " ++ info.badges else []) =
            true := by
          split
          · exact isPlain_append (by decide) (isPlain_badges info)
          · rfl
        rw [render_append, render_chars, render_bold, escape_append, escape_of_plain hbadges,
          @escape_of_plain (text "👤 ") (by decide), esc_some, ← List.append_assoc,
          ← List.append_assoc]
        rfl
      have hlink : render (match given info.username with
          | some username => chars (text "🔗 @" ++ username)
          | none => chars (t lang .ubInfoNoUsername)) =
          match given info.username with
          | some username => text "🔗 @" ++ username
          | none => t lang .ubInfoNoUsername := by
        cases hgiven : given info.username with
        | none => exact (render_chars _).trans (escape_t lang .ubInfoNoUsername rfl)
        | some username => exact hname username hgiven
      have hnumber : ((given info.phone).map fun phone =>
          chars (text "📱 +" ++ phone)).toList.map render =
          ((given info.phone).map fun phone => text "📱 +" ++ lstripPlus phone).toList := by
        cases hgiven : given info.phone with
        | none => rfl
        | some phone =>
            have hdigits := hphone phone (mem_of_given hgiven)
            have hline : render (chars (text "📱 +" ++ phone)) =
                text "📱 +" ++ lstripPlus phone := by
              rw [render_chars, escape_append, @escape_of_plain (text "📱 +") (by decide),
                escape_of_plain (isPlain_phone hdigits), lstripPlus_phone hdigits]
            exact congrArg (fun line => [line]) hline
      have hpremium : render (chars
          (t lang (if info.isPremium then .ubInfoPremium else .ubInfoNoPremium))) =
          t lang (if info.isPremium then .ubInfoPremium else .ubInfoNoPremium) := by
        rw [render_chars, escape_t]
        split <;> rfl
      have hbio : ((given info.bio).map fun bio => chars (text "📝 " ++ bio)).toList.map render =
          ((given info.bio).map fun bio => text "📝 " ++ esc (some bio)).toList := by
        cases given info.bio with
        | none => rfl
        | some bio =>
            have hline : render (chars (text "📝 " ++ bio)) = text "📝 " ++ esc (some bio) := by
              rw [render_chars, escape_append, @escape_of_plain (text "📝 ") (by decide), esc_some]
            exact congrArg (fun line => [line]) hline
      simp only [Bool.false_eq_true, if_false, List.map_append, List.map_cons, List.map_nil,
        htitle, hcode, hlink, hnumber, hpremium, hbio]

theorem wellFormed_targetInfo (d : Dialect) (info : TargetInfo) (lang : Language) :
    WellFormed d (targetInfo info lang) := by
  refine .intercalate (.chars _) fun line hline => ?_
  have hmarked : ∀ mark s, WellFormed d (chars mark ++ element (text "b") [] (chars s)) :=
    fun mark s => (WellFormed.chars mark).append (wellFormed_bold d s)
  have hcode : WellFormed d (chars (text "🆔 ") ++
      element (text "code") [] (chars (strOfInt info.entityId))) :=
    (WellFormed.chars _).append (wellFormed_code d _)
  have hoption : ∀ {α : Type} (value : Option α) (f : α → Text),
      line ∈ (value.map fun a => chars (f a)).toList → WellFormed d line := by
    intro α value f hline
    obtain ⟨a, -, rfl⟩ := Option.map_eq_some_iff.mp (Option.mem_toList.mp hline)
    exact .chars _
  rw [targetInfoTokens] at hline
  split at hline
  · simp only [List.mem_append, List.mem_cons, List.not_mem_nil, or_false] at hline
    obtain ((rfl | rfl) | hline) | hline := hline
    · exact hmarked _ _
    · exact hcode
    · exact hoption _ _ hline
    · exact hoption _ _ hline
  · simp only [List.mem_append, List.mem_cons, List.not_mem_nil, or_false] at hline
    obtain (((rfl | rfl | rfl) | hline) | rfl) | hline := hline
    · exact hmarked _ _
    · exact hcode
    · split
      · exact .chars _
      · exact .chars _
    · exact hoption _ _ hline
    · exact .chars _
    · exact hoption _ _ hline

theorem tags_targetInfo (info : TargetInfo) (lang : Language) :
    Html.tags (targetInfo info lang) = boldShape ++ codeShape := by
  have hoption : ∀ {α : Type} (value : Option α) (f : α → Text),
      (value.map fun a => chars (f a)).toList.flatMap Html.tags = [] := by
    intro α value f
    cases value with
    | none => rfl
    | some a => exact (List.flatMap_singleton _ _).trans (tags_chars _)
  rw [targetInfo, tags_intercalate _ _ (tags_chars _), targetInfoTokens]
  split
  · simp only [List.flatMap_append, List.flatMap_cons, List.flatMap_nil, hoption, tags_append,
      tags_chars, tags_element]
    rfl
  · have hlink : Html.tags (match given info.username with
        | some username => chars (text "🔗 @" ++ username)
        | none => chars (t lang .ubInfoNoUsername)) = [] := by
      split
      · exact tags_chars _
      · exact tags_chars _
    simp only [List.flatMap_append, List.flatMap_cons, List.flatMap_nil, hoption, tags_append,
      tags_chars, tags_element, hlink]
    rfl

theorem readsAs_targetInfo (d : Dialect)
    (husername : ∀ username ∈ info.username, ∀ c ∈ username, isUsernameChar c = true)
    (hphone : ∀ phone ∈ info.phone, ∀ c ∈ phone, isDigitChar c = true) :
    ReadsAs d (formatTargetInfo info lang) (targetInfo info lang) (boldShape ++ codeShape) := by
  refine .of_render ?_ (wellFormed_targetInfo d info lang) (tags_targetInfo info lang)
  rw [targetInfo, render_intercalate, render_targetInfoTokens husername hphone, render_chars,
    escape_separators.1, formatTargetInfo]

end TargetInfo

/-! ## Cards -/

theorem trimmed_escape {s : Text} (h : Trimmed s) : Trimmed (escape s) where
  first := by
    intro c hc
    cases s with
    | nil => cases hc
    | cons c' s =>
        have hc' := h.first c' rfl
        rw [escape, List.flatMap_cons, escapeChar] at hc
        split_ifs at hc <;> cases hc
        · decide
        · decide
        · decide
        · exact hc'
  last := by
    intro c hc
    cases s using List.reverseRecOn with
    | nil => cases hc
    | append_singleton s c' =>
        have hc' := h.last c' List.getLast?_concat
        have hlast : escape [c'] = escapeChar c' := List.flatMap_singleton _ _
        have hne : escapeChar c' ≠ [] := Token.render_ne_nil (.char c')
        rw [escape_append, hlast, List.getLast?_append_of_ne_nil _ hne, escapeChar] at hc
        split_ifs at hc <;> cases hc
        · decide
        · decide
        · decide
        · exact hc'

theorem render_linkTokens (url label : Text) :
    render (linkTokens url label) = linkLine url label := by
  rw [linkTokens, render_append, render_chars, render_anchor, linkLine, escAttr_eq, esc_some,
    @escape_of_plain (text "🔗 ") (by decide)]
  simp only [← List.append_assoc]
  rfl

theorem trimmed_linkLine (url label : Text) : Trimmed (linkLine url label) where
  first := by
    intro c hc
    cases hc
    decide
  last := by
    intro c hc
    rw [linkLine, List.getLast?_append_of_ne_nil _ (by decide)] at hc
    cases hc
    decide

/-- Only parts that are there are joined. -/
theorem joined_pair (sep : Text) (ts ts' : List Token) :
    joined sep [ts, ts'] =
      if ts = [] then ts' else if ts' = [] then ts else ts ++ chars sep ++ ts' := by
  cases ts with
  | nil =>
      cases ts' with
      | nil => rfl
      | cons t' ts' => exact List.intercalate_singleton
  | cons t ts =>
      cases ts' with
      | nil => exact List.intercalate_singleton
      | cons t' ts' =>
          show (chars sep).intercalate [t :: ts, t' :: ts'] = _
          rw [List.intercalate_cons_cons, List.intercalate_singleton,
            if_neg (List.cons_ne_nil _ _), if_neg (List.cons_ne_nil _ _)]

/-- The text of a card with its link. -/
def cardBody (card : MeCard) : List Token :=
  joined (text "\n")
    [chars card.text, ((given card.link).map fun link => linkTokens link link).getD []]

theorem chars_eq_nil {s : Text} : chars s = [] ↔ s = [] := List.map_eq_nil_iff

/-- The card is what its tokens are rendered as; there is no white space to strip. -/
theorem buildMeCard_eq {card : MeCard} (htrimmed : Trimmed card.text) :
    buildMeCard card = (render (cardBody card), card.buttons) := by
  have hbody : (if card.text ≠ [] then esc (some card.text) else []) = escape card.text := by
    split
    · exact esc_some _
    · next hempty =>
        rw [not_not.mp hempty]
        rfl
  have hempty : escape card.text = [] ↔ card.text = [] := by
    rw [← render_chars, render_eq_nil, chars_eq_nil]
  rw [buildMeCard, cardBody, joined_pair]
  simp only [hbody, chars_eq_nil]
  cases hlink : given card.link with
  | none =>
      have hparts : (if card.text = [] then ([] : List Token) else chars card.text) =
          chars card.text := by
        split
        · next hnil => rw [hnil]; rfl
        · rfl
      simp only [Option.map_none, Option.getD_none, if_true, hparts, render_chars,
        (trimmed_escape htrimmed).strip_eq]
  | some link =>
      have hlinkNe : linkTokens link link ≠ [] := List.cons_ne_nil _ _
      simp only [Option.map_some, Option.getD_some, if_neg hlinkNe]
      by_cases hnil : card.text = []
      · rw [if_pos hnil, if_neg fun h => h (hempty.mpr hnil), render_linkTokens,
          (trimmed_linkLine link link).strip_eq]
      · have hnonempty : escape card.text ≠ [] := fun h => hnil (hempty.mp h)
        have hstrip := ((trimmed_escape htrimmed).append (trimmed_linkLine link link) hnonempty
          (List.cons_ne_nil _ _) (text "\n")).strip_eq
        rw [if_neg hnil, if_pos hnonempty, hstrip, render_append, render_append, render_chars,
          render_chars, escape_separators.1, render_linkTokens]

theorem render_linkButtons (buttons : List LinkButton) :
    render (linkButtons buttons) = formatLinkButtons buttons := by
  have hmap : (buttons.map fun b => linkTokens b.url b.text).map render =
      buttons.map fun b => linkLine b.url b.text := by
    rw [List.map_map]
    exact List.map_congr_left fun b _ => render_linkTokens b.url b.text
  rw [linkButtons, render_intercalate, hmap, render_chars, escape_separators.1,
    formatLinkButtons]

theorem linkButtons_eq_nil {buttons : List LinkButton} :
    linkButtons buttons = [] ↔ buttons = [] := by
  cases buttons with
  | nil => exact ⟨fun _ => rfl, fun _ => rfl⟩
  | cons b buttons =>
      refine ⟨fun h => ?_, nofun⟩
      cases buttons with
      | nil =>
          rw [linkButtons, List.map_singleton, List.intercalate_singleton] at h
          cases h
      | cons b' buttons =>
          rw [linkButtons, List.map_cons, List.map_cons, List.intercalate_cons_cons] at h
          cases h

theorem render_meCard {card : MeCard} (htrimmed : Trimmed card.text) :
    render (meCard card) = meMessage card := by
  have hmessage : meMessage card =
      if card.buttons ≠ [] then
        if render (cardBody card) ≠ [] then
          render (cardBody card) ++ text "\n\n" ++ formatLinkButtons card.buttons
        else formatLinkButtons card.buttons
      else render (cardBody card) := by
    rw [meMessage, buildMeCard_eq htrimmed]
  rw [hmessage, meCard, ← cardBody, joined_pair]
  simp only [ne_eq, render_eq_nil, linkButtons_eq_nil, ite_not]
  by_cases hbuttons : card.buttons = []
  · rw [if_pos hbuttons, if_pos hbuttons]
    split
    · next hnil => rw [hnil, hbuttons]; rfl
    · rfl
  · rw [if_neg hbuttons, if_neg hbuttons]
    split
    · exact render_linkButtons _
    · rw [render_append, render_append, render_chars, escape_separators.2.2.1,
        render_linkButtons]

theorem wellFormed_linkTokens (d : Dialect) (url label : Text) :
    WellFormed d (linkTokens url label) :=
  (WellFormed.chars _).append (wellFormed_anchor d url label)

theorem wellFormed_joined (d : Dialect) (sep : Text) {parts : List (List Token)}
    (h : ∀ ts ∈ parts, WellFormed d ts) : WellFormed d (joined sep parts) :=
  .intercalate (.chars sep) fun ts hts => h ts (List.mem_of_mem_filter hts)

theorem wellFormed_linkButtons (d : Dialect) (buttons : List LinkButton) :
    WellFormed d (linkButtons buttons) := by
  refine .intercalate (.chars _) fun ts hts => ?_
  obtain ⟨b, -, rfl⟩ := List.mem_map.mp hts
  exact wellFormed_linkTokens d b.url b.text

theorem wellFormed_meCard (d : Dialect) (card : MeCard) : WellFormed d (meCard card) := by
  have hlink : WellFormed d (((given card.link).map fun link => linkTokens link link).getD []) := by
    cases given card.link with
    | none => exact .nil
    | some link => exact wellFormed_linkTokens d link link
  have hbody : WellFormed d (cardBody card) :=
    wellFormed_joined d _
      (List.forall_mem_cons.mpr ⟨.chars _, List.forall_mem_singleton.mpr hlink⟩)
  exact wellFormed_joined d _
    (List.forall_mem_cons.mpr ⟨hbody, List.forall_mem_singleton.mpr (wellFormed_linkButtons d _)⟩)

theorem tags_linkTokens (url label : Text) : Html.tags (linkTokens url label) = linkShape := by
  rw [linkTokens, anchor, tags_append, tags_chars, tags_element, tags_chars]
  rfl

theorem tags_joined (sep : Text) (parts : List (List Token)) :
    Html.tags (joined sep parts) = parts.flatMap Html.tags := by
  rw [joined, tags_intercalate _ _ (tags_chars sep)]
  induction parts with
  | nil => rfl
  | cons ts parts ih =>
      cases ts with
      | nil => exact ih
      | cons t ts =>
          rw [List.filter_cons_of_pos rfl, List.flatMap_cons, List.flatMap_cons, ih]

/-- The tags of a card: one link for its own and one for each button. -/
def cardShape (card : MeCard) : List (Bool × Text) :=
  (if (given card.link).isSome then linkShape else []) ++ card.buttons.flatMap fun _ => linkShape

theorem tags_meCard (card : MeCard) : Html.tags (meCard card) = cardShape card := by
  have hbuttons : Html.tags (linkButtons card.buttons) =
      card.buttons.flatMap fun _ => linkShape := by
    rw [linkButtons, tags_intercalate _ _ (tags_chars _), List.flatMap_map]
    exact List.flatMap_congr fun b _ => tags_linkTokens b.url b.text
  have hlink : Html.tags (((given card.link).map fun link => linkTokens link link).getD []) =
      if (given card.link).isSome then linkShape else [] := by
    cases given card.link with
    | none => rfl
    | some link => exact tags_linkTokens link link
  rw [meCard, tags_joined, List.flatMap_cons, List.flatMap_singleton, tags_joined,
    List.flatMap_cons, List.flatMap_singleton, tags_chars, hlink, hbuttons, cardShape]
  rfl

theorem readsAs_meCard (d : Dialect) {card : MeCard} (htrimmed : Trimmed card.text) :
    ReadsAs d (meMessage card) (meCard card) (cardShape card) :=
  .of_render (render_meCard htrimmed) (wellFormed_meCard d card) (tags_meCard card)

/-- The handlers trim the text of a card before they store it. -/
theorem trimmed_foldl (inputs : List Settings.Input) :
    Trimmed (inputs.foldl Settings.Input.apply {}).me.text := by
  induction inputs using List.reverseRecOn with
  | nil => exact trimmed_nil
  | append_singleton inputs input ih =>
      rw [List.foldl_append]
      cases input with
      | meText message => exact trimmed_strip message
      | meClear => exact trimmed_nil
      | _ => exact ih

/-- What is loaded for an owner after any actions of the handlers has a trimmed text. -/
theorem stored_meCard (actions : List Settings.Action) :
    ∃ db, Transition.exec Settings.handle {} actions = some db ∧
      ∀ telegramId userId, db.users.lookup telegramId = some userId →
        MeCard.fromDict (db.loadMeCard userId) =
            some (Settings.profile telegramId actions).me ∧
          Trimmed (Settings.profile telegramId actions).me.text := by
  obtain ⟨db, hrun, hinv⟩ := Settings.inv_of_actions actions
  refine ⟨db, hrun, fun telegramId userId hlookup => ⟨?_, trimmed_foldl _⟩⟩
  have hknown : Settings.Known telegramId actions := by
    rw [← Settings.isSome_ownersAfter, hinv.known telegramId, hlookup]
    rfl
  rw [Settings.Database.loadMeCard_eq]
  exact (hinv.stored telegramId userId _ hlookup (if_pos hknown)).me

/-! ## Every notice and every card -/

/-- Nothing that others wrote becomes markup: a text between the tags is shown as it is, an
address is the value of its `href`, and the tags of a notice, of the lines about a user or a
chat, and of a stored card are those of the template. -/
theorem notices_parse (d : Dialect) (lang : Language) :
    (∀ s, parse d (esc (some s)) = some (chars s)) ∧
    (∀ url label, parse d (linkLine url label) = some (linkTokens url label)) ∧
    (∀ chat sender s, ReadsAs d (formatDeletedNotice (chat.ref lang) (sender.ref lang) s lang)
      (deletedNotice lang chat sender s) (boldShape ++ chat.shape ++ sender.shape)) ∧
    (∀ chat sender previous new,
      ReadsAs d (formatEditedNotice (chat.ref lang) (sender.ref lang) previous new lang)
        (editedNotice lang chat sender previous new)
        (boldShape ++ chat.shape ++ sender.shape)) ∧
    (∀ sender s, ReadsAs d (formatAutoresponderNotice (sender.ref lang) s lang)
      (autoresponderNotice lang sender s) (boldShape ++ sender.shape)) ∧
    (∀ info : TargetInfo,
      (∀ username ∈ info.username, ∀ c ∈ username, isUsernameChar c = true) →
      (∀ phone ∈ info.phone, ∀ c ∈ phone, isDigitChar c = true) →
        ReadsAs d (formatTargetInfo info lang) (targetInfo info lang)
          (boldShape ++ codeShape)) ∧
    ∀ actions, ∃ db, Transition.exec Settings.handle {} actions = some db ∧
      ∀ telegramId userId, db.users.lookup telegramId = some userId →
        ∃ card, MeCard.fromDict (db.loadMeCard userId) = some card ∧
          card = (Settings.profile telegramId actions).me ∧
          ReadsAs d (meMessage card) (meCard card) (cardShape card) := by
  refine ⟨fun s => ?_, fun url label => ?_, readsAs_deleted d lang, readsAs_edited d lang,
    readsAs_autoresponder d lang, fun info => readsAs_targetInfo d, fun actions => ?_⟩
  · rw [esc_some]
    exact parse_escape d s
  · rw [← render_linkTokens]
    exact parse_render (wellFormed_linkTokens d url label)
  · obtain ⟨db, hrun, hstored⟩ := stored_meCard actions
    refine ⟨db, hrun, fun telegramId userId hlookup => ?_⟩
    obtain ⟨hload, htrimmed⟩ := hstored telegramId userId hlookup
    exact ⟨_, hload, rfl, readsAs_meCard d htrimmed⟩

/-! A user with a phone, and a card that looks like markup. -/

def bob : TargetInfo where
  entityId := 42
  isChat := false
  titleOrName := text "Bob <3"
  username := some (text "bob_1")
  phone := some (text "380501234567")
  bio := some (text "a & b")

def cardActions : List Settings.Action :=
  [⟨700, .meText (text " <b>shop</b> &amp; ")⟩, ⟨700, .meLink (text "https://t.me/a?b=1&c=\"2")⟩,
    ⟨700, .meButtons (text "A <i> | https://t.me/x")⟩]

theorem bobAndCard_read :
    ReadsAs telegramHtml (formatTargetInfo bob .en) (targetInfo bob .en)
      (boldShape ++ codeShape) ∧
    ∃ db, Transition.exec Settings.handle {} cardActions = some db ∧
      ∃ card, MeCard.fromDict (db.loadMeCard 1) = some card ∧
        card = (Settings.profile 700 cardActions).me ∧
        ReadsAs telegramHtml (meMessage card) (meCard card) (cardShape card) := by
  have h := notices_parse telegramHtml .en
  have hlookup : (Transition.exec Settings.handle {} cardActions).bind
      (fun db => db.users.lookup 700) = some 1 := by decide +kernel
  refine ⟨h.2.2.2.2.2.1 bob ?_ ?_, ?_⟩
  · intro username husername
    cases husername
    exact List.all_eq_true.mp (by decide)
  · intro phone hphone
    cases hphone
    exact List.all_eq_true.mp (by decide)
  · obtain ⟨db, hrun, hcards⟩ := h.2.2.2.2.2.2 cardActions
    rw [hrun] at hlookup
    exact ⟨db, hrun, hcards 700 1 hlookup⟩

end UserTgBot.Formatting
