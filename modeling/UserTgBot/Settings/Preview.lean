import UserTgBot.Library.HtmlParser
import UserTgBot.Library.HtmlPlain
import UserTgBot.Userbot.Formatting

/-!
# What an owner has entered, as it is shown

`_render_me_preview` and `_render_ar_preview` of `management_bot/handlers/settings.py` go out
with the bot's default parse mode, and `_respond` of the autoresponder sends its text with
`parse_mode="html"`. Unlike the `.me` card they do not escape what the owner has entered, so they
show it unchanged only if it is plain.

The previews are read by Telegram itself. What the userbot sends, the card and the reply, is
read by Telethon, whose parser takes more for a reference, drops white space around a message
and may lose a last word with an `&`.
-/

namespace UserTgBot.Preview

open PyText Html I18n Settings
open Formatting (given meMessage meCard linkButtons formatLinkButtons isPlain)

/-! ## The renderers -/

/-- `MeCard.is_empty`. -/
def isEmpty (card : MeCard) : Bool :=
  card.text.isEmpty && (given card.link).isNone && !card.hasPhoto && card.buttons.isEmpty

/-- The lines of the preview of a card. -/
def mePreviewLines (card : MeCard) (lang : Language) : List Text :=
  [if card.text ≠ [] then card.text else t lang .previewNoText] ++
    ((given card.link).map fun link => text "🔗 " ++ link).toList ++
    (if card.hasPhoto then [text "🖼 …"] else []) ++
    (if card.buttons ≠ [] then
      [text "🔘 " ++ (text ", ").intercalate (card.buttons.map LinkButton.text)]
    else [])

def renderMePreview (card : MeCard) (lang : Language) : Text :=
  if isEmpty card then t lang .previewEmpty
  else (text "\n").intercalate (mePreviewLines card lang)

/-- The last line of the preview of an autoresponder. -/
def arSummary (ar : Autoresponder) (lang : Language) : Text :=
  let window := match given ar.activeFrom, given ar.activeTo with
    | some activeFrom, some activeTo => activeFrom ++ text "-" ++ activeTo
    | _, _ => t lang .windowAllday
  text "🖼 " ++ text (if ar.hasPhoto then "✓" else "✗") ++ text " · 🕒 " ++ window ++
    text " · 🚫 " ++ strOfNat ar.exceptions.length ++ text " · 🔘 " ++
    strOfNat ar.buttons.length

def renderArPreview (ar : Autoresponder) (lang : Language) : Text :=
  let stateWord := t lang (if ar.enabled then .arStateOn else .arStateOff)
  tFormat lang .arToggled stateWord ++ text "\n" ++
    (if ar.message ≠ [] then ar.message else text "—") ++ text "\n" ++ arSummary ar lang

/-- The text that `_respond` sends. -/
def respondText (ar : Autoresponder) : Text :=
  if ar.buttons ≠ [] then
    if ar.message ≠ [] then ar.message ++ text "\n\n" ++ formatLinkButtons ar.buttons
    else formatLinkButtons ar.buttons
  else ar.message

/-! ## What they should show -/

/-- The reply of an autoresponder: its message, then the links. -/
def reply (ar : Autoresponder) : List Token :=
  Formatting.joined (text "\n\n") [chars ar.message, linkButtons ar.buttons]

/-- Every renderer gives markup that shows what was entered as it is, to Telegram, and to
Telethon in what the userbot sends. Previews have no tags of their own. -/
structure Verbatim (d : Dialect) (p : HtmlParser) (lang : Language) (card : MeCard)
    (ar : Autoresponder) : Prop where
  me : parse d (meMessage card) = some (meCard card)
  meSent : p.shown (meMessage card) = visible (meCard card)
  mePreview : parse d (renderMePreview card lang) = some (chars (renderMePreview card lang))
  arPreview : parse d (renderArPreview ar lang) = some (chars (renderArPreview ar lang))
  reply : parse d (respondText ar) = some (reply ar)
  replySent : p.shown (respondText ar) = visible (Preview.reply ar)

/-- What an owner has entered for a card and is to see of it. -/
def entered (card : MeCard) : List Text :=
  card.text :: (card.link.toList ++ card.buttons.map LinkButton.text)

theorem entered_of_isEmpty {card : MeCard} (h : isEmpty card = true) :
    ∀ s ∈ entered card, s = [] := by
  simp only [isEmpty, Bool.and_eq_true, List.isEmpty_iff, Option.isNone_iff_eq_none] at h
  obtain ⟨⟨⟨htext, hlink⟩, -⟩, hbuttons⟩ := h
  intro s hs
  rw [entered, htext, hbuttons, List.map_nil, List.append_nil, List.mem_cons,
    Option.mem_toList] at hs
  obtain hs | hs := hs
  · exact hs
  · by_contra hne
    rw [Option.mem_def.mp hs, Formatting.given_some hne] at hlink
    cases hlink

section Plain

variable {d : Dialect}

theorem plain_of_isPlain {s : Text} (h : isPlain s = true) : Plain d s := by
  have hne : ∀ c, isPlain [c] = false → c ∉ s := by
    intro c hc hmem
    rw [Formatting.isPlain_mem h hmem] at hc
    cases hc
  exact plain_of_not_mem (hne _ (by decide)) (hne _ (by decide))

/-- The texts of the previews. -/
theorem isPlain_texts (lang : Language) :
    isPlain (t lang .previewEmpty) = true ∧ isPlain (t lang .previewNoText) = true ∧
      isPlain (t lang .windowAllday) = true ∧
      ∀ enabled : Bool, isPlain (tFormat lang .arToggled
        (t lang (if enabled then .arStateOn else .arStateOff))) = true := by
  cases lang <;> decide +kernel

/-! ## The preview of a card -/

theorem given_toList {s : Option Text} (f : Text → Text)
    (hf : ∀ s', Plain d (f s') ↔ Plain d s') :
    (∀ line ∈ ((given s).map f).toList, Plain d line) ↔ ∀ s' ∈ s, Plain d s' := by
  cases s with
  | none => exact iff_of_true nofun nofun
  | some s =>
      by_cases hnil : s = []
      · subst hnil
        refine iff_of_true nofun ?_
        rintro _ ⟨⟩
        exact plain_nil
      · rw [Formatting.given_some hnil, Option.map_some, Option.toList_some,
          List.forall_mem_singleton, hf]
        simp

/-- An icon and a blank are neutral. -/
theorem plain_link (s : Text) : Plain d (text "🔗 " ++ s) ↔ Plain d s :=
  plain_neutral_append (by decide)

theorem plain_labels (buttons : List LinkButton) :
    Plain d (text "🔘 " ++ (text ", ").intercalate (buttons.map LinkButton.text)) ↔
      ∀ b ∈ buttons, Plain d b.text := by
  have hicon : (text "🔘 ").all isNeutral = true := by decide
  have hcomma : (text ", ").all isNeutral = true := by decide
  rw [plain_neutral_append hicon, plain_intercalate (by decide) hcomma, List.forall_mem_map]

theorem plain_lines_iff (card : MeCard) (lang : Language) :
    (∀ line ∈ mePreviewLines card lang, Plain d line) ↔ ∀ s ∈ entered card, Plain d s := by
  have htext : Plain d (if card.text ≠ [] then card.text else t lang .previewNoText) ↔
      Plain d card.text := by
    split
    · exact Iff.rfl
    · next hempty =>
        rw [not_not.mp hempty]
        exact iff_of_true (plain_of_isPlain (isPlain_texts lang).2.1) plain_nil
  have hphoto : ∀ line ∈ (if card.hasPhoto then [text "🖼 …"] else []), Plain d line := by
    split
    · exact List.forall_mem_singleton.mpr (plain_of_isPlain (by decide))
    · exact List.forall_mem_nil _
  have hlabels : (∀ line ∈ (if card.buttons ≠ [] then
      [text "🔘 " ++ (text ", ").intercalate (card.buttons.map LinkButton.text)] else []),
        Plain d line) ↔ ∀ b ∈ card.buttons, Plain d b.text := by
    split
    · rw [List.forall_mem_singleton, plain_labels]
    · next hempty =>
        rw [not_not.mp hempty]
        exact iff_of_true (List.forall_mem_nil _) (List.forall_mem_nil _)
  have hlink : (∀ s ∈ card.link.toList, Plain d s) ↔ ∀ s ∈ card.link, Plain d s :=
    ⟨fun h s hs => h s (Option.mem_toList.mpr hs), fun h s hs => h s (Option.mem_toList.mp hs)⟩
  rw [mePreviewLines, List.forall_mem_append, List.forall_mem_append, List.forall_mem_append,
    List.forall_mem_singleton, htext, given_toList _ plain_link, hlabels, entered,
    List.forall_mem_cons, List.forall_mem_append, hlink, List.forall_mem_map]
  exact ⟨fun h => ⟨h.1.1.1, h.1.1.2, h.2⟩, fun h => ⟨⟨⟨h.1, h.2.1⟩, hphoto⟩, h.2.2⟩⟩

/-- The preview of a card shows its texts exactly if they are plain. -/
theorem mePreview_iff (card : MeCard) (lang : Language) :
    parse d (renderMePreview card lang) = some (chars (renderMePreview card lang)) ↔
      ∀ s ∈ entered card, Plain d s := by
  rw [parse_iff_plain, renderMePreview]
  split
  · next hempty =>
      refine iff_of_true (plain_of_isPlain (isPlain_texts lang).1) fun s hs => ?_
      rw [entered_of_isEmpty hempty s hs]
      exact plain_nil
  · have hnewline : (text "\n").all isNeutral = true := by decide
    rw [plain_intercalate (by decide) hnewline, plain_lines_iff]

/-! ## The preview of an autoresponder and its reply -/

theorem isPlain_formatHhmm (hour minute : Nat) : isPlain (formatHhmm hour minute) = true := by
  have hform : formatHhmm hour minute = [digit (hour / 10), digit hour,
      ofChar ':', digit (minute / 10), digit minute] := rfl
  apply Formatting.isPlain_of_all (fun c => c = ofChar ':' || decide (IsAsciiDigit c)) (by decide)
  rw [hform]
  simp [isAsciiDigit_digit]

theorem isPlain_normalTime {value : Option Text} (h : NormalTime value) {s : Text}
    (hs : given value = some s) : isPlain s = true := by
  have hnormal := h s (Formatting.mem_of_given hs)
  rw [parseHhmm] at hnormal
  split at hnormal
  · simp only [Option.bind_eq_bind, Option.bind_eq_some_iff, Option.pure_def,
      Option.some.injEq] at hnormal
    obtain ⟨hour, -, minute, -, rfl⟩ := hnormal
    exact isPlain_formatHhmm hour minute
  · cases hnormal

theorem isPlain_strOfNat (n : Nat) : isPlain (strOfNat n) = true :=
  Formatting.isPlain_of_all (fun c => decide (IsAsciiDigit c)) (by decide) fun _ hc =>
    decide_eq_true (mem_strOfNat hc)

theorem isPlain_arSummary {ar : Autoresponder} (normal : ar.Normal) (lang : Language) :
    isPlain (arSummary ar lang) = true := by
  have hmark : isPlain (text (if ar.hasPhoto then "✓" else "✗")) = true := by
    split <;> decide
  have hwindow : isPlain (match given ar.activeFrom, given ar.activeTo with
      | some activeFrom, some activeTo => activeFrom ++ text "-" ++ activeTo
      | _, _ => t lang .windowAllday) = true := by
    split
    · next hfrom hto =>
        exact Formatting.isPlain_append (Formatting.isPlain_append
          (isPlain_normalTime normal.activeFrom hfrom) (by decide))
          (isPlain_normalTime normal.activeTo hto)
    · exact (isPlain_texts lang).2.2.1
  refine Formatting.isPlain_append (Formatting.isPlain_append (Formatting.isPlain_append
    (Formatting.isPlain_append (Formatting.isPlain_append (Formatting.isPlain_append
      (Formatting.isPlain_append ?_ hmark) ?_) hwindow) ?_) (isPlain_strOfNat _)) ?_)
      (isPlain_strOfNat _)
  all_goals decide

/-- The preview of an autoresponder shows its message exactly if it is plain. -/
theorem arPreview_iff {ar : Autoresponder} (normal : ar.Normal) (lang : Language) :
    parse d (renderArPreview ar lang) = some (chars (renderArPreview ar lang)) ↔
      Plain d ar.message := by
  have hnewline : (text "\n").all isNeutral = true := by decide
  have hmessage : Plain d (if ar.message ≠ [] then ar.message else text "—") ↔
      Plain d ar.message := by
    split
    · exact Iff.rfl
    · next hempty =>
        rw [not_not.mp hempty]
        exact iff_of_true (plain_of_isPlain (by decide)) plain_nil
  rw [parse_iff_plain, renderArPreview, plain_append_sep (by decide) hnewline,
    plain_append_sep (by decide) hnewline, hmessage]
  exact ⟨fun h => h.1.2, fun h => ⟨⟨plain_of_isPlain ((isPlain_texts lang).2.2.2 ar.enabled), h⟩,
    plain_of_isPlain (isPlain_arSummary normal lang)⟩⟩

/-- The reply shows the message exactly if it is plain; the links below are escaped. -/
theorem reply_iff (ar : Autoresponder) :
    parse d (respondText ar) = some (reply ar) ↔ Plain d ar.message := by
  have hlinks := Formatting.wellFormed_linkButtons d ar.buttons
  rw [respondText, reply, Formatting.joined_pair]
  simp only [Formatting.chars_eq_nil, Formatting.linkButtons_eq_nil]
  by_cases hmessage : ar.message = []
  · rw [if_pos hmessage, hmessage]
    refine iff_of_true ?_ plain_nil
    split
    · rw [if_neg fun h => h rfl, ← Formatting.render_linkButtons]
      exact parse_render hlinks
    · next hempty =>
        rw [not_not.mp hempty]
        rfl
  · rw [if_neg hmessage]
    by_cases hbuttons : ar.buttons = []
    · rw [if_pos hbuttons, if_neg fun h => h hbuttons]
      exact parse_iff_plain
    · have hboundary : Boundary (text "\n\n" ++ formatLinkButtons ar.buttons) := by
        intro c hc
        cases hc
        decide
      have htail : parse d (text "\n\n" ++ formatLinkButtons ar.buttons) =
          some (chars (text "\n\n") ++ linkButtons ar.buttons) := by
        have hrender := parse_render ((WellFormed.chars (text "\n\n")).append hlinks)
        rwa [render_append, render_chars, Formatting.escape_separators.2.2.1,
          Formatting.render_linkButtons] at hrender
      rw [if_neg hbuttons, if_pos hbuttons, if_pos hmessage, List.append_assoc,
        List.append_assoc]
      exact parse_append_iff hboundary htail

end Plain

/-! ## What Telethon reads -/

/-- The last label does not end in white space, as one that was cut after 64 characters may. -/
def LabelEnds (buttons : List LinkButton) : Prop :=
  ∀ b ∈ buttons.getLast?, ∀ c ∈ b.text.getLast?, isSpace c = false

/-- A link and its label, as the handlers accept them. -/
structure Linked (url label : Text) : Prop where
  url : ¬text "mailto:" <+: url
  label : label ≠ []

section Telethon

variable {p : HtmlParser} {buttons : List LinkButton} {body : List Token}

theorem readable_chars (s : Text) : ∀ t ∈ chars s, HtmlParser.Readable t := by
  intro t ht
  obtain ⟨c, -, rfl⟩ := List.mem_map.mp ht
  trivial

theorem readable_linkTokens {url label : Text} (h : Linked url label) :
    ∀ t ∈ Formatting.linkTokens url label, HtmlParser.Readable t := by
  intro t ht
  rw [Formatting.linkTokens, Formatting.anchor, element, List.mem_append, List.mem_append,
    List.mem_cons, List.mem_singleton] at ht
  obtain ht | (rfl | ht) | rfl := ht
  · exact readable_chars _ t ht
  · exact ⟨rfl, url, rfl, h.url⟩
  · exact readable_chars _ t ht
  · exact rfl

theorem readable_intercalate {sep : Text} {pieces : List (List Token)}
    (h : ∀ ts ∈ pieces, ∀ t ∈ ts, HtmlParser.Readable t) :
    ∀ t ∈ (chars sep).intercalate pieces, HtmlParser.Readable t := by
  induction pieces with
  | nil => exact List.forall_mem_nil _
  | cons ts pieces ih =>
      obtain ⟨hts, hpieces⟩ := List.forall_mem_cons.mp h
      cases pieces with
      | nil => rwa [List.intercalate_singleton]
      | cons ts' pieces =>
          rw [List.intercalate_cons_cons, List.forall_mem_append, List.forall_mem_append]
          exact ⟨⟨hts, readable_chars sep⟩, ih hpieces⟩

theorem readable_linkButtons (h : ∀ b ∈ buttons, Linked b.url b.text) :
    ∀ t ∈ linkButtons buttons, HtmlParser.Readable t := by
  apply readable_intercalate
  rw [List.forall_mem_map]
  exact fun b hb => readable_linkTokens (h b hb)

theorem visible_linkTokens (url label : Text) :
    visible (Formatting.linkTokens url label) = text "🔗 " ++ label := by
  rw [Formatting.linkTokens, Formatting.anchor, visible_append, visible_chars, visible_element,
    visible_chars]

theorem linkButtons_cons_cons (b b' : LinkButton) (buttons : List LinkButton) :
    linkButtons (b :: b' :: buttons) =
      Formatting.linkTokens b.url b.text ++ chars (text "\n") ++ linkButtons (b' :: buttons) :=
  List.intercalate_cons_cons

/-- Links begin with an icon. -/
theorem visible_linkButtons_cons (b : LinkButton) (buttons : List LinkButton) :
    ∃ rest, visible (linkButtons (b :: buttons)) = text "🔗 " ++ rest := by
  cases buttons with
  | nil =>
      rw [linkButtons, List.map_singleton, List.intercalate_singleton, visible_linkTokens]
      exact ⟨_, rfl⟩
  | cons b' buttons =>
      rw [linkButtons_cons_cons, visible_append, visible_append, visible_linkTokens,
        List.append_assoc, List.append_assoc]
      exact ⟨_, rfl⟩

theorem isSpace_head?_icon (s : Text) : ∀ c ∈ (text "🔗 " ++ s).head?, isSpace c = false := by
  intro c hc
  cases hc
  decide

theorem head?_visible_linkButtons (buttons : List LinkButton) :
    ∀ c ∈ (visible (linkButtons buttons)).head?, isSpace c = false := by
  cases buttons with
  | nil => exact nofun
  | cons b buttons =>
      obtain ⟨rest, hrest⟩ := visible_linkButtons_cons b buttons
      rw [hrest]
      exact isSpace_head?_icon rest

/-- The links end with the last label. -/
theorem getLast?_visible_linkButtons (h : ∀ b ∈ buttons, b.text ≠ []) :
    (visible (linkButtons buttons)).getLast? =
      buttons.getLast?.bind fun b => b.text.getLast? := by
  induction buttons with
  | nil => rfl
  | cons b buttons ih =>
      obtain ⟨hb, hbuttons⟩ := List.forall_mem_cons.mp h
      cases buttons with
      | nil =>
          rw [linkButtons, List.map_singleton, List.intercalate_singleton, visible_linkTokens,
            List.getLast?_append_of_ne_nil _ hb]
          rfl
      | cons b' buttons =>
          have hrest := ih hbuttons
          have hne : visible (linkButtons (b' :: buttons)) ≠ [] := by
            obtain ⟨rest, hicon⟩ := visible_linkButtons_cons b' buttons
            rw [hicon]
            exact List.cons_ne_nil _ _
          rw [linkButtons_cons_cons, visible_append, List.getLast?_append_of_ne_nil _ hne, hrest,
            List.getLast?_cons_cons]

/-- A message with links below is trimmed if its body is and its last label ends well. -/
theorem trimmed_message_iff (hbody : Trimmed (visible body)) (hne : body ≠ [] → visible body ≠ [])
    (h : ∀ b ∈ buttons, b.text ≠ []) :
    Trimmed (visible (Formatting.joined (text "\n\n") [body, linkButtons buttons])) ↔
      LabelEnds buttons := by
  have hlast : (∀ c ∈ (visible (linkButtons buttons)).getLast?, isSpace c = false) ↔
      LabelEnds buttons := by
    rw [getLast?_visible_linkButtons h, LabelEnds]
    simp only [Option.mem_def, Option.bind_eq_some_iff]
    exact ⟨fun hall b hb c hc => hall c ⟨b, hb, hc⟩, fun hall c ⟨b, hb, hc⟩ => hall b hb c hc⟩
  rw [Formatting.joined_pair]
  split
  · exact ⟨fun ht => hlast.mp ht.last,
      fun hends => ⟨head?_visible_linkButtons buttons, hlast.mpr hends⟩⟩
  · next hsome =>
      split
      · next hnone =>
          rw [Formatting.linkButtons_eq_nil.mp hnone]
          exact iff_of_true hbody nofun
      · next hlinks =>
          have hlinksNe : visible (linkButtons buttons) ≠ [] := by
            cases buttons with
            | nil => exact absurd rfl hlinks
            | cons b buttons =>
                obtain ⟨rest, hicon⟩ := visible_linkButtons_cons b buttons
                rw [hicon]
                exact List.cons_ne_nil _ _
          rw [visible_append, visible_append, visible_chars]
          constructor
          · intro ht
            apply hlast.mp
            rw [← List.getLast?_append_of_ne_nil _ hlinksNe]
            exact ht.last
          · intro hends
            exact hbody.append ⟨head?_visible_linkButtons buttons, hlast.mpr hends⟩ (hne hsome)
              hlinksNe _

/-! ### The card -/

/-- What the handlers store for a card. -/
structure StoredCard (card : MeCard) : Prop where
  text : Trimmed card.text
  link : ∀ link ∈ card.link, Trimmed link ∧ Linked link link
  buttons : ∀ b ∈ card.buttons, Linked b.url b.text

theorem readable_joined {sep : Text} {parts : List (List Token)}
    (h : ∀ ts ∈ parts, ∀ t ∈ ts, HtmlParser.Readable t) :
    ∀ t ∈ Formatting.joined sep parts, HtmlParser.Readable t :=
  readable_intercalate fun ts hts => h ts (List.mem_of_mem_filter hts)

theorem StoredCard.readable {card : MeCard} (stored : StoredCard card) :
    ∀ t ∈ meCard card, HtmlParser.Readable t := by
  have hlink : ∀ t ∈ ((given card.link).map fun link => Formatting.linkTokens link link).getD [],
      HtmlParser.Readable t := by
    cases hgiven : given card.link with
    | none => exact List.forall_mem_nil _
    | some link => exact readable_linkTokens (stored.link link (Formatting.mem_of_given hgiven)).2
  have hbody : ∀ t ∈ Formatting.cardBody card, HtmlParser.Readable t :=
    readable_joined (List.forall_mem_cons.mpr
      ⟨readable_chars _, List.forall_mem_singleton.mpr hlink⟩)
  exact readable_joined (List.forall_mem_cons.mpr
    ⟨hbody, List.forall_mem_singleton.mpr (readable_linkButtons stored.buttons)⟩)

theorem trimmed_visible_link {link : Text} (h : Trimmed link) (hne : link ≠ []) :
    Trimmed (visible (Formatting.linkTokens link link)) where
  first := by
    rw [visible_linkTokens]
    exact isSpace_head?_icon link
  last := by
    rw [visible_linkTokens, List.getLast?_append_of_ne_nil _ hne]
    exact h.last

theorem StoredCard.trimmed_body {card : MeCard} (stored : StoredCard card) :
    Trimmed (visible (Formatting.cardBody card)) ∧
      (Formatting.cardBody card ≠ [] → visible (Formatting.cardBody card) ≠ []) := by
  rw [Formatting.cardBody, Formatting.joined_pair]
  simp only [Formatting.chars_eq_nil]
  cases hgiven : given card.link with
  | none =>
      rw [Option.map_none, Option.getD_none, if_pos rfl]
      split
      · exact ⟨trimmed_nil, fun h => absurd rfl h⟩
      · next hne =>
          rw [visible_chars]
          exact ⟨stored.text, fun _ => hne⟩
  | some link =>
      obtain ⟨hlink, hlinked⟩ := stored.link link (Formatting.mem_of_given hgiven)
      have htrimmed := trimmed_visible_link hlink hlinked.label
      have hlinkNe : visible (Formatting.linkTokens link link) ≠ [] := by
        rw [visible_linkTokens]
        exact List.cons_ne_nil _ _
      rw [Option.map_some, Option.getD_some]
      split
      · exact ⟨htrimmed, fun _ => hlinkNe⟩
      · next hne =>
          have hsome : Formatting.linkTokens link link ≠ [] := List.cons_ne_nil _ _
          rw [if_neg hsome, visible_append, visible_append, visible_chars,
            visible_chars]
          refine ⟨stored.text.append htrimmed hne hlinkNe _, fun _ hnil => ?_⟩
          exact hlinkNe (List.append_eq_nil_iff.mp hnil).2

/-- The card shows its texts exactly if its last label ends well. -/
theorem meSent_iff {card : MeCard} (stored : StoredCard card) :
    p.shown (meMessage card) = visible (meCard card) ↔ LabelEnds card.buttons := by
  obtain ⟨htrimmed, hne⟩ := stored.trimmed_body
  rw [← Formatting.render_meCard stored.text, HtmlParser.shown_render_iff stored.readable]
  exact trimmed_message_iff htrimmed hne fun b hb => (stored.buttons b hb).label

/-! ### The reply -/

/-- The reply shows the message exactly if Telethon finds no reference in it and, without links
below, does not wait for the end of one, and if its last label ends well. -/
theorem replySent_iff {ar : Autoresponder} (hmessage : Trimmed ar.message)
    (hbuttons : ∀ b ∈ ar.buttons, Linked b.url b.text) (htag : ofChar '<' ∉ ar.message) :
    p.shown (respondText ar) = visible (reply ar) ↔
      p.Literal ar.message ∧ (ar.buttons = [] → p.waits ar.message = false) ∧
        LabelEnds ar.buttons := by
  have hreadable := readable_linkButtons hbuttons
  have hbody : Trimmed (visible (chars ar.message)) := by rwa [visible_chars]
  have hne : chars ar.message ≠ [] → visible (chars ar.message) ≠ [] := by
    rw [visible_chars, ne_eq, Formatting.chars_eq_nil]
    exact id
  have htrimmed := trimmed_message_iff hbody hne fun b hb => (hbuttons b hb).label
  rw [respondText, reply]
  by_cases hnone : ar.buttons = []
  · have hlabel : LabelEnds ar.buttons := by
      rw [hnone]
      exact nofun
    have hbody : Formatting.joined (text "\n\n") [chars ar.message, linkButtons ar.buttons] =
        chars ar.message := by
      rw [Formatting.joined_pair, Formatting.linkButtons_eq_nil.mpr hnone]
      simp
    rw [if_neg fun h => h hnone, hbody, visible_chars,
      HtmlParser.shown_text_iff htag hmessage, imp_iff_right hnone, and_iff_left hlabel]
  · rw [if_pos hnone, ← htrimmed]
    by_cases hempty : ar.message = []
    · rw [if_neg fun h => h hempty, ← Formatting.render_linkButtons, hempty,
        Formatting.joined_pair, chars_nil, if_pos rfl, HtmlParser.shown_render_iff hreadable]
      exact (and_iff_right CharRefs.literal_nil).trans (and_iff_right fun h => absurd h hnone)
        |>.symm
    · have hchars : chars ar.message ≠ [] := fun h => hempty (Formatting.chars_eq_nil.mp h)
      have hlinks : linkButtons ar.buttons ≠ [] :=
        fun h => hnone (Formatting.linkButtons_eq_nil.mp h)
      rw [if_pos hempty, ← Formatting.render_linkButtons, Formatting.joined_pair, if_neg hchars,
        if_neg hlinks, visible_append, visible_append, visible_chars, visible_chars,
        HtmlParser.shown_text_render_iff htag hreadable]
      exact and_congr_right fun _ => (and_iff_right fun h => absurd h hnone).symm

end Telethon

/-! ## Entered texts in what is shown -/

/-- The markup is well formed, and the texts are in what it shows. -/
def Shows (d : Dialect) (s : Text) (texts : List Text) : Prop :=
  ∃ ts, parse d s = some ts ∧ ∀ entered ∈ texts, entered <:+: visible ts

theorem infix_intercalate {α : Type} {sep piece : List α} {pieces : List (List α)}
    (h : piece ∈ pieces) : piece <:+: sep.intercalate pieces := by
  induction pieces with
  | nil => cases h
  | cons first pieces ih =>
      cases pieces with
      | nil => rw [List.intercalate_singleton, List.mem_singleton.mp h]
      | cons second pieces =>
          rw [List.intercalate_cons_cons]
          obtain rfl | hrest := List.mem_cons.mp h
          · rw [List.append_assoc]
            exact List.infix_append_left
          · exact List.infix_append_of_infix_right (ih hrest)

theorem infix_joined {sep : Text} {ts : List Token} {parts : List (List Token)}
    (h : ts ∈ parts) : ts <:+: Formatting.joined sep parts := by
  cases ts with
  | nil => exact List.nil_infix
  | cons t ts => exact infix_intercalate (List.mem_filter.mpr ⟨h, rfl⟩)

theorem infix_linkTokens (url label : Text) : chars label <:+: Formatting.linkTokens url label :=
  List.infix_append_of_infix_right ⟨[_], [_], rfl⟩

theorem infix_visible {s : Text} {ts : List Token} (h : chars s <:+: ts) : s <:+: visible ts := by
  have hvisible : visible (chars s) <:+: visible ts := h.filterMap _
  rwa [visible_chars] at hvisible

/-- A card shows its text, its link and the labels of its buttons. -/
theorem infix_meCard (card : MeCard) : ∀ s ∈ entered card, chars s <:+: meCard card := by
  have hbody : Formatting.cardBody card <:+: meCard card := infix_joined List.mem_cons_self
  intro s hs
  rw [entered, List.mem_cons, List.mem_append] at hs
  obtain rfl | hlink | hlabel := hs
  · exact List.IsInfix.trans (infix_joined List.mem_cons_self) hbody
  · cases hgiven : given card.link with
    | none =>
        by_cases hnil : s = []
        · rw [hnil]
          exact List.nil_infix
        · rw [Option.mem_toList.mp hlink, Formatting.given_some hnil] at hgiven
          cases hgiven
    | some link =>
        have hsame : link = s := Option.some.inj
          ((Formatting.mem_of_given hgiven).symm.trans (Option.mem_toList.mp hlink))
        have hpart : Formatting.linkTokens s s <:+: Formatting.cardBody card := by
          apply infix_joined
          rw [hgiven, hsame]
          exact List.mem_cons_of_mem _ List.mem_cons_self
        exact ((infix_linkTokens s s).trans hpart).trans hbody
  · obtain ⟨b, hb, rfl⟩ := List.mem_map.mp hlabel
    have hlinks : linkButtons card.buttons <:+: meCard card :=
      infix_joined (List.mem_cons_of_mem _ List.mem_cons_self)
    have hpart : Formatting.linkTokens b.url b.text <:+: linkButtons card.buttons :=
      infix_intercalate (List.mem_map.mpr ⟨b, hb, rfl⟩)
    exact ((infix_linkTokens b.url b.text).trans hpart).trans hlinks

/-- The lines of a preview have the texts in them. -/
theorem infix_renderMePreview (card : MeCard) (lang : Language) :
    ∀ s ∈ entered card, s <:+: renderMePreview card lang := by
  intro s hs
  by_cases hnil : s = []
  · rw [hnil]
    exact List.nil_infix
  have hline : ∃ line ∈ mePreviewLines card lang, s <:+: line := by
    rw [entered, List.mem_cons, List.mem_append] at hs
    simp only [mePreviewLines, List.mem_append]
    obtain rfl | hlink | hlabel := hs
    · refine ⟨card.text, .inl (.inl (.inl ?_)), List.infix_rfl⟩
      rw [if_pos hnil]
      exact List.mem_cons_self
    · refine ⟨text "🔗 " ++ s, .inl (.inl (.inr ?_)), List.infix_append_right⟩
      rw [Option.mem_toList.mp hlink, Formatting.given_some hnil]
      exact List.mem_cons_self
    · have hbuttons : card.buttons ≠ [] := by
        intro hempty
        rw [hempty] at hlabel
        cases hlabel
      have hline : s <:+: text "🔘 " ++ (text ", ").intercalate
          (card.buttons.map LinkButton.text) :=
        List.infix_append_of_infix_right (infix_intercalate hlabel)
      refine ⟨_, .inr ?_, hline⟩
      rw [if_pos hbuttons]
      exact List.mem_cons_self
  obtain ⟨line, hline, hsub⟩ := hline
  have hnonempty : isEmpty card = false := by
    by_contra hempty
    exact hnil (entered_of_isEmpty (Bool.eq_true_of_not_eq_false hempty) s hs)
  rw [renderMePreview, hnonempty, if_neg Bool.false_ne_true]
  exact hsub.trans (infix_intercalate hline)

/-- The same for what the userbot sends. -/
def Sends (p : HtmlParser) (s : Text) (texts : List Text) : Prop :=
  ∀ entered ∈ texts, entered <:+: p.shown s

theorem infix_renderArPreview (ar : Autoresponder) (lang : Language) :
    ar.message <:+: renderArPreview ar lang := by
  by_cases hnil : ar.message = []
  · rw [hnil]
    exact List.nil_infix
  · rw [renderArPreview, if_pos hnil]
    simp only [List.append_assoc]
    exact List.infix_append_of_infix_right
      (List.infix_append_of_infix_right List.infix_append_left)

/-- All that was entered is in what each renderer shows. -/
structure ShowsAll (d : Dialect) (p : HtmlParser) (lang : Language) (card : MeCard)
    (ar : Autoresponder) : Prop where
  me : Shows d (meMessage card) (entered card)
  meSent : Sends p (meMessage card) (entered card)
  mePreview : Shows d (renderMePreview card lang) (entered card)
  arPreview : Shows d (renderArPreview ar lang) [ar.message]
  reply : Shows d (respondText ar) [ar.message]
  replySent : Sends p (respondText ar) [ar.message]

theorem Verbatim.shows {d : Dialect} {p : HtmlParser} {lang : Language} {card : MeCard}
    {ar : Autoresponder} (h : Verbatim d p lang card ar) : ShowsAll d p lang card ar where
  me := ⟨_, h.me, fun s hs => infix_visible (infix_meCard card s hs)⟩
  meSent s hs := by
    rw [h.meSent]
    exact infix_visible (infix_meCard card s hs)
  mePreview := by
    refine ⟨_, h.mePreview, fun s hs => ?_⟩
    rw [visible_chars]
    exact infix_renderMePreview card lang s hs
  arPreview := by
    refine ⟨_, h.arPreview, List.forall_mem_singleton.mpr ?_⟩
    rw [visible_chars]
    exact infix_renderArPreview ar lang
  reply := ⟨_, h.reply, List.forall_mem_singleton.mpr
    (infix_visible (infix_joined List.mem_cons_self))⟩
  replySent := by
    rw [Sends, List.forall_mem_singleton, h.replySent]
    exact infix_visible (infix_joined List.mem_cons_self)

/-! ## What the handlers have stored -/

/-- An address that is valid is no mail address. -/
theorem not_mailto {url : Text} (trimmed : Trimmed url) (valid : isValidUrl url = true) :
    ¬text "mailto:" <+: url := by
  intro hmail
  obtain ⟨scheme, hscheme, hprefix⟩ := (isValidUrl_iff trimmed).mp valid
  have hapart : ∀ scheme ∈ ALLOWED_URL_SCHEMES,
      ¬scheme <+: text "mailto:" ∧ ¬text "mailto:" <+: scheme := by decide
  obtain hle | hle := List.prefix_or_prefix_of_prefix hprefix hmail
  · exact (hapart scheme hscheme).1 hle
  · exact (hapart scheme hscheme).2 hle

theorem linked_of_mem_firstButtons {raw : Text} :
    ∀ b ∈ firstButtons raw, Linked b.url b.text := by
  intro b hb
  obtain ⟨hlabel, htrimmed, hvalid⟩ := valid_of_mem_firstButtons hb
  exact ⟨not_mailto htrimmed hvalid, hlabel⟩

/-- A link that is accepted can be shown as a link with itself as its label. -/
theorem linked_of_accepted {message link : Text} (haccepted : ¬RefusedLink message)
    (hlink : linkOf message = some link) : Trimmed link ∧ Linked link link := by
  have htrimmed : Trimmed link := (linkOf_eq_some_iff.mp hlink).1 ▸ trimmed_strip message
  have hvalid : isValidUrl link = true := by
    by_contra hrefused
    exact haccepted ⟨link, hlink, Bool.eq_false_of_not_eq_true hrefused⟩
  refine ⟨htrimmed, not_mailto htrimmed hvalid, ?_⟩
  rintro rfl
  exact absurd hvalid (by decide)

/-- What has been stored of an autoresponder. -/
structure StoredAr (ar : Autoresponder) : Prop where
  normal : ar.Normal
  message : Trimmed ar.message
  buttons : ∀ b ∈ ar.buttons, Linked b.url b.text

theorem storedCard_foldl (inputs : List Settings.Input)
    (haccepted : ∀ input ∈ inputs, ∃ known : Prop, input.Accepted known) :
    StoredCard (inputs.foldl Settings.Input.apply {}).me := by
  refine ⟨Formatting.trimmed_foldl inputs, ?_, ?_⟩
  · induction inputs using List.reverseRecOn with
    | nil => exact nofun
    | append_singleton inputs input ih =>
        have hbefore := ih fun input hinput => haccepted input (List.mem_append_left _ hinput)
        rw [List.foldl_append]
        cases input with
        | meLink message =>
            obtain ⟨_, hlink⟩ := haccepted _ (List.mem_append_right _ List.mem_cons_self)
            exact fun link => linked_of_accepted hlink
        | meClear => exact nofun
        | _ => exact hbefore
  · rw [meButtons_foldl]
    exact linked_of_mem_firstButtons

theorem trimmed_message_foldl (inputs : List Settings.Input) :
    Trimmed (inputs.foldl Settings.Input.apply {}).ar.message := by
  induction inputs using List.reverseRecOn with
  | nil => exact trimmed_nil
  | append_singleton inputs input ih =>
      rw [List.foldl_append]
      cases input with
      | arMessage message => exact trimmed_strip message
      | _ => exact ih

/-- The card and the autoresponder that are loaded for an owner after any actions. -/
theorem stored_records (actions : List Settings.Action) :
    ∃ db, Transition.exec handle {} actions = some db ∧
      ∀ telegramId userId, db.users.lookup telegramId = some userId →
        ∃ card ar, MeCard.fromDict (db.loadMeCard userId) = some card ∧
          Autoresponder.fromDict (db.loadAutoresponder userId) = some ar ∧
          StoredCard card ∧ StoredAr ar := by
  obtain ⟨db, hrun, hinv⟩ := inv_of_actions actions
  refine ⟨db, hrun, fun telegramId userId hlookup => ?_⟩
  have hknown : Known telegramId actions := by
    rw [← isSome_ownersAfter, hinv.known telegramId, hlookup]
    rfl
  have hstored := hinv.stored telegramId userId _ hlookup (if_pos hknown)
  rw [Database.loadMeCard_eq, Database.loadAutoresponder_eq]
  refine ⟨_, _, hstored.me, hstored.ar, ?_, hstored.normal, trimmed_message_foldl _, ?_⟩
  · exact storedCard_foldl _ fun _ => accepted_of_mem_edits
  · rw [profile, arButtons_foldl]
    exact linked_of_mem_firstButtons

/-- The texts that no renderer changes: without tags and references for Telegram, the message
without references for Telethon and, unless links follow it, without one that may be cut off at
its end, and no last label that was cut at a blank. -/
structure Harmless (d : Dialect) (p : HtmlParser) (card : MeCard) (ar : Autoresponder) :
    Prop where
  texts : ∀ s ∈ entered card, Plain d s
  cardLabel : LabelEnds card.buttons
  message : Plain d ar.message
  literal : p.Literal ar.message
  ends : ar.buttons = [] → p.waits ar.message = false
  label : LabelEnds ar.buttons

theorem verbatim_iff_harmless {d : Dialect} {p : HtmlParser} {lang : Language} {card : MeCard}
    {ar : Autoresponder} (storedCard : StoredCard card) (storedAr : StoredAr ar) :
    Verbatim d p lang card ar ↔ Harmless d p card ar := by
  constructor
  · intro h
    have hmessage := (arPreview_iff storedAr.normal lang).mp h.arPreview
    have hsent := (replySent_iff storedAr.message storedAr.buttons hmessage.noTag).mp h.replySent
    exact ⟨(mePreview_iff card lang).mp h.mePreview, (meSent_iff storedCard).mp h.meSent,
      hmessage, hsent.1, hsent.2.1, hsent.2.2⟩
  · intro h
    exact ⟨(Formatting.readsAs_meCard d storedCard.text).parsed,
      (meSent_iff storedCard).mpr h.cardLabel, (mePreview_iff card lang).mpr h.texts,
      (arPreview_iff storedAr.normal lang).mpr h.message, (reply_iff ar).mpr h.message,
      (replySent_iff storedAr.message storedAr.buttons h.message.noTag).mpr
        ⟨h.literal, h.ends, h.label⟩⟩

/-- After any edits the stored texts are shown unchanged by every renderer exactly if they are
harmless. -/
theorem verbatim_iff_plain (d : Dialect) (p : HtmlParser) (lang : Language)
    (actions : List Settings.Action) :
    ∃ db, Transition.exec handle {} actions = some db ∧
      ∀ telegramId userId, db.users.lookup telegramId = some userId →
        ∃ card ar, MeCard.fromDict (db.loadMeCard userId) = some card ∧
          Autoresponder.fromDict (db.loadAutoresponder userId) = some ar ∧
          (Verbatim d p lang card ar ↔ Harmless d p card ar) ∧
          (Verbatim d p lang card ar → ShowsAll d p lang card ar) := by
  obtain ⟨db, hrun, hstored⟩ := stored_records actions
  refine ⟨db, hrun, fun telegramId userId hlookup => ?_⟩
  obtain ⟨card, ar, hcard, har, storedCard, storedAr⟩ := hstored telegramId userId hlookup
  exact ⟨card, ar, hcard, har, verbatim_iff_harmless storedCard storedAr, Verbatim.shows⟩

/-! ## Messages that are shown in another way -/

/-- Some of the references that Python knows, with and without a semicolon. -/
def someRefs : CharRefs where
  html5 name :=
    [(text "amp;", text "&"), (text "amp", text "&"), (text "lt;", text "<"),
      (text "lt", text "<"), (text "gt;", text ">"), (text "gt", text ">"),
      (text "quot;", text "\""), (text "quot", text "\"")].lookup name
  ofNumber n := if h : n < 0x110000 then [⟨n, h⟩] else [replacementChar]
  html5_bounds {name v} h := by
    obtain ⟨before, after, heq, -⟩ := List.lookup_eq_some_iff.mp h
    have hall : ∀ e ∈ [(text "amp;", text "&"), (text "amp", text "&"), (text "lt;", text "<"),
        (text "lt", text "<"), (text "gt;", text ">"), (text "gt", text ">"),
        (text "quot;", text "\""), (text "quot", text "\"")],
          2 ≤ e.1.length ∧ e.2.length ≤ 2 := by decide
    exact hall (name, v) (heq ▸ List.mem_append_right _ List.mem_cons_self)
  length_ofNumber n := by split <;> exact Nat.le_refl 1
  amp := by decide
  lt := by decide
  gt := by decide
  quot := by decide

/-- Start tags with an address or without attributes, and end tags. -/
def simpleTagAt (r : CharRefs) (s : Text) : Option (List Token × Nat) :=
  if text "/" <+: s then
    let name := (s.drop 1).takeWhile isNameChar
    if text ">" <+: (s.drop 1).drop name.length then
      some ([.closing name], name.length + 2)
    else none
  else
    let name := s.takeWhile isNameChar
    let after := s.drop name.length
    if text ">" <+: after then some ([.opening name []], name.length + 1)
    else if text " href=\"" <+: after then
      let raw := (after.drop 7).takeWhile (· ≠ ofChar '"')
      if text "\">" <+: (after.drop 7).drop raw.length then
        some ([.opening name [(text "href", r.unescape raw)]], name.length + raw.length + 9)
      else none
    else none

theorem simpleTagAt_link {r : CharRefs} {raw : Text} (hquote : ofChar '"' ∉ raw) (s : Text) :
    simpleTagAt r (text "a href=\"" ++ raw ++ text "\">" ++ s) =
      some ([.opening (text "a") [(text "href", r.unescape raw)]], raw.length + 10) := by
  have hall : ∀ c ∈ raw, decide (c ≠ ofChar '"') = true := fun c hc =>
    decide_eq_true fun heq => hquote (heq ▸ hc)
  have hraw : (raw ++ (text "\">" ++ s)).takeWhile (· ≠ ofChar '"') = raw := by
    show (raw ++ ofChar '"' :: (text ">" ++ s)).takeWhile _ = raw
    rw [CharRefs.takeWhile_append_stop _ (by decide), List.takeWhile_eq_self_iff.mpr hall]
  have hname : (text "a href=\"" ++ (raw ++ (text "\">" ++ s))).takeWhile isNameChar =
      text "a" := rfl
  have hafter : (text "a href=\"" ++ (raw ++ (text "\">" ++ s))).drop (text "a").length =
      text " href=\"" ++ (raw ++ (text "\">" ++ s)) := rfl
  have hdrop : (text " href=\"" ++ (raw ++ (text "\">" ++ s))).drop 7 =
      raw ++ (text "\">" ++ s) := rfl
  have hslash : ¬text "/" <+: text "a href=\"" ++ (raw ++ (text "\">" ++ s)) := fun h =>
    absurd (List.cons_prefix_cons.mp h).1 (by decide)
  have hclose : ¬text ">" <+: text " href=\"" ++ (raw ++ (text "\">" ++ s)) := fun h =>
    absurd (List.cons_prefix_cons.mp h).1 (by decide)
  rw [List.append_assoc, List.append_assoc, simpleTagAt, if_neg hslash, hname]
  simp only [hafter, hdrop, hraw, List.drop_left]
  rw [if_neg hclose, if_pos (List.prefix_append _ _), if_pos (List.prefix_append _ _)]
  have hlength : (text "a").length + raw.length + 9 = raw.length + 10 := by
    have hone : (text "a").length = 1 := rfl
    omega
  rw [hlength]

theorem simpleTagAt_linkEnd (r : CharRefs) (s : Text) :
    simpleTagAt r (text "/a>" ++ s) = some ([.closing (text "a")], 3) := by
  have hslash : text "/" <+: text "/a>" ++ s := ⟨text "a>" ++ s, rfl⟩
  have hclose : text ">" <+: ((text "/a>" ++ s).drop 1).drop
      (((text "/a>" ++ s).drop 1).takeWhile isNameChar).length := ⟨s, rfl⟩
  rw [simpleTagAt, if_pos hslash]
  exact if_pos hclose

def telethonHtml : HtmlParser where
  toCharRefs := someRefs
  isBlank := isSpace
  isBlank_newline := by decide
  tagAt := simpleTagAt someRefs
  tagAt_link url s _ := by
    rw [simpleTagAt_link (quote_not_mem_escapeAttr url), someRefs.unescape_escapeAttr]
  tagAt_linkEnd := simpleTagAt_linkEnd someRefs

/-- A text with an angle bracket, and a message with a reference that has no semicolon. -/
def comparing : List Settings.Action :=
  [⟨700, .meText (text "2 < 3")⟩, ⟨700, .arMessage (text "5 &gt 3")⟩]

/-- A card with a link and a button, and a message with an `&` that the parser waits behind. -/
def calling : List Settings.Action :=
  [⟨700, .meText (text "shop & bar")⟩, ⟨700, .meLink (text "https://t.me/a?b=1&c")⟩,
    ⟨700, .meButtons (text "A & B | https://t.me/x")⟩, ⟨700, .arMessage (text "call AT&T")⟩]

theorem calling_verbatim :
    ∃ db, Transition.exec handle {} calling = some db ∧
      ∃ card ar, MeCard.fromDict (db.loadMeCard 1) = some card ∧
        Autoresponder.fromDict (db.loadAutoresponder 1) = some ar ∧
        (Verbatim Formatting.telegramHtml telethonHtml .en card ar ↔
          Harmless Formatting.telegramHtml telethonHtml card ar) := by
  obtain ⟨db, hrun, hcards⟩ := verbatim_iff_plain Formatting.telegramHtml telethonHtml .en calling
  have hlookup : (Transition.exec handle {} calling).bind
      (fun db => db.users.lookup 700) = some 1 := by decide +kernel
  rw [hrun] at hlookup
  obtain ⟨card, ar, hcard, har, hiff, -⟩ := hcards 700 1 hlookup
  exact ⟨db, hrun, card, ar, hcard, har, hiff⟩

theorem not_sends {p : HtmlParser} {s entered shown : Text} (hshown : p.shown s = shown)
    (hlength : shown.length < entered.length) : ¬Sends p s [entered] := by
  intro h
  have hinfix := (List.forall_mem_singleton.mp h).length_le
  rw [hshown] at hinfix
  omega

/-- The card is sent as it is, but its preview is refused. The preview of the message shows it as
it is, but the reply shows `5 > 3`. Other messages lose their tags or are lost. -/
theorem comparing_not_shown :
    ∃ db card ar, Transition.exec handle {} comparing = some db ∧
      MeCard.fromDict (db.loadMeCard 1) = some card ∧
      Autoresponder.fromDict (db.loadAutoresponder 1) = some ar ∧
      telethonHtml.shown (meMessage card) = text "2 < 3" ∧
      ¬Shows Formatting.telegramHtml (renderMePreview card .en) (entered card) ∧
      Plain Formatting.telegramHtml ar.message ∧
      ¬Sends telethonHtml (respondText ar) [ar.message] ∧
      ¬Sends telethonHtml (respondText { message := text "<b>away</b>" })
        [text "<b>away</b>"] ∧
      ¬Sends telethonHtml (respondText { message := text "call AT&T" }) [text "call AT&T"] := by
  obtain ⟨db, hrun, -⟩ := stored_records comparing
  have hcard : (Transition.exec handle {} comparing).bind
      (fun db => MeCard.fromDict (db.loadMeCard 1)) = some { text := text "2 < 3" } := by
    decide +kernel
  have har : (Transition.exec handle {} comparing).bind
      (fun db => Autoresponder.fromDict (db.loadAutoresponder 1)) =
        some { message := text "5 &gt 3" } := by
    decide +kernel
  have hcompared : telethonHtml.shown (respondText { message := text "5 &gt 3" }) =
      text "5 > 3" := by decide +kernel
  have htags : telethonHtml.shown (respondText { message := text "<b>away</b>" }) =
      text "away" := by decide +kernel
  have hlost : telethonHtml.shown (respondText { message := text "call AT&T" }) = [] := by
    decide +kernel
  have hplain : Plain Formatting.telegramHtml (text "5 &gt 3") :=
    ⟨by decide, noReference_of_no_semicolon (by decide)⟩
  rw [hrun] at hcard har
  refine ⟨db, _, _, hrun, hcard, har, by decide +kernel, ?_, hplain,
    not_sends hcompared (by decide), not_sends htags (by decide), not_sends hlost (by decide)⟩
  rintro ⟨ts, hparse, -⟩
  have hrefused : parse Formatting.telegramHtml
      (renderMePreview { text := text "2 < 3" } .en) = none := by decide +kernel
  rw [hrefused] at hparse
  cases hparse

end UserTgBot.Preview
