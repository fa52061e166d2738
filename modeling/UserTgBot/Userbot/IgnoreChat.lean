import UserTgBot.Library.PyInt
import UserTgBot.Library.Utf8

/-!
# The button that ignores a chat

`_ignore_chat_kb` of `userbot/handlers/autosave.py` writes the chat and its title into the
callback data of a button, which Telegram limits to 64 bytes, and `on_ignore_chat` of
`manager_bot/handlers.py` reads them when the button is tapped. The title is cut to a budget of
bytes before.
-/

namespace UserTgBot.IgnoreChat

open PyText

def TITLE_BYTE_BUDGET : Nat := 28

/-- The limit for `callback_data`. -/
def callbackDataLimit : Nat := 64

/-- `_truncate_utf8`; nothing if it raises. -/
def truncateUtf8 (s : Text) (maxBytes : Nat) : Option Text := do
  let raw ← encodeUtf8 s
  if raw.length ≤ maxBytes then return s
  return decodeUtf8Ignore (raw.take maxBytes)

/-- The title without colons, trimmed. -/
def sanitized (chatTitle : Option Text) : Text :=
  strip (replace (chatTitle.getD []) (ofChar ':') (ofChar ' '))

/-- The callback data of `_ignore_chat_kb`. -/
def ignoreChatKb (chatId : Int) (chatTitle : Option Text) : Option Text := do
  let safeTitle ← truncateUtf8 (sanitized chatTitle) TITLE_BYTE_BUDGET
  return text "ignore_chat:" ++ strOfInt chatId ++ ofChar ':' :: safeTitle

/-- What `on_ignore_chat` takes from the callback data; nothing if another handler gets it or
it raises. -/
def onIgnoreChat (data : Text) : Option (Int × Option Text) :=
  if (text "ignore_chat:").isPrefixOf data then
    match data.splitOn (ofChar ':') with
    | _ :: chatIdStr :: titleParts => do
        let chatId ← intOfText chatIdStr
        let chatTitle := strip ([ofChar ':'].intercalate titleParts)
        return (chatId, if chatTitle = [] then none else some chatTitle)
    | _ => none
  else none

section RoundTrip

variable {s : Text} {chatId : Int} {chatTitle : Option Text}

/-- Where nothing is cut and where something is, the result is the longest prefix that fits. -/
theorem truncateUtf8_eq (h : Scalar s) (maxBytes : Nat) :
    truncateUtf8 s maxBytes = some (fitting maxBytes s) := by
  obtain ⟨raw, hraw, hlength⟩ := encodeUtf8_scalar h
  rw [truncateUtf8, hraw, Option.bind_eq_bind, Option.bind_some]
  by_cases hfits : raw.length ≤ maxBytes
  · rw [if_pos hfits, fitting_eq_self (hlength ▸ hfits)]
    rfl
  · rw [if_neg hfits, decodeUtf8Ignore_take h hraw]
    rfl

theorem mem_sanitized {c : CodePoint} (h : c ∈ sanitized chatTitle) :
    c ≠ ofChar ':' ∧ (c = ofChar ' ' ∨ ∃ title ∈ chatTitle, c ∈ title) := by
  obtain ⟨d, hd, rfl⟩ := List.mem_map.mp (mem_of_mem_strip h)
  by_cases hcolon : d = ofChar ':'
  · rw [if_pos hcolon]
    exact ⟨by decide, .inl rfl⟩
  · rw [if_neg hcolon]
    cases chatTitle with
    | none => exact absurd hd List.not_mem_nil
    | some title => exact ⟨hcolon, .inr ⟨title, rfl, hd⟩⟩

theorem scalar_sanitized (h : ∀ title ∈ chatTitle, Scalar title) :
    Scalar (sanitized chatTitle) := by
  intro c hc
  obtain ⟨-, rfl | ⟨title, htitle, hc⟩⟩ := mem_sanitized hc
  · decide
  · exact h title htitle c hc

/-- ASCII texts have as many bytes as characters. -/
theorem byteCount_of_ascii (h : ∀ c ∈ s, isAscii c = true) : byteCount s = s.length := by
  induction s with
  | nil => rfl
  | cons c s ih =>
      obtain ⟨hc, hs⟩ := List.forall_mem_cons.mp h
      rw [byteCount_cons, width_of_ascii (of_decide_eq_true hc), ih hs, List.length_cons, Nat.add_comm]

theorem scalar_of_ascii (h : ∀ c ∈ s, isAscii c = true) : Scalar s := by
  intro c hc
  have hlow : c.val < 0x80 := of_decide_eq_true (h c hc)
  simp only [isSurrogate, Bool.and_eq_false_iff, decide_eq_false_iff_not]
  omega

theorem strOfInt_ascii (n : Int) : ∀ c ∈ strOfInt n, isAscii c = true := by
  intro c hc
  obtain rfl | hdigit := mem_strOfInt hc
  · decide
  · have hhigh := hdigit.2
    apply decide_eq_true
    omega

theorem colon_notMem_strOfInt (n : Int) : ofChar ':' ∉ strOfInt n := by
  intro hmem
  obtain hminus | hdigit := mem_strOfInt hmem
  · exact absurd hminus (by decide)
  · exact absurd hdigit (by decide)

/-- A 64-bit number has at most 19 digits. -/
theorem length_strOfNat_of_int64 (h : -2 ^ 63 ≤ chatId ∧ chatId < 2 ^ 63) :
    (strOfNat chatId.natAbs).length ≤ 19 := by
  apply length_strOfNat_le (by decide)
  omega

theorem length_strOfInt_le (n : Int) : (strOfInt n).length ≤ (strOfNat n.natAbs).length + 1 := by
  rw [strOfInt]
  split
  · exact Nat.le_refl _
  · exact Nat.le_succ _

/-- The data splits at the two colons that were put in. -/
theorem splitOn_data {title : Text} (h : ofChar ':' ∉ title) :
    (text "ignore_chat:" ++ strOfInt chatId ++ ofChar ':' :: title).splitOn (ofChar ':') =
      [text "ignore_chat", strOfInt chatId, title] := by
  have hplain : ∀ piece ∈ [text "ignore_chat", strOfInt chatId, title],
      ofChar ':' ∉ piece := by
    intro piece hpiece
    simp only [List.mem_cons, List.not_mem_nil, or_false] at hpiece
    obtain rfl | rfl | rfl := hpiece
    · decide
    · exact colon_notMem_strOfInt chatId
    · exact h
  have hjoin : text "ignore_chat:" ++ strOfInt chatId ++ ofChar ':' :: title =
      [ofChar ':'].intercalate [text "ignore_chat", strOfInt chatId, title] := by
    have hfirst : text "ignore_chat:" = text "ignore_chat" ++ [ofChar ':'] := rfl
    rw [hfirst]
    simp [List.intercalate]
  rw [hjoin]
  exact List.splitOn_intercalate (ofChar ':') hplain (List.cons_ne_nil _ _)

theorem onIgnoreChat_data {title : Text} (hid : -2 ^ 63 ≤ chatId ∧ chatId < 2 ^ 63)
    (h : ofChar ':' ∉ title) :
    onIgnoreChat (text "ignore_chat:" ++ strOfInt chatId ++ ofChar ':' :: title) =
      some (chatId, if strip title = [] then none else some (strip title)) := by
  have hprefix : (text "ignore_chat:").isPrefixOf
      (text "ignore_chat:" ++ strOfInt chatId ++ ofChar ':' :: title) = true := by
    rw [List.isPrefixOf_iff_prefix, List.append_assoc]
    exact List.prefix_append _ _
  have hshort := (length_strOfNat_of_int64 hid).trans (by decide : 19 ≤ maxStrDigits)
  rw [onIgnoreChat, if_pos hprefix, splitOn_data h]
  simp [intOfText_strOfInt hshort, List.intercalate]

/-- The callback data of a 64-bit chat id and any title stays within the limit, and what is
read from it is the chat id and the longest prefix of the sanitized title that fits into the
budget, trimmed, or no title if that is empty. -/
theorem ignoreChat_roundTrip (hid : -2 ^ 63 ≤ chatId ∧ chatId < 2 ^ 63)
    (hscalar : ∀ title ∈ chatTitle, Scalar title) :
    ∃ data raw kept, ignoreChatKb chatId chatTitle = some data ∧ encodeUtf8 data = some raw ∧
      raw.length ≤ callbackDataLimit ∧
      LongestFitting TITLE_BYTE_BUDGET (sanitized chatTitle) kept ∧
      onIgnoreChat data =
        some (chatId, if strip kept = [] then none else some (strip kept)) := by
  have hsafe := scalar_sanitized hscalar
  have hkept := longestFitting_fitting TITLE_BYTE_BUDGET (sanitized chatTitle)
  generalize hcut : fitting TITLE_BYTE_BUDGET (sanitized chatTitle) = kept at hkept
  have hkeptScalar : Scalar kept := fun c hc => hsafe c (hkept.isPrefix.subset hc)
  have hcolon : ofChar ':' ∉ kept := fun hc =>
    (mem_sanitized (hkept.isPrefix.subset hc)).1 rfl
  have hascii : ∀ c ∈ text "ignore_chat:", isAscii c = true :=
    List.all_eq_true.mp (by decide)
  have hscalarData : Scalar (text "ignore_chat:" ++ strOfInt chatId ++ ofChar ':' :: kept) := by
    intro c hc
    rw [List.mem_append, List.mem_append, List.mem_cons] at hc
    obtain (hc | hc) | rfl | hc := hc
    · exact scalar_of_ascii hascii c hc
    · exact scalar_of_ascii (strOfInt_ascii chatId) c hc
    · decide
    · exact hkeptScalar c hc
  obtain ⟨raw, hraw, hlength⟩ := encodeUtf8_scalar hscalarData
  refine ⟨_, raw, kept, ?_, hraw, ?_, hkept, onIgnoreChat_data hid hcolon⟩
  · rw [ignoreChatKb, truncateUtf8_eq hsafe, hcut]
    rfl
  · have hprefix : byteCount (text "ignore_chat:") = 12 := by decide +kernel
    have hcolonWidth : width (ofChar ':') = 1 := by decide +kernel
    have hdigits := length_strOfNat_of_int64 hid
    have hsign := length_strOfInt_le chatId
    have hfits := hkept.fits
    rw [hlength, byteCount_append, byteCount_append, byteCount_cons, hprefix, hcolonWidth,
      byteCount_of_ascii (strOfInt_ascii chatId), callbackDataLimit]
    rw [TITLE_BYTE_BUDGET] at hfits
    omega

/-- A title of two-byte letters; the cut leaves a space at its end. -/
def longTitle : Text := text "Чат: дуже довга назва"

theorem longTitle_roundTrip :
    (ignoreChatKb (-1001234567890) (some longTitle)).bind onIgnoreChat =
      some (-1001234567890, some (text "Чат  дуже довга")) ∧
    ∃ data raw kept, ignoreChatKb (-1001234567890) (some longTitle) = some data ∧
      encodeUtf8 data = some raw ∧ raw.length ≤ callbackDataLimit ∧
      LongestFitting TITLE_BYTE_BUDGET (sanitized (some longTitle)) kept ∧
      onIgnoreChat data =
        some (-1001234567890, if strip kept = [] then none else some (strip kept)) := by
  refine ⟨by decide +kernel, ignoreChat_roundTrip (by decide) ?_⟩
  intro title htitle
  obtain rfl := Option.some.inj htitle
  decide +kernel

end RoundTrip

end UserTgBot.IgnoreChat
