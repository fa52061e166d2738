import UserTgBot.I18n.Choice
import UserTgBot.Library.PyText

/-!
# Texts in three languages

The rows of the table in `shared/i18n.py` that notices and previews are made of. A row has
one text for each language; a text may have one replacement field.
-/

namespace UserTgBot.I18n

open PyText (Text text ofChar)

/-- A key of the table. -/
inductive Key where
  | noteDeleted
  | noteEdited
  | noteArFired
  | noteChat
  | noteFrom
  | noteWas
  | noteNow
  | noteIncoming
  | kindPhoto
  | kindVoice
  | kindVideo
  | kindMedia
  | kindDocument
  | kindLocation
  | unknown
  | ubInfoMembers
  | ubInfoNoUsername
  | ubInfoPremium
  | ubInfoNoPremium
  | previewEmpty
  | previewNoText
  | arToggled
  | arStateOn
  | arStateOff
  | windowAllday
deriving DecidableEq, Repr

/-- `_TR[key]`: Ukrainian, Russian and English. -/
def Key.row : Key → String × String × String
  | .noteDeleted =>
      ("🗑 <b>Видалене повідомлення</b>", "🗑 <b>Удалённое сообщение</b>",
        "🗑 <b>Deleted message</b>")
  | .noteEdited =>
      ("✏️ <b>Змінене повідомлення</b>", "✏️ <b>Изменённое сообщение</b>", "✏️ <b>Edited message</b>")
  | .noteArFired =>
      ("🤖 <b>Автовідповідач спрацював</b>", "🤖 <b>Автоответчик сработал</b>",
        "🤖 <b>Autoresponder fired</b>")
  | .noteChat => ("Чат", "Чат", "Chat")
  | .noteFrom => ("Від", "От", "From")
  | .noteWas => ("Було", "Было", "Was")
  | .noteNow => ("Стало", "Стало", "Now")
  | .noteIncoming => ("Вхідне", "Входящее", "Incoming")
  | .kindPhoto => ("фото", "фото", "photo")
  | .kindVoice => ("голосове", "голосовое", "voice")
  | .kindVideo => ("відео", "видео", "video")
  | .kindMedia => ("медіа", "медиа", "media")
  | .kindDocument => ("файл", "файл", "file")
  | .kindLocation => ("локація", "локация", "location")
  | .unknown => ("невідомо", "неизвестно", "unknown")
  | .ubInfoMembers =>
      ("👥 Учасників: \x7bcount\x7d", "👥 Участников: \x7bcount\x7d", "👥 Members: \x7bcount\x7d")
  | .ubInfoNoUsername => ("🔗 без юзернейму", "🔗 без юзернейма", "🔗 no username")
  | .ubInfoPremium => ("⭐️ Premium", "⭐️ Premium", "⭐️ Premium")
  | .ubInfoNoPremium => ("◽️ без Premium", "◽️ без Premium", "◽️ no Premium")
  | .previewEmpty => ("Візитка порожня.", "Визитка пуста.", "Card is empty.")
  | .previewNoText => ("(без тексту)", "(без текста)", "(no text)")
  | .arToggled =>
      ("Автовідповідач \x7bstate\x7d", "Автоответчик \x7bstate\x7d", "Autoresponder \x7bstate\x7d")
  | .arStateOn => ("увімкнено", "включён", "on")
  | .arStateOff => ("вимкнено", "выключен", "off")
  | .windowAllday => ("цілодобово", "круглосуточно", "24/7")

/-- `t(lang, key)`. -/
def t (lang : Language) (key : Key) : Text :=
  match lang with
  | .uk => text key.row.1
  | .ru => text key.row.2.1
  | .en => text key.row.2.2

/-- What stands before and after the replacement field of a text. -/
def around (row : Text) : Text × Text :=
  (row.takeWhile (· ≠ ofChar '\x7b'), (row.dropWhile (· ≠ ofChar '\x7d')).drop 1)

/-- `t(lang, key, name=value)` for a row with one field. -/
def tFormat (lang : Language) (key : Key) (value : Text) : Text :=
  (around (t lang key)).1 ++ value ++ (around (t lang key)).2

example : tFormat .en .ubInfoMembers (text "7") = text "👥 Members: 7" := by decide +kernel

end UserTgBot.I18n
