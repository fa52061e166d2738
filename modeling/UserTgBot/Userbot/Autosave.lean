import UserTgBot.Library.Transition
import UserTgBot.Userbot.MessageCache

/-!
# Remembering a message while it is edited

The handlers `remember` and `on_edited` of `userbot/handlers/autosave.py`, for one incoming
message and its edits. Every update has a task of its own; the tasks start in the order of
the updates and take turns at every `await`. The cache is one SQLite connection, so a statement
is seen by the next one whether or not it has been committed.

Whatever else happens to the cache in between is the action `other`. What the gates of
`_handle` let through afterwards is not part of the model: a notice is the call of `_handle`.
-/

namespace UserTgBot.Autosave

open Transition MessageCache

/-! ## Updates -/

/-- `event.file`. -/
structure EventFile where
  size : Option Nat
  name : Option String
deriving DecidableEq

/-- The fields of a `NewMessage` event that are read. A `geo` without coordinates is that of an
expired live location. -/
structure NewMessage where
  chatId : Int
  id : Int
  senderId : Option Int
  rawText : String
  photo : Bool := false
  voice : Bool := false
  video : Bool := false
  videoNote : Bool := false
  file : Option EventFile := none
  geo : Option (Option (ℚ × ℚ)) := none
deriving DecidableEq

/-- A `MessageEdited` event of the same message. -/
structure Edit where
  senderId : Option Int
  rawText : String
deriving DecidableEq

/-- What `_capture_media` returns. -/
structure Captured where
  media : Option Bytes
  mediaKind : Option String
  mediaFilename : Option String
deriving DecidableEq

def Captured.nothing : Captured := ⟨none, none, none⟩

/-- The argument of `_handle` for an edit. -/
structure Notice where
  text : Option String
  previousText : Option String
deriving DecidableEq

def MAX_MEDIA_BYTES : Nat := 8 * 1024 * 1024

namespace NewMessage

def kind? (e : NewMessage) : Option String :=
  if e.photo then some "photo"
  else if e.voice then some "voice"
  else if e.video || e.videoNote then some "video"
  else if e.file.isSome then some "document"
  else none

/-- Kind and filename of what is worth a download; an unknown size is too large. -/
def downloadable? (e : NewMessage) : Option (String × Option String) := do
  let kind ← e.kind?
  let size ← e.file.bind EventFile.size
  if MAX_MEDIA_BYTES < size then none else some (kind, e.file.bind EventFile.name)

/-- `_capture_location`. -/
def location (e : NewMessage) : Option (ℚ × ℚ) := e.geo.join

/-- What the handler of a new message remembers. -/
def remembered (e : NewMessage) (captured : Captured) : CachedMessage where
  chatId := e.chatId
  messageId := e.id
  senderId := e.senderId
  text := some e.rawText
  media := captured.media
  mediaKind := captured.mediaKind
  mediaFilename := captured.mediaFilename
  location := e.location

end NewMessage

/-- The cache of one owner, and the updates about one message. -/
structure Updates where
  owner : Int
  maxSize : Nat
  message : NewMessage
  edits : List Edit

/-- What the handler of an edit remembers: everything but the text is carried over. -/
def Updates.edited (u : Updates) (e : Edit) (cached : Option CachedMessage) : CachedMessage where
  chatId := u.message.chatId
  messageId := u.message.id
  senderId := e.senderId
  text := some e.rawText
  media := cached.bind CachedMessage.media
  mediaKind := cached.bind CachedMessage.mediaKind
  mediaFilename := cached.bind CachedMessage.mediaFilename
  location := cached.bind CachedMessage.location

/-- The end of `on_edited`. -/
def editNotice (previous rawText : Option String) : Option Notice :=
  if previous = none ∨ previous = rawText then none else some ⟨rawText, previous⟩

/-! ## Interleavings -/

/-- How far a handler has come. `row` is what it gives to `cache.remember`, `previous` the text
it found before; the handler of a new message does not look for one. -/
inductive Phase where
  | waiting
  | gating (kind : String) (filename : Option String)
  | downloading (kind : String) (filename : Option String)
  | reading (e : Edit)
  | storing (row : CachedMessage) (previous : Option String)
  | evicting (row : CachedMessage) (previous : Option String)
  | finished (row : CachedMessage) (notice : Option Notice)
deriving DecidableEq

/-- Update 0 is the new message, update `i + 1` the edit `i`. -/
structure State where
  table : CachedMessages
  phase : Nat → Phase

/-- A handler starts, gets an answer, or one of its statements is executed. A download that
raises answers `none`. -/
inductive Action where
  | start (update : Nat)
  | subscription (active : Bool)
  | download (result : Option (Option Bytes))
  | read (update : Nat)
  | upsert (update : Nat) (now : ℚ)
  | evict (update : Nat)
  | other (table : CachedMessages)

def State.setPhase (s : State) (i : Nat) (phase : Phase) : State :=
  { s with phase := Function.update s.phase i phase }

def State.initial (table : CachedMessages) : State := ⟨table, fun _ => .waiting⟩

namespace Updates

variable (u : Updates)

def key : Int × Int × Int := (u.owner, u.message.chatId, u.message.id)

def get (table : CachedMessages) : Option CachedMessage :=
  table.get u.owner u.message.chatId u.message.id

/-- Where the handler of an update is after its first synchronous steps. -/
def begin? : Nat → Option Phase
  | 0 =>
      match u.message.downloadable? with
      | none => some (.storing (u.message.remembered .nothing) none)
      | some (kind, filename) => some (.gating kind filename)
  | i + 1 => (u.edits[i]?).map Phase.reading

def step (s : State) : Action → Option State
  | .start i =>
      if s.phase i = .waiting ∧ ∀ j < i, s.phase j ≠ .waiting then
        (u.begin? i).map (s.setPhase i)
      else none
  | .subscription active =>
      match s.phase 0 with
      | .gating kind filename =>
          some (s.setPhase 0 (if active then .downloading kind filename
            else .storing (u.message.remembered .nothing) none))
      | _ => none
  | .download result =>
      match s.phase 0 with
      | .downloading kind filename =>
          let captured := match result with
            | none => .nothing
            | some data => ⟨data, some kind, filename⟩
          some (s.setPhase 0 (.storing (u.message.remembered captured) none))
      | _ => none
  | .read i =>
      match s.phase i with
      | .reading e =>
          let cached := u.get s.table
          some (s.setPhase i (.storing (u.edited e cached) (cached.bind CachedMessage.text)))
      | _ => none
  | .upsert i now =>
      match s.phase i with
      | .storing row previous =>
          some { s.setPhase i (.evicting row previous) with
            table := s.table.upsert u.owner row now }
      | _ => none
  | .evict i =>
      match s.phase i with
      | .evicting row previous =>
          some { s.setPhase i (.finished row (editNotice previous row.text)) with
            table := s.table.evictOld u.owner u.maxSize }
      | _ => none
  | .other table => some { s with table }

/-! ## What is wanted -/

/-- The text of the message after so many edits. -/
def version : Nat → Option String
  | 0 => some u.message.rawText
  | i + 1 => (u.edits[i]?).map Edit.rawText

/-- No two versions have the same text. -/
def Distinct : Prop :=
  ∀ i j, i ≤ u.edits.length → j ≤ u.edits.length → u.version i = u.version j → i = j

/-- All handlers have finished. -/
def Complete (s : State) : Prop :=
  ∀ i ≤ u.edits.length, ∃ row notice, s.phase i = .finished row notice

end Updates

/-- Media and location, which an edit does not touch. -/
def attachments (row : CachedMessage) : Captured × Option (ℚ × ℚ) :=
  (⟨row.media, row.mediaKind, row.mediaFilename⟩, row.location)

/-- The cache has the last text with what was captured at first, and every edit of the text has
produced a notice with the text before. -/
structure Latest (u : Updates) (s : State) : Prop where
  text : (u.get s.table).bind CachedMessage.text = u.version u.edits.length
  captured : ∃ row first notice, u.get s.table = some row ∧ s.phase 0 = .finished first notice ∧
    attachments row = attachments first
  notices : ∀ i < u.edits.length, u.version (i + 1) ≠ u.version i →
    ∃ row, s.phase (i + 1) = .finished row (some ⟨u.version (i + 1), u.version i⟩)

/-- The handler has executed its `INSERT ... ON CONFLICT`. -/
def Phase.Written : Phase → Prop
  | .evicting _ _ => True
  | .finished _ _ => True
  | _ => False

instance (phase : Phase) : Decidable phase.Written := by
  unfold Phase.Written
  split <;> infer_instance

/-- The message is neither evicted nor deleted, nor does anything else write its row. -/
def Keeps (u : Updates) (s : State) : Action → Prop
  | .evict _ => (s.table.evictOld u.owner u.maxSize).find? u.key = s.table.find? u.key
  | .other table => table.find? u.key = s.table.find? u.key
  | _ => True

instance (u : Updates) (s : State) (a : Action) : Decidable (Keeps u s a) := by
  unfold Keeps
  split <;> infer_instance

/-- An edit reads the cache only after the handler of the update before it has written. -/
def InOrder (s : State) : Action → Prop
  | .read (i + 1) => (s.phase i).Written
  | _ => True

instance (s : State) (a : Action) : Decidable (InOrder s a) := by
  unfold InOrder
  split <;> infer_instance

section Steps

variable {u : Updates} {s t : State} {i j k : Nat} {phase : Phase} {row : CachedMessage}

@[simp] theorem phase_setPhase_self : (s.setPhase i phase).phase i = phase :=
  Function.update_self ..

theorem phase_setPhase (h : j ≠ i) : (s.setPhase i phase).phase j = s.phase j :=
  Function.update_of_ne h ..

theorem get_of_find? {table table' : CachedMessages}
    (h : table'.find? u.key = table.find? u.key) : u.get table' = u.get table :=
  congrArg (Option.map CachedRow.toCached) h

theorem get_upsert {table : CachedMessages} {now : ℚ} (hchat : row.chatId = u.message.chatId)
    (hid : row.messageId = u.message.id) : u.get (table.upsert u.owner row now) = some row := by
  have hkey : (CachedRow.ofMessage (table.rowidFor (u.owner, row.chatId, row.messageId)) u.owner
      row now).key = u.key := by
    rw [Updates.key, ← hchat, ← hid]
    rfl
  have hfind : (table.upsert u.owner row now).find? u.key =
      some (.ofMessage (table.rowidFor (u.owner, row.chatId, row.messageId)) u.owner row now) :=
    List.find?_cons_of_pos (by simp [hkey])
  rw [Updates.get, CachedMessages.get]
  change ((table.upsert u.owner row now).find? u.key).map CachedRow.toCached = some row
  rw [hfind, Option.map_some, CachedRow.toCached_ofMessage]

/-- Everything an enabled step does. -/
inductive Moved (u : Updates) (s : State) : Action → State → Prop where
  | start {i : Nat} {phase : Phase} (waiting : s.phase i = .waiting)
      (begins : u.begin? i = some phase) : Moved u s (.start i) (s.setPhase i phase)
  | capturing {a : Action} {phase : Phase} (answer : ∀ i, a ≠ .read i) (unread : ∃ kind filename,
        s.phase 0 = .gating kind filename ∨ s.phase 0 = .downloading kind filename)
      (next : (∃ kind filename, phase = .downloading kind filename) ∨
        ∃ captured, phase = .storing (u.message.remembered captured) none) :
      Moved u s a (s.setPhase 0 phase)
  | read {i : Nat} {e : Edit} (reading : s.phase i = .reading e) :
      Moved u s (.read i) (s.setPhase i
        (.storing (u.edited e (u.get s.table)) ((u.get s.table).bind CachedMessage.text)))
  | upsert {i : Nat} {row : CachedMessage} {previous : Option String} {now : ℚ}
      (storing : s.phase i = .storing row previous) :
      Moved u s (.upsert i now) { s.setPhase i (.evicting row previous) with
        table := s.table.upsert u.owner row now }
  | evict {i : Nat} {row : CachedMessage} {previous : Option String}
      (evicting : s.phase i = .evicting row previous) :
      Moved u s (.evict i) { s.setPhase i (.finished row (editNotice previous row.text)) with
        table := s.table.evictOld u.owner u.maxSize }
  | other (table : CachedMessages) : Moved u s (.other table) { s with table }

theorem step_moved {a : Action} (h : u.step s a = some t) : Moved u s a t := by
  cases a with
  | start i =>
      obtain ⟨⟨hwaiting, _⟩, h⟩ := Option.ite_none_right_eq_some.mp h
      obtain ⟨phase, hbegins, rfl⟩ := Option.map_eq_some_iff.mp h
      exact .start hwaiting hbegins
  | subscription active =>
      cases hphase : s.phase 0 <;> simp only [Updates.step, hphase, reduceCtorEq] at h
      case gating kind filename =>
        obtain rfl := Option.some.inj h
        refine .capturing (fun _ h => by cases h) ⟨kind, filename, .inl hphase⟩ ?_
        cases active with
        | true => exact .inl ⟨kind, filename, rfl⟩
        | false => exact .inr ⟨.nothing, rfl⟩
  | download result =>
      cases hphase : s.phase 0 <;> simp only [Updates.step, hphase, reduceCtorEq] at h
      case downloading kind filename =>
        obtain rfl := Option.some.inj h
        exact .capturing (fun _ h => by cases h) ⟨kind, filename, .inr hphase⟩ (.inr ⟨_, rfl⟩)
  | read i =>
      cases hphase : s.phase i <;> simp only [Updates.step, hphase, reduceCtorEq] at h
      case reading e =>
        obtain rfl := Option.some.inj h
        exact .read hphase
  | upsert i now =>
      cases hphase : s.phase i <;> simp only [Updates.step, hphase, reduceCtorEq] at h
      case storing row previous =>
        obtain rfl := Option.some.inj h
        exact .upsert hphase
  | evict i =>
      cases hphase : s.phase i <;> simp only [Updates.step, hphase, reduceCtorEq] at h
      case evicting row previous =>
        obtain rfl := Option.some.inj h
        exact .evict hphase
  | other table =>
      obtain rfl := Option.some.inj h
      exact .other table

end Steps

/-! ## Runs in order -/

namespace Updates

variable (u : Updates)

def sender : Nat → Option Int
  | 0 => u.message.senderId
  | i + 1 => (u.edits[i]?).bind Edit.senderId

/-- What the handler of each update should write. -/
def row (captured : Captured) (i : Nat) : CachedMessage :=
  { u.message.remembered captured with senderId := u.sender i, text := u.version i }

/-- The text that the handler of each update should find. -/
def previous : Nat → Option String
  | 0 => none
  | i + 1 => u.version i

/-- The handler has not touched the cache yet. -/
def Unread : Nat → Phase → Prop
  | _, .waiting => True
  | 0, .gating _ _ => True
  | 0, .downloading _ _ => True
  | i + 1, .reading e => u.edits[i]? = some e
  | _, _ => False

end Updates

section InOrder

variable {u : Updates} {s t : State} {captured : Captured} {i k : Nat} {phase : Phase}

@[simp] theorem not_unread_storing {row : CachedMessage} {previous : Option String} :
    ¬ u.Unread i (.storing row previous) := by
  cases i <;> exact id

theorem Phase.Written.not_unread (h : phase.Written) : ¬ u.Unread i phase := by
  cases phase <;> first | exact absurd h id | (cases i <;> exact id)

theorem edited_row {e : Edit} (h : u.edits[i]? = some e) :
    u.edited e (some (u.row captured i)) = u.row captured (i + 1) := by
  simp [Updates.edited, Updates.row, Updates.sender, Updates.version, NewMessage.remembered, h]

theorem version_ne_none (h : i ≤ u.edits.length) : u.version i ≠ none := by
  cases i with
  | zero => exact Option.some_ne_none _
  | succ i =>
      have hget := List.getElem?_eq_getElem (Nat.lt_of_succ_le h)
      simp [Updates.version, hget]

theorem unread_begin? (h : u.begin? i = some phase) :
    u.Unread i phase ∨
      ∃ captured, i = 0 ∧ phase = .storing (u.row captured 0) (u.previous 0) := by
  cases i with
  | zero =>
      rw [Updates.begin?] at h
      cases hmedia : u.message.downloadable? with
      | none =>
          rw [hmedia] at h
          obtain rfl := Option.some.inj h
          exact .inr ⟨.nothing, rfl, rfl⟩
      | some found =>
          rw [hmedia] at h
          obtain rfl := Option.some.inj h
          exact .inl trivial
  | succ i =>
      obtain ⟨e, he, rfl⟩ := Option.map_eq_some_iff.mp h
      exact .inl he

/-- The first `k` handlers have written, one after the other, and the next one at most has read
what the last of them wrote. -/
structure InStep (u : Updates) (captured : Captured) (k : Nat) (s : State) : Prop where
  bound : k ≤ u.edits.length + 1
  written : ∀ i < k, s.phase i = .evicting (u.row captured i) (u.previous i) ∨
    s.phase i = .finished (u.row captured i) (editNotice (u.previous i) (u.version i))
  current : u.Unread k (s.phase k) ∨
    k ≤ u.edits.length ∧ s.phase k = .storing (u.row captured k) (u.previous k)
  ahead : ∀ i, k < i → u.Unread i (s.phase i)
  latest : ∀ i, k = i + 1 → u.get s.table = some (u.row captured i)

namespace InStep

/-- A handler that has written is one of the first. -/
theorem lt_of_written (h : InStep u captured k s) (hi : (s.phase i).Written) : i < k := by
  by_contra hle
  obtain rfl | hlt := Nat.eq_or_lt_of_not_lt hle
  · obtain hcurrent | ⟨_, hcurrent⟩ := h.current
    · exact hi.not_unread hcurrent
    · rw [hcurrent] at hi
      exact hi
  · exact hi.not_unread (h.ahead i hlt)

theorem written_of_lt (h : InStep u captured k s) (hi : i < k) : (s.phase i).Written := by
  obtain heq | heq := h.written i hi
  · rw [heq]
    trivial
  · rw [heq]
    trivial

/-- Only the next handler may be about to write. -/
theorem eq_of_storing {row : CachedMessage} {previous : Option String}
    (h : InStep u captured k s) (hi : s.phase i = .storing row previous) :
    i = k ∧ k ≤ u.edits.length ∧ row = u.row captured k ∧ previous = u.previous k := by
  obtain hlt | rfl | hlt := Nat.lt_trichotomy i k
  · have hwritten := h.written_of_lt hlt
    rw [hi] at hwritten
    exact hwritten.elim
  · obtain hcurrent | ⟨hle, hcurrent⟩ := h.current
    · rw [hi] at hcurrent
      exact absurd hcurrent not_unread_storing
    · rw [hi] at hcurrent
      injection hcurrent with hrow hprevious
      exact ⟨rfl, hle, hrow, hprevious⟩
  · have hahead := h.ahead i hlt
    rw [hi] at hahead
    exact absurd hahead not_unread_storing

theorem move_ahead (h : InStep u captured k s) (hi : k < i) (hphase : u.Unread i phase) :
    InStep u captured k (s.setPhase i phase) := by
  refine ⟨h.bound, fun j hj => ?_, ?_, fun j hj => ?_, h.latest⟩
  · rw [phase_setPhase (by omega)]
    exact h.written j hj
  · rw [phase_setPhase (by omega)]
    exact h.current
  · by_cases hji : j = i
    · rw [hji, phase_setPhase_self]
      exact hphase
    · rw [phase_setPhase hji]
      exact h.ahead j hj

theorem move_current (h : InStep u captured k s) (hphase : u.Unread k phase ∨
    k ≤ u.edits.length ∧ phase = .storing (u.row captured k) (u.previous k)) :
    InStep u captured k (s.setPhase k phase) := by
  refine ⟨h.bound, fun j hj => ?_, ?_, fun j hj => ?_, h.latest⟩
  · rw [phase_setPhase (by omega)]
    exact h.written j hj
  · rwa [phase_setPhase_self]
  · rw [phase_setPhase (by omega)]
    exact h.ahead j hj

/-- Nothing is known of what was captured before the first handler stores it. -/
theorem recapture (h : InStep u captured 0 s) (hphase : u.Unread 0 (s.phase 0))
    (captured' : Captured) : InStep u captured' 0 s :=
  ⟨h.bound, fun _ hj => absurd hj (Nat.not_lt_zero _), .inl hphase, h.ahead,
    fun _ hj => absurd hj (by omega)⟩

theorem begin_ (h : InStep u captured k s) (hwaiting : s.phase i = .waiting)
    (hbegins : u.begin? i = some phase) : ∃ captured, InStep u captured k (s.setPhase i phase) := by
  have hle : k ≤ i := by
    by_contra hlt
    have hwritten := h.written_of_lt (Nat.lt_of_not_le hlt)
    rw [hwaiting] at hwritten
    exact hwritten
  obtain hunread | ⟨captured', rfl, rfl⟩ := unread_begin? hbegins
  · refine ⟨captured, ?_⟩
    obtain rfl | hlt := Nat.eq_or_lt_of_le hle
    · exact h.move_current (.inl hunread)
    · exact h.move_ahead hlt hunread
  · obtain rfl : k = 0 := by omega
    have hunread : u.Unread 0 (s.phase 0) := by
      rw [hwaiting]
      trivial
    exact ⟨captured', (h.recapture hunread captured').move_current (.inr ⟨Nat.zero_le _, rfl⟩)⟩

theorem capturing {kind : String} {filename : Option String} (h : InStep u captured k s)
    (hphase : s.phase 0 = .gating kind filename ∨ s.phase 0 = .downloading kind filename)
    (next : (∃ kind filename, phase = .downloading kind filename) ∨
      ∃ captured, phase = .storing (u.message.remembered captured) none) :
    ∃ captured, InStep u captured k (s.setPhase 0 phase) := by
  have hzero : k = 0 := by
    by_contra hpos
    have hwritten := h.written_of_lt (Nat.pos_of_ne_zero hpos)
    obtain heq | heq := hphase <;> · rw [heq] at hwritten; exact hwritten
  subst hzero
  obtain ⟨kind', filename', rfl⟩ | ⟨captured', rfl⟩ := next
  · exact ⟨captured, h.move_current (.inl trivial)⟩
  · have hunread : u.Unread 0 (s.phase 0) := by
      obtain heq | heq := hphase <;> · rw [heq]; trivial
    exact ⟨captured', (h.recapture hunread captured').move_current (.inr ⟨Nat.zero_le _, rfl⟩)⟩

/-- An edit in order finds what the update before it has written. -/
theorem read {e : Edit} (h : InStep u captured k s) (hphase : s.phase i = .reading e)
    (horder : InOrder s (.read i)) : InStep u captured k (s.setPhase i
      (.storing (u.edited e (u.get s.table)) ((u.get s.table).bind CachedMessage.text))) := by
  have hunread : u.Unread i (s.phase i) ∧ k ≤ i := by
    obtain hlt | rfl | hlt := Nat.lt_trichotomy i k
    · have hwritten := h.written_of_lt hlt
      rw [hphase] at hwritten
      exact hwritten.elim
    · obtain hcurrent | ⟨_, hcurrent⟩ := h.current
      · exact ⟨hcurrent, Nat.le_refl _⟩
      · rw [hphase] at hcurrent
        cases hcurrent
    · exact ⟨h.ahead i hlt, Nat.le_of_lt hlt⟩
  obtain ⟨hunread, hle⟩ := hunread
  rw [hphase] at hunread
  cases i with
  | zero => exact hunread.elim
  | succ j =>
      have hedit : u.edits[j]? = some e := hunread
      have hlt : j < k := h.lt_of_written horder
      obtain rfl : k = j + 1 := by omega
      have hfound := h.latest j rfl
      apply h.move_current
      refine .inr ⟨?_, ?_⟩
      · obtain ⟨hlength, _⟩ := List.getElem?_eq_some_iff.mp hedit
        omega
      · rw [hfound, edited_row hedit]
        rfl

theorem upsert {row : CachedMessage} {previous : Option String} {now : ℚ}
    (h : InStep u captured k s) (hphase : s.phase i = .storing row previous) :
    InStep u captured (k + 1) { s.setPhase i (.evicting row previous) with
      table := s.table.upsert u.owner row now } := by
  obtain ⟨rfl, hle, rfl, rfl⟩ := h.eq_of_storing hphase
  refine ⟨by omega, fun j hj => ?_, ?_, fun j hj => ?_, fun j hj => ?_⟩
  · by_cases hji : j = i
    · subst hji
      exact .inl phase_setPhase_self
    · change (s.setPhase i _).phase j = _ ∨ (s.setPhase i _).phase j = _
      rw [phase_setPhase hji]
      exact h.written j (by omega)
  · refine .inl ?_
    change u.Unread (i + 1) ((s.setPhase i _).phase (i + 1))
    rw [phase_setPhase (by omega)]
    exact h.ahead (i + 1) (by omega)
  · change u.Unread j ((s.setPhase i _).phase j)
    rw [phase_setPhase (by omega)]
    exact h.ahead j (by omega)
  · obtain rfl : j = i := by omega
    exact get_upsert rfl rfl

theorem evict {row : CachedMessage} {previous : Option String} (h : InStep u captured k s)
    (hphase : s.phase i = .evicting row previous)
    (hkeeps : (s.table.evictOld u.owner u.maxSize).find? u.key = s.table.find? u.key) :
    InStep u captured k { s.setPhase i (.finished row (editNotice previous row.text)) with
      table := s.table.evictOld u.owner u.maxSize } := by
  have hlt : i < k := h.lt_of_written (by rw [hphase]; trivial)
  obtain heq | heq := h.written i hlt
  · rw [hphase] at heq
    injection heq with hrow hprevious
    subst hrow hprevious
    refine ⟨h.bound, fun j hj => ?_, ?_, fun j hj => ?_, fun j hj => ?_⟩
    · by_cases hji : j = i
      · subst hji
        exact .inr phase_setPhase_self
      · change (s.setPhase i _).phase j = _ ∨ (s.setPhase i _).phase j = _
        rw [phase_setPhase hji]
        exact h.written j hj
    · change u.Unread k ((s.setPhase i _).phase k) ∨ _ ∧ (s.setPhase i _).phase k = _
      rw [phase_setPhase (by omega)]
      exact h.current
    · change u.Unread j ((s.setPhase i _).phase j)
      rw [phase_setPhase (by omega)]
      exact h.ahead j hj
    · exact (get_of_find? hkeeps).trans (h.latest j hj)
  · rw [hphase] at heq
    cases heq

theorem step {a : Action} (h : InStep u captured k s) (hkeeps : Keeps u s a)
    (horder : InOrder s a) (hstep : u.step s a = some t) :
    ∃ captured k, InStep u captured k t := by
  cases step_moved hstep with
  | start hwaiting hbegins =>
      obtain ⟨captured', h'⟩ := h.begin_ hwaiting hbegins
      exact ⟨captured', k, h'⟩
  | capturing _ hunread next =>
      obtain ⟨kind, filename, hphase⟩ := hunread
      obtain ⟨captured', h'⟩ := h.capturing hphase next
      exact ⟨captured', k, h'⟩
  | read hreading => exact ⟨captured, k, h.read hreading horder⟩
  | upsert hstoring => exact ⟨captured, k + 1, h.upsert hstoring⟩
  | evict hevicting => exact ⟨captured, k, h.evict hevicting hkeeps⟩
  | other table =>
      exact ⟨captured, k, h.bound, h.written, h.current, h.ahead,
        fun i hi => (get_of_find? hkeeps).trans (h.latest i hi)⟩

/-- Once all handlers have finished, all of them have written. -/
theorem latest_of_complete (h : InStep u captured k s) (complete : u.Complete s) :
    Latest u s := by
  have hall : ∀ i ≤ u.edits.length, i < k := by
    intro i hi
    obtain ⟨row, notice, hfinished⟩ := complete i hi
    exact h.lt_of_written (by rw [hfinished]; trivial)
  have hbound := h.bound
  have hlast := hall u.edits.length (Nat.le_refl _)
  have hfound := h.latest u.edits.length (by omega)
  have hfinished : ∀ i ≤ u.edits.length, s.phase i =
      .finished (u.row captured i) (editNotice (u.previous i) (u.version i)) := by
    intro i hi
    obtain ⟨row, notice, hphase⟩ := complete i hi
    obtain heq | heq := h.written i (hall i hi)
    · rw [hphase] at heq
      cases heq
    · exact heq
  refine ⟨?_, ?_, fun i hi hne => ?_⟩
  · rw [hfound]
    rfl
  · exact ⟨_, _, _, hfound, hfinished 0 (Nat.zero_le _), rfl⟩
  · have hsome := version_ne_none (u := u) (Nat.le_of_lt hi)
    have hphase := hfinished (i + 1) hi
    rw [Updates.previous, editNotice, if_neg (not_or.mpr ⟨hsome, Ne.symm hne⟩)] at hphase
    exact ⟨_, hphase⟩

end InStep

end InOrder

/-! ## Runs out of order -/

/-- What a handler holds once it has read the cache. -/
def Phase.row? : Phase → Option CachedMessage
  | .storing row _ => some row
  | .evicting row _ => some row
  | .finished row _ => some row
  | _ => none

/-- A text in the cache is that of an update whose handler has written. -/
structure Sourced (u : Updates) (s : State) : Prop where
  phases : ∀ i, u.Unread i (s.phase i) ∨
    i ≤ u.edits.length ∧ ∃ row, (s.phase i).row? = some row ∧ row.chatId = u.message.chatId ∧
      row.messageId = u.message.id ∧ row.text = u.version i
  table : ∀ row, u.get s.table = some row →
    ∃ j ≤ u.edits.length, (s.phase j).Written ∧ row.text = u.version j

/-- The handler has found, and reports, another previous text than `version`. -/
def Phase.Misread (version : Option String) : Phase → Prop
  | .storing _ previous => previous ≠ version
  | .evicting _ previous => previous ≠ version
  | .finished _ notice => ∀ n, notice = some n → n.previousText ≠ version
  | _ => False

section OutOfOrder

variable {u : Updates} {s t : State} {i j : Nat} {phase : Phase} {a : Action}

/-- A handler moves on while the cache stays as it is. -/
theorem Sourced.move (h : Sourced u s)
    (hphase : u.Unread i phase ∨ i ≤ u.edits.length ∧ ∃ row, phase.row? = some row ∧
      row.chatId = u.message.chatId ∧ row.messageId = u.message.id ∧ row.text = u.version i)
    (hwritten : (s.phase i).Written → phase.Written) : Sourced u (s.setPhase i phase) := by
  refine ⟨fun j => ?_, fun row hrow => ?_⟩
  · by_cases hji : j = i
    · rw [hji, phase_setPhase_self]
      exact hphase
    · rw [phase_setPhase hji]
      exact h.phases j
  · obtain ⟨j, hj, hw, htext⟩ := h.table row hrow
    refine ⟨j, hj, ?_, htext⟩
    by_cases hji : j = i
    · subst hji
      rw [phase_setPhase_self]
      exact hwritten hw
    · rwa [phase_setPhase hji]

theorem Sourced.of_get (h : Sourced u s) {table : CachedMessages}
    (same : u.get table = u.get s.table) : Sourced u { s with table } :=
  ⟨h.phases, fun row hrow => h.table row (same ▸ hrow)⟩

/-- What a handler holds after reading. -/
theorem Sourced.row (h : Sourced u s) {row : CachedMessage} (hphase : (s.phase i).row? = some row) :
    i ≤ u.edits.length ∧ row.chatId = u.message.chatId ∧ row.messageId = u.message.id ∧
      row.text = u.version i := by
  obtain hunread | ⟨hle, row', hrow', hchat, hid, htext⟩ := h.phases i
  · cases hp : s.phase i <;> rw [hp] at hunread hphase
    case storing => exact absurd hunread not_unread_storing
    case evicting => exact absurd hunread (Phase.Written.not_unread trivial)
    case finished => exact absurd hunread (Phase.Written.not_unread trivial)
    all_goals cases hphase
  · obtain rfl := Option.some.inj (hrow'.symm.trans hphase)
    exact ⟨hle, hchat, hid, htext⟩

theorem Sourced.reading (h : Sourced u s) {e : Edit} (hphase : s.phase i = .reading e) :
    ∃ j, i = j + 1 ∧ u.edits[j]? = some e := by
  obtain hunread | ⟨_, row, hrow, _⟩ := h.phases i
  · rw [hphase] at hunread
    cases i with
    | zero => exact hunread.elim
    | succ j => exact ⟨j, rfl, hunread⟩
  · rw [hphase] at hrow
    cases hrow

theorem Sourced.step (h : Sourced u s) (hkeeps : Keeps u s a) (hstep : u.step s a = some t) :
    Sourced u t := by
  cases step_moved hstep with
  | @start i phase hwaiting hbegins =>
      apply h.move
      · obtain hunread | ⟨captured, rfl, rfl⟩ := unread_begin? hbegins
        · exact .inl hunread
        · exact .inr ⟨Nat.zero_le _, _, rfl, rfl, rfl, rfl⟩
      · rw [hwaiting]
        exact False.elim
  | capturing _ hunread next =>
      obtain ⟨kind, filename, hphase⟩ := hunread
      apply h.move
      · obtain ⟨kind, filename, rfl⟩ | ⟨captured, rfl⟩ := next
        · exact .inl trivial
        · exact .inr ⟨Nat.zero_le _, _, rfl, rfl, rfl, rfl⟩
      · obtain heq | heq := hphase <;> · rw [heq]; exact False.elim
  | @read i e hreading =>
      obtain ⟨j, rfl, hedit⟩ := h.reading hreading
      have hlt := (List.getElem?_eq_some_iff.mp hedit).1
      apply h.move
      · exact .inr ⟨hlt, _, rfl, rfl, rfl, by simp [Updates.edited, Updates.version, hedit]⟩
      · rw [hreading]
        exact False.elim
  | @upsert i row previous now hstoring =>
      obtain ⟨hle, hchat, hid, htext⟩ := h.row (by rw [hstoring]; rfl)
      have hmoved : Sourced u (s.setPhase i (.evicting row previous)) :=
        h.move (.inr ⟨hle, row, rfl, hchat, hid, htext⟩) fun _ => trivial
      refine ⟨hmoved.phases, fun found hfound => ⟨i, hle, ?_, ?_⟩⟩
      · change ((s.setPhase i _).phase i).Written
        rw [phase_setPhase_self]
        trivial
      · obtain rfl := Option.some.inj ((get_upsert hchat hid).symm.trans hfound)
        exact htext
  | @evict i row previous hevicting =>
      obtain ⟨hle, hrow⟩ := h.row (by rw [hevicting]; rfl)
      have hmoved : Sourced u (s.setPhase i (.finished row (editNotice previous row.text))) :=
        h.move (.inr ⟨hle, row, rfl, hrow⟩) fun _ => trivial
      exact hmoved.of_get (get_of_find? hkeeps)
  | other table => exact h.of_get (get_of_find? hkeeps)

/-- A handler does not read again. -/
theorem misread_step {version : Option String} (h : (s.phase i).Misread version)
    (hi : i ≠ 0) (hstep : u.step s a = some t) : (t.phase i).Misread version := by
  have hmove : ∀ {j phase}, (s.phase j).row? = none → ((s.setPhase j phase).phase i).Misread
      version := by
    intro j phase hnone
    have hne : i ≠ j := by
      rintro rfl
      cases hphase : s.phase i <;> rw [hphase] at h hnone <;> first | exact h | cases hnone
    rwa [phase_setPhase hne]
  cases step_moved hstep with
  | start hwaiting hbegins => exact hmove (by rw [hwaiting]; rfl)
  | capturing _ hunread next => rwa [phase_setPhase hi]
  | read hreading => exact hmove (by rw [hreading]; rfl)
  | @upsert j row previous now hstoring =>
      change ((s.setPhase j (.evicting row previous)).phase i).Misread version
      by_cases hij : i = j
      · subst hij
        rw [hstoring] at h
        rw [phase_setPhase_self]
        exact h
      · rwa [phase_setPhase hij]
  | @evict j row previous hevicting =>
      change ((s.setPhase j (.finished row (editNotice previous row.text))).phase i).Misread version
      by_cases hij : i = j
      · subst hij
        rw [hevicting] at h
        rw [phase_setPhase_self]
        intro n hn
        obtain ⟨_, hn⟩ := Option.ite_none_left_eq_some.mp hn
        obtain rfl := Option.some.inj hn
        exact h
      · rwa [phase_setPhase hij]
  | other table => exact h

/-- With distinct versions, reading too early means reading another text. -/
theorem misread_of_not_written {e : Edit} (h : Sourced u s) (distinct : u.Distinct)
    (hreading : s.phase (i + 1) = .reading e) (hunwritten : ¬ (s.phase i).Written)
    (hstep : u.step s (.read (i + 1)) = some t) : (t.phase (i + 1)).Misread (u.version i) := by
  obtain ⟨j, hj, hedit⟩ := h.reading hreading
  obtain rfl : i = j := by omega
  have hle : i ≤ u.edits.length := Nat.le_of_lt (List.getElem?_eq_some_iff.mp hedit).1
  cases step_moved hstep with
  | capturing answer => exact absurd rfl (answer _)
  | @read _ e' hreading' =>
      rw [phase_setPhase_self]
      intro hsame
      cases hget : u.get s.table with
      | none =>
          rw [hget] at hsame
          exact version_ne_none hle hsame.symm
      | some row =>
          obtain ⟨j, hj, hwritten, htext⟩ := h.table row hget
          rw [hget] at hsame
          obtain rfl := distinct j i hj hle (htext.symm.trans hsame)
          exact hunwritten hwritten

/-- Where the texts are distinct and the outcome is right, no edit has read too early. -/
theorem meets_inOrder_of_latest {run : List Action} (distinct : u.Distinct) (h : Sourced u s)
    (kept : Meets u.step (Keeps u) s run) (hrun : exec u.step s run = some t)
    (latest : Latest u t) : Meets u.step InOrder s run := by
  refine meets_of_final (I := Sourced u) (fun s a t h hkeeps hstep => h.step hkeeps hstep) ?_ h kept
    hrun latest
  intro s a m rest t h hkeeps hstep hrest latest
  by_contra hearly
  obtain ⟨i, rfl, hunwritten⟩ : ∃ i, a = .read (i + 1) ∧ ¬ (s.phase i).Written := by
    unfold InOrder at hearly
    split at hearly
    · exact ⟨_, rfl, hearly⟩
    · exact absurd trivial hearly
  obtain ⟨e, hreading⟩ : ∃ e, s.phase (i + 1) = .reading e := by
    cases step_moved hstep with
    | capturing answer => exact absurd rfl (answer _)
    | read hreading => exact ⟨_, hreading⟩
  have hmisread := misread_of_not_written h distinct hreading hunwritten hstep
  have hfinal : (t.phase (i + 1)).Misread (u.version i) :=
    exec_invariant (fun _ _ _ h => misread_step h (Nat.succ_ne_zero i)) hmisread hrest
  have hlt : i < u.edits.length := by
    obtain ⟨j, hj, hedit⟩ := h.reading hreading
    have hlength := (List.getElem?_eq_some_iff.mp hedit).1
    omega
  have hne : u.version (i + 1) ≠ u.version i := fun heq =>
    absurd (distinct (i + 1) i hlt (Nat.le_of_lt hlt) heq) (by omega)
  obtain ⟨row, hfinished⟩ := latest.notices i hlt hne
  rw [hfinished] at hfinal
  exact hfinal _ rfl rfl

end OutOfOrder

/-! ## The cache at the end -/

theorem inStep_initial (u : Updates) (table : CachedMessages) :
    InStep u .nothing 0 (.initial table) :=
  ⟨Nat.zero_le _, fun _ hi => absurd hi (Nat.not_lt_zero _), .inl trivial,
    fun i _ => by cases i <;> trivial, fun _ hi => absurd hi (by omega)⟩

theorem sourced_initial {u : Updates} {table : CachedMessages} (h : u.get table = none) :
    Sourced u (.initial table) := by
  refine ⟨fun i => .inl (by cases i <;> trivial), fun row hrow => ?_⟩
  rw [State.initial, h] at hrow
  cases hrow

/-- If in every step of a run in which the message is neither evicted nor deleted an edit reads
only what the update before it has written, the cache ends with the latest version and every
edit has produced its notice. For distinct texts this is also necessary. -/
theorem cache_latest_of_inOrder (u : Updates) (table : CachedMessages) (run : List Action)
    (t : State) (hrun : exec u.step (.initial table) run = some t)
    (kept : Meets u.step (Keeps u) (.initial table) run) (complete : u.Complete t) :
    (Meets u.step InOrder (.initial table) run → Latest u t) ∧
      (u.Distinct → u.get table = none → Latest u t →
        Meets u.step InOrder (.initial table) run) := by
  constructor
  · intro inOrder
    have hboth := meets_and.mpr ⟨kept, inOrder⟩
    obtain ⟨captured, k, h⟩ := exec_invariant_of_meets
      (I := fun s => ∃ captured k, InStep u captured k s)
      (fun s a m h hmeets hstep => by
        obtain ⟨captured, k, h⟩ := h
        exact h.step hmeets.1 hmeets.2 hstep)
      ⟨.nothing, 0, inStep_initial u table⟩ hboth hrun
    exact h.latest_of_complete complete
  · intro distinct fresh latest
    exact meets_inOrder_of_latest distinct (sourced_initial fresh) kept hrun latest

/-- A photo whose caption is edited while the photo is being downloaded. -/
def captioned : Updates where
  owner := 1
  maxSize := 2000
  message := { chatId := 5, id := 9, senderId := some 7, rawText := "hi", photo := true,
               file := some ⟨some 100, none⟩ }
  edits := [⟨some 7, "hello"⟩]

def orderlyRun : List Action :=
  [.start 0, .subscription true, .start 1, .download (some (some [1])), .upsert 0 2, .read 1,
    .evict 0, .upsert 1 3, .evict 1]

/-- The download takes longer than the handler of the edit. -/
def overtakingRun : List Action :=
  [.start 0, .subscription true, .start 1, .read 1, .upsert 1 2, .evict 1,
    .download (some (some [1])), .upsert 0 3, .evict 0]

theorem orderlyRun_latest : ∃ t,
    exec captioned.step (.initial .empty) orderlyRun = some t ∧ Latest captioned t := by
  refine ⟨_, rfl, ?_⟩
  refine (cache_latest_of_inOrder captioned .empty orderlyRun _ rfl (by decide +kernel) ?_).1
    (by decide +kernel)
  intro i hi
  obtain rfl | rfl : i = 0 ∨ i = 1 := Nat.le_one_iff_eq_zero_or_eq_one.mp hi
  · exact ⟨_, _, rfl⟩
  · exact ⟨_, _, rfl⟩

/-- The old caption is what the cache ends with. -/
theorem overtakingRun_not_latest : ∃ t,
    exec captioned.step (.initial .empty) overtakingRun = some t ∧
      Meets captioned.step (Keeps captioned) (.initial .empty) overtakingRun ∧
        captioned.Complete t ∧ ¬ Latest captioned t := by
  refine ⟨_, rfl, by decide +kernel, ?_, fun h => ?_⟩
  · intro i hi
    obtain rfl | rfl : i = 0 ∨ i = 1 := Nat.le_one_iff_eq_zero_or_eq_one.mp hi
    · exact ⟨_, _, rfl⟩
    · exact ⟨_, _, rfl⟩
  · have htext := h.text
    exact absurd htext (by decide +kernel)

end UserTgBot.Autosave
