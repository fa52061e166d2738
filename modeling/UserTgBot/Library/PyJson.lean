import UserTgBot.Library.PyText

/-!
# Values of a JSON column

What Python's `json` module reads: a dictionary with string keys, a list, a string, an
integer, a Boolean or `None`. Numbers that are no integers are left out. The operations are
those with which a reader takes such a value apart; nothing means that Python raises.
-/

namespace PyJson

open PyText (Text text)

inductive Json where
  | null
  | bool (b : Bool)
  | int (n : Int)
  | str (s : Text)
  | list (elements : List Json)
  | dict (entries : List (String × Json))

namespace Json

/-- `bool(value)`. -/
def truthy : Json → Bool
  | .null => false
  | .bool b => b
  | .int n => n ≠ 0
  | .str s => !s.isEmpty
  | .list elements => !elements.isEmpty
  | .dict entries => !entries.isEmpty

/-- `value or default`. -/
def or (value default : Json) : Json := if value.truthy then value else default

/-- `value.get(key, default)`. -/
def get (value : Json) (key : String) (default : Json := .null) : Option Json :=
  match value with
  | .dict entries => some ((entries.lookup key).getD default)
  | _ => none

/-- `value[key]` for a string key. -/
def item (value : Json) (key : String) : Option Json :=
  match value with
  | .dict entries => entries.lookup key
  | _ => none

/-- The values that `for x in value` runs through. -/
def iter : Json → Option (List Json)
  | .list elements => some elements
  | .str s => some (s.map fun c => .str [c])
  | .dict entries => some (entries.map fun entry => .str (text entry.1))
  | _ => none

/-- `int(value)`. -/
def toInt : Json → Option Int
  | .int n => some n
  | .bool b => some (if b then 1 else 0)
  | .str s => PyText.intOfText s
  | _ => none

/-- A value that is declared to be a `str`. -/
def asStr : Json → Option Text
  | .str s => some s
  | _ => none

/-- A value that is declared to be a `str | None`. -/
def asOptionalStr : Json → Option (Option Text)
  | .null => some none
  | .str s => some (some s)
  | _ => none

/-- A `str | None` as a value. -/
def ofOption : Option Text → Json
  | none => .null
  | some s => .str s

@[simp] theorem asOptionalStr_ofOption (s : Option Text) : (ofOption s).asOptionalStr = some s := by
  cases s <;> rfl

end Json

end PyJson
