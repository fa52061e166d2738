import Mathlib

/-!
# Python strings, query strings and their decoding

A Python `str` is a sequence of code points, surrogates included, so `Text` is a list of
them and not a Lean string. The functions below are the parts of Python's standard library
that a form decoder runs through: `str.encode` and `bytes.decode` for UTF-8,
`str.isdigit` and `int`, `urllib.parse.unquote` and `parse_qsl`, and `base64.b64decode`.
The Unicode tables are those of version 14, which Python 3.11 carries.
-/

namespace PyText

abbrev CodePoint := Fin 0x110000

instance : LawfulBEq CodePoint := inferInstance

/-- A Python `str`. -/
abbrev Text := List CodePoint

def ofChar (c : Char) : CodePoint :=
  ⟨c.toNat, by
    have hvalid : c.val.toNat < 0xd800 ∨ 0xdfff < c.val.toNat ∧ c.val.toNat < 0x110000 :=
      c.valid
    change c.val.toNat < 0x110000
    omega⟩

/-- The text of a Lean string. -/
def text (s : String) : Text := s.toList.map ofChar

def isAscii (c : CodePoint) : Bool := c.val < 0x80

def isSurrogate (c : CodePoint) : Bool := 0xd800 ≤ c.val && c.val ≤ 0xdfff

/-! ## Digits -/

/-- The zeros of the runs of ten decimal digits. -/
def decimalZeros : List Nat :=
  [0x30, 0x660, 0x6f0, 0x7c0, 0x966, 0x9e6, 0xa66, 0xae6, 0xb66, 0xbe6, 0xc66, 0xce6, 0xd66,
   0xde6, 0xe50, 0xed0, 0xf20, 0x1040, 0x1090, 0x17e0, 0x1810, 0x1946, 0x19d0, 0x1a80,
   0x1a90, 0x1b50, 0x1bb0, 0x1c40, 0x1c50, 0xa620, 0xa8d0, 0xa900, 0xa9d0, 0xa9f0, 0xaa50,
   0xabf0, 0xff10, 0x104a0, 0x10d30, 0x11066, 0x110f0, 0x11136, 0x111d0, 0x112f0, 0x11450,
   0x114d0, 0x11650, 0x116c0, 0x11730, 0x118e0, 0x11950, 0x11c50, 0x11d50, 0x11da0,
   0x16a60, 0x16ac0, 0x16b50, 0x1d7ce, 0x1d7d8, 0x1d7e2, 0x1d7ec, 0x1d7f6, 0x1e140,
   0x1e2f0, 0x1e950, 0x1fbf0]

/-- Digits that are no decimal digits, such as superscripts, as inclusive ranges. -/
def otherDigits : List (Nat × Nat) :=
  [(0xb2, 0xb3), (0xb9, 0xb9), (0x1369, 0x1371), (0x19da, 0x19da), (0x2070, 0x2070),
   (0x2074, 0x2079), (0x2080, 0x2089), (0x2460, 0x2468), (0x2474, 0x247c),
   (0x2488, 0x2490), (0x24ea, 0x24ea), (0x24f5, 0x24fd), (0x24ff, 0x24ff),
   (0x2776, 0x277e), (0x2780, 0x2788), (0x278a, 0x2792), (0x10a40, 0x10a43),
   (0x10e60, 0x10e68), (0x11052, 0x1105a), (0x1f100, 0x1f10a)]

/-- The value of a decimal digit. -/
def decimalValue (c : CodePoint) : Option Nat :=
  (decimalZeros.find? fun first => first ≤ c.val && c.val < first + 10).map fun first =>
    c.val - first

/-- `isdigit` of one character. -/
def isDigitChar (c : CodePoint) : Bool :=
  (decimalValue c).isSome || otherDigits.any fun range => range.1 ≤ c.val && c.val ≤ range.2

/-- `str.isdigit`. -/
def isDigit (s : Text) : Bool := !s.isEmpty && s.all isDigitChar

/-- `int` refuses longer strings of digits. -/
def maxStrDigits : Nat := 4300

/-- `int` on a string for which `isdigit` holds; `none` is a `ValueError`. -/
def intOfDigits (s : Text) : Option Nat :=
  if s.length ≤ maxStrDigits then
    (s.mapM decimalValue).map fun digits => digits.foldl (fun n d => 10 * n + d) 0
  else none

/-- White space that `int` strips from both ends. -/
def isSpace (c : CodePoint) : Bool :=
  [0x20, 0x85, 0xa0, 0x1680, 0x2028, 0x2029, 0x202f, 0x205f, 0x3000].contains c.val ||
    (9 ≤ c.val && c.val ≤ 13) || (28 ≤ c.val && c.val ≤ 31) ||
      (0x2000 ≤ c.val && c.val ≤ 0x200a)

/-- `int` on a string: a sign, then digits with single underscores in between. -/
def intOfText (s : Text) : Option Int :=
  let body := ((s.dropWhile isSpace).reverse.dropWhile isSpace).reverse
  let negative := body.head? = some (ofChar '-')
  let unsigned := if negative ∨ body.head? = some (ofChar '+') then body.drop 1 else body
  let groups := unsigned.splitOn (ofChar '_')
  if groups.all (!·.isEmpty) then
    (intOfDigits groups.flatten).map fun n => if negative then -(n : Int) else n
  else none

/-! ## UTF-8 -/

/-- The UTF-8 bytes of a code point; `none` is a `UnicodeEncodeError`. -/
def encodeChar (c : CodePoint) : Option (List UInt8) :=
  let n := c.val
  let tail (shift : Nat) : UInt8 := .ofNat (0x80 + n / 2 ^ shift % 64)
  if n < 0x80 then some [.ofNat n]
  else if n < 0x800 then some [.ofNat (0xc0 + n / 64), tail 0]
  else if isSurrogate c then none
  else if n < 0x10000 then some [.ofNat (0xe0 + n / 4096), tail 6, tail 0]
  else some [.ofNat (0xf0 + n / 262144), tail 12, tail 6, tail 0]

/-- `s.encode()`. -/
def encodeUtf8 (s : Text) : Option (List UInt8) := (s.mapM encodeChar).map List.flatten

/-- The decoder inside a multi-byte sequence: `missing` bytes are still due, the next one
between `low` and `high`, and `value` has been read so far. -/
structure Partial where
  missing : Nat
  low : Nat
  high : Nat
  value : Nat
deriving DecidableEq, Repr

def replacementChar : CodePoint := 0xfffd

/-- The first byte of a sequence: what it decodes to at once, or what is still due. -/
def decodeFirst (b : UInt8) : Text × Option Partial :=
  let n := b.toNat
  if n < 0x80 then ([.ofNat 0x110000 n], none)
  else if n < 0xc2 then ([replacementChar], none)
  else if n < 0xe0 then ([], some ⟨1, 0x80, 0xbf, n - 0xc0⟩)
  else if n < 0xf0 then
    ([], some ⟨2, if n = 0xe0 then 0xa0 else 0x80, if n = 0xed then 0x9f else 0xbf, n - 0xe0⟩)
  else if n < 0xf5 then
    ([], some ⟨3, if n = 0xf0 then 0x90 else 0x80, if n = 0xf4 then 0x8f else 0xbf, n - 0xf0⟩)
  else ([replacementChar], none)

/-- One more byte. A byte that does not continue the open sequence ends it with one
replacement character and starts a sequence of its own. -/
def decodeByte (open? : Option Partial) (b : UInt8) : Text × Option Partial :=
  match open? with
  | none => decodeFirst b
  | some p =>
      if p.low ≤ b.toNat ∧ b.toNat ≤ p.high then
        let value := 64 * p.value + b.toNat % 64
        if p.missing = 1 then ([.ofNat 0x110000 value], none)
        else ([], some ⟨p.missing - 1, 0x80, 0xbf, value⟩)
      else
        let out := decodeFirst b
        (replacementChar :: out.1, out.2)

def decodeFrom : Option Partial → List UInt8 → Text
  | none, [] => []
  | some _, [] => [replacementChar]
  | open?, b :: bytes =>
      let out := decodeByte open? b
      out.1 ++ decodeFrom out.2 bytes

/-- `bytes.decode("utf-8", errors="replace")`. -/
def decodeUtf8Replace (bytes : List UInt8) : Text := decodeFrom none bytes

/-! ## Query strings -/

def hexValue (b : UInt8) : Option UInt8 :=
  if 0x30 ≤ b ∧ b ≤ 0x39 then some (b - 0x30)
  else if 0x41 ≤ b ∧ b ≤ 0x46 then some (b - 0x37)
  else if 0x61 ≤ b ∧ b ≤ 0x66 then some (b - 0x57)
  else none

/-- What follows a `%`: the byte named by two hexadecimal digits, or the `%` itself. -/
def unquoteItem (item : List UInt8) : List UInt8 :=
  match item with
  | hi :: lo :: rest =>
      match hexValue hi, hexValue lo with
      | some h, some l => (16 * h + l) :: rest
      | _, _ => 0x25 :: item
  | _ => 0x25 :: item

/-- `unquote_to_bytes`. -/
def unquoteToBytes (bytes : List UInt8) : List UInt8 :=
  match bytes.splitOn 0x25 with
  | [] => []
  | first :: items => first ++ items.flatMap unquoteItem

/-- `unquote`: the runs of ASCII characters are unquoted and decoded, the others kept. -/
def unquote (s : Text) : Text :=
  (s.splitBy fun a b => isAscii a == isAscii b).flatMap fun run =>
    if run.all isAscii then
      decodeUtf8Replace (unquoteToBytes (run.map fun c => .ofNat c.val))
    else run

/-- `unquote_plus`. -/
def unquotePlus (s : Text) : Text :=
  unquote (s.map fun c => if c = ofChar '+' then ofChar ' ' else c)

/-- `s.partition(sep)`, without the separator. -/
def partition (sep : CodePoint) (s : Text) : Text × Text :=
  (s.takeWhile (· ≠ sep), (s.dropWhile (· ≠ sep)).drop 1)

/-- `parse_qsl(qs, keep_blank_values=True)`. -/
def parseQsl (qs : Text) : List (Text × Text) :=
  ((qs.splitOn (ofChar '&')).filter fun field => !field.isEmpty).map fun field =>
    let nameValue := partition (ofChar '=') field
    (unquotePlus nameValue.1, unquotePlus nameValue.2)

/-! ## Base64 -/

/-- `a2b_base64` between two characters; the bytes decoded so far are in reverse. -/
structure Base64State where
  quadPos : Nat
  leftChar : Nat
  pads : Nat
  paddingStarted : Bool
  decoded : List UInt8

def Base64State.empty : Base64State := ⟨0, 0, 0, false, []⟩

/-- The six bits of a character of the alphabet. -/
def base64Value (c : CodePoint) : Option Nat :=
  let n := c.val
  if 0x41 ≤ n ∧ n ≤ 0x5a then some (n - 0x41)
  else if 0x61 ≤ n ∧ n ≤ 0x7a then some (n - 0x61 + 26)
  else if 0x30 ≤ n ∧ n ≤ 0x39 then some (n - 0x30 + 52)
  else if n = 0x2b then some 62
  else if n = 0x2f then some 63
  else none

/-- Add the six bits of one character. -/
def Base64State.push (st : Base64State) (value : Nat) : Base64State :=
  let emit (b : Nat) : List UInt8 := .ofNat b :: st.decoded
  match st.quadPos with
  | 0 => { st with quadPos := 1, leftChar := value }
  | 1 => { st with
      quadPos := 2, leftChar := value % 16, decoded := emit (st.leftChar * 4 + value / 16) }
  | 2 => { st with
      quadPos := 3, leftChar := value % 4, decoded := emit (st.leftChar * 16 + value / 4) }
  | _ => { st with quadPos := 0, leftChar := 0, decoded := emit (st.leftChar * 64 + value) }

/-- `a2b_base64(..., strict_mode=True)` from the second character on. -/
def a2bBase64 (st : Base64State) : Text → Except Text (List UInt8)
  | [] =>
      if st.quadPos = 0 then .ok st.decoded.reverse
      else if st.quadPos = 1 then
        let count := st.decoded.length / 3 * 4 + 1
        .error (text "Invalid base64-encoded string: number of data characters (" ++
          text (toString count) ++ text ") cannot be 1 more than a multiple of 4")
      else .error (text "Incorrect padding")
  | c :: cs =>
      if c = ofChar '=' then
        if 2 ≤ st.quadPos then
          if 4 ≤ st.quadPos + st.pads + 1 then
            if cs = [] then .ok st.decoded.reverse
            else .error (text "Excess data after padding")
          else a2bBase64 { st with paddingStarted := true, pads := st.pads + 1 } cs
        else a2bBase64 { st with paddingStarted := true } cs
      else match base64Value c with
        | none => .error (text "Only base64 data is allowed")
        | some value =>
            if st.paddingStarted then .error (text "Discontinuous padding not allowed")
            else a2bBase64 (st.push value) cs

/-- `base64.b64decode(s, validate=True)`; the error is the message of the exception. -/
def b64decode (s : Text) : Except Text (List UInt8) :=
  if ¬ s.all isAscii then
    .error (text "string argument should contain only ASCII characters")
  else if s.head? = some (ofChar '=') then .error (text "Leading padding not allowed")
  else a2bBase64 .empty s

/-! ## Dictionaries -/

/-- A `dict` from strings to strings. -/
abbrev Dict := AList fun _ : Text => Text

/-- `dict(pairs)`: the last pair of a key wins. -/
def Dict.ofPairs (pairs : List (Text × Text)) : Dict :=
  pairs.foldl (fun d pair => d.insert pair.1 pair.2) ∅

end PyText
