import UserTgBot.Library.PyText
import Mathlib.Data.List.Infix

/-!
# Shell patterns

`Path.glob` compares each file name with a pattern in which `*`, `?` and `[...]` are special.
A pattern is read into a list of tokens, each of which is a star or accepts one character, as
`fnmatch.translate` reads it into a regular expression. There is no way to quote a special
character, so a text that is put into a pattern need not match itself; `fnmatch_literal_star`
says what does match if it has none of them.
-/

namespace Glob

open PyText

/-- What may stand between the brackets of a regular expression. -/
inductive Item where
  | literal (c : CodePoint)
  | range (low high : CodePoint)
deriving DecidableEq, Repr

def Item.accepts (c : CodePoint) : Item → Bool
  | .literal a => c = a
  | .range low high => low ≤ c && c ≤ high

/-- One piece of a pattern. -/
inductive Token where
  | star
  | any
  | never
  | char (c : CodePoint)
  | oneOf (negated : Bool) (items : List Item)
deriving DecidableEq, Repr

/-- The characters that a token other than a star accepts. -/
def Token.accepts (c : CodePoint) : Token → Bool
  | .star => false
  | .any => true
  | .never => false
  | .char a => c = a
  | .oneOf negated items => (items.any fun item => item.accepts c) != negated

/-! ## Brackets -/

/-- A character of a bracket expression; a dash is a hyphen that joins the ends of a range. -/
inductive SetChar where
  | plain (c : CodePoint)
  | dash
deriving DecidableEq, Repr

def SetChar.code : SetChar → CodePoint
  | .plain c => c
  | .dash => ofChar '-'

/-- How the regular expression reads them. -/
def items : List SetChar → List Item
  | [] => []
  | [a] => [.literal a.code]
  | a :: .dash :: b :: rest => .range a.code b.code :: items rest
  | a :: b :: rest => .literal a.code :: items (b :: rest)

/-- Cut at hyphens. A hyphen is no cut within the first `skip` characters; after a cut the two
characters that follow it are skipped. -/
def chunksFrom (skip : Nat) (chunk : Text) : Text → List Text
  | [] => if chunk.isEmpty then [] else [chunk]
  | c :: rest =>
      match skip with
      | skip + 1 => chunksFrom skip (chunk ++ [c]) rest
      | 0 =>
          if c = ofChar '-' then
            if rest.isEmpty then [chunk ++ [c]] else chunk :: chunksFrom 2 [] rest
          else chunksFrom 0 (chunk ++ [c]) rest

/-- The pieces between the hyphens that make ranges. -/
def chunks (stuff : Text) : List Text :=
  chunksFrom (if stuff.head? = some (ofChar '!') then 2 else 1) [] stuff

/-- Put a piece before the others; a range that is empty goes with both of its ends. -/
def dropEmptyRange (chunk : Text) : List Text → List Text
  | [] => [chunk]
  | next :: rest =>
      match chunk.getLast?, next.head? with
      | some last, some first =>
          if first < last then (chunk.dropLast ++ next.tail) :: rest else chunk :: next :: rest
      | _, _ => chunk :: next :: rest

/-- The characters of a bracket expression. -/
def setChars : List Text → List SetChar
  | [] => []
  | [chunk] => chunk.map .plain
  | chunk :: rest => chunk.map .plain ++ .dash :: setChars rest

/-- `[stuff]`. -/
def bracket (stuff : Text) : Token :=
  match setChars ((chunks stuff).foldr dropEmptyRange []) with
  | [] => .never
  | first :: rest =>
      if first = .plain (ofChar '!') then
        if rest.isEmpty then .any else .oneOf true (items rest)
      else .oneOf false (items (first :: rest))

/-- What stands between an opening bracket and the one that closes it, and what follows. A
closing bracket that comes first, or right after `!`, is part of the set. -/
def closing (s : Text) : Option (Text × Text) :=
  let start := if s.head? = some (ofChar '!') then 1 else 0
  let start := if (s.drop start).head? = some (ofChar ']') then start + 1 else start
  let stuff := s.take start ++ (s.drop start).takeWhile (· ≠ ofChar ']')
  match s.drop stuff.length with
  | [] => none
  | _ :: rest => some (stuff, rest)

/-! ## Patterns -/

/-- Read a pattern of at most this length. -/
def tokensFrom : Nat → Text → List Token
  | 0, _ => []
  | _, [] => []
  | fuel + 1, c :: rest =>
      if c = ofChar '*' then .star :: tokensFrom fuel rest
      else if c = ofChar '?' then .any :: tokensFrom fuel rest
      else if c = ofChar '[' then
        match closing rest with
        | none => .char c :: tokensFrom fuel rest
        | some (stuff, rest) => bracket stuff :: tokensFrom fuel rest
      else .char c :: tokensFrom fuel rest

/-- `fnmatch.translate`. -/
def translate (pattern : Text) : List Token := tokensFrom pattern.length pattern

/-- The whole of the text is matched. -/
def fullmatch : List Token → Text → Bool
  | [], s => s.isEmpty
  | .star :: tokens, s => s.tails.any (fullmatch tokens)
  | _ :: _, [] => false
  | token :: tokens, c :: s => token.accepts c && fullmatch tokens s

/-- The pattern matches the name. -/
def fnmatch (name pattern : Text) : Bool := fullmatch (translate pattern) name

/-! ## Patterns with one star -/

/-- No character is special. -/
def Plain (s : Text) : Prop := ∀ c ∈ s, c ∉ [ofChar '*', ofChar '?', ofChar '[']

instance (s : Text) : Decidable (Plain s) := List.decidableBAll _ s

theorem tokensFrom_append {s : Text} (plain : Plain s) (fuel : Nat) (rest : Text) :
    tokensFrom (s.length + fuel) (s ++ rest) = s.map .char ++ tokensFrom fuel rest := by
  induction s with
  | nil => simp
  | cons c s ih =>
      obtain ⟨hc, hs⟩ := List.forall_mem_cons.mp plain
      simp only [List.mem_cons, List.not_mem_nil, or_false, not_or] at hc
      obtain ⟨hstar, hany, hbracket⟩ := hc
      have hlength : (c :: s).length + fuel = (s.length + fuel) + 1 := by
        rw [List.length_cons]
        omega
      rw [hlength, List.cons_append, tokensFrom, if_neg hstar, if_neg hany, if_neg hbracket,
        ih hs]
      rfl

theorem fullmatch_char_append {s name : Text} {tokens : List Token} :
    fullmatch (s.map .char ++ tokens) name = true ↔
      ∃ rest, name = s ++ rest ∧ fullmatch tokens rest = true := by
  induction s generalizing name with
  | nil => simp
  | cons c s ih =>
      cases name with
      | nil => simp [fullmatch]
      | cons d name =>
          simp only [List.map_cons, List.cons_append, fullmatch, Bool.and_eq_true, ih,
            Token.accepts, decide_eq_true_eq, List.cons.injEq]
          constructor
          · rintro ⟨hd, rest, hname, hrest⟩
            exact ⟨rest, ⟨hd, hname⟩, hrest⟩
          · rintro ⟨rest, ⟨hd, hname⟩, hrest⟩
            exact ⟨hd, rest, hname, hrest⟩

theorem fullmatch_char {s name : Text} : fullmatch (s.map .char) name = true ↔ name = s := by
  rw [← List.append_nil (s.map Token.char), fullmatch_char_append]
  simp [fullmatch]

/-- A pattern without special characters but for one star. -/
theorem fnmatch_literal_star {before after name : Text} (hbefore : Plain before)
    (hafter : Plain after) :
    fnmatch name (before ++ ofChar '*' :: after) = true ↔
      ∃ between, name = before ++ (between ++ after) := by
  have htokens : translate (before ++ ofChar '*' :: after) =
      before.map .char ++ .star :: after.map .char := by
    have hlast := tokensFrom_append hafter 0 []
    rw [translate, List.length_append, tokensFrom_append hbefore, List.length_cons, tokensFrom,
      if_pos rfl]
    simpa [tokensFrom] using hlast
  rw [fnmatch, htokens, fullmatch_char_append]
  simp only [fullmatch, List.any_eq_true, List.mem_tails, fullmatch_char]
  constructor
  · rintro ⟨rest, rfl, tail, ⟨between, rfl⟩, rfl⟩
    exact ⟨between, rfl⟩
  · rintro ⟨between, rfl⟩
    exact ⟨between ++ after, rfl, after, ⟨between, rfl⟩, rfl⟩

end Glob
