import UserTgBot.Library.PyStr

/-!
# A small markup language

Text with tags and character references, as messengers accept it. A parser in the form of a
machine that takes one character after the other turns it into characters and tags. Rendered
markup is read back as it was, with every character escaped once; a text that was not
escaped is read as itself just where it has no `<` and no reference.
-/

namespace Html

open PyText

/-- A start tag with its attributes, an end tag, or a character that is shown. -/
inductive Token where
  | char (c : CodePoint)
  | opening (tag : Text) (attrs : List (Text × Text))
  | closing (tag : Text)
deriving DecidableEq, Repr

/-- What a messenger knows: the character of a reference `&name;`, and the tags. -/
structure Dialect where
  entity : Text → Option CodePoint
  tag : Text → Bool
  amp : entity (text "amp") = some (ofChar '&')
  lt : entity (text "lt") = some (ofChar '<')
  gt : entity (text "gt") = some (ofChar '>')
  quot : entity (text "quot") = some (ofChar '"')
  bold : tag (text "b") = true
  code : tag (text "code") = true
  link : tag (text "a") = true

/-- A character of the name of a reference: an ASCII letter or digit, or `#`. -/
def isNameChar (c : CodePoint) : Bool :=
  (0x30 ≤ c.val && c.val ≤ 0x39) || (0x41 ≤ c.val && c.val ≤ 0x5a) ||
    (0x61 ≤ c.val && c.val ≤ 0x7a) || c = ofChar '#'

/-- The characters of a text that is shown as it is. -/
def chars (s : Text) : List Token := s.map .char

@[simp] theorem chars_nil : chars [] = [] := rfl

@[simp] theorem chars_cons (c : CodePoint) (s : Text) :
    chars (c :: s) = .char c :: chars s := rfl

@[simp] theorem chars_append (s t : Text) : chars (s ++ t) = chars s ++ chars t :=
  List.map_append

/-! ## The machine -/

/-- A start tag that is being read: its name and the attributes so far. -/
structure StartTag where
  tag : Text
  attrs : List (Text × Text) := []
deriving DecidableEq, Repr

/-- Where the machine is. References are read in texts and in values; `name` is what has been
read of them after the `&`. -/
inductive Mode where
  | text
  | entity (name : Text)
  | opened
  | tagName (tag : Text)
  | gap (start : StartTag)
  | attrName (start : StartTag) (attr : Text)
  | equals (start : StartTag) (attr : Text)
  | value (start : StartTag) (attr : Text) (quote : CodePoint) (value : Text)
  | valueEntity (start : StartTag) (attr : Text) (quote : CodePoint) (value name : Text)
  | endTag (tag : Text)
deriving DecidableEq, Repr

/-- What was read of a reference that turned out to be none. -/
def flush (name : Text) : Text := ofChar '&' :: name

section Machine

variable (d : Dialect)

def stepText (c : CodePoint) : List Token × Mode :=
  if c = ofChar '<' then ([], .opened)
  else if c = ofChar '&' then ([], .entity [])
  else ([.char c], .text)

def stepValue (start : StartTag) (attr : Text) (quote : CodePoint) (value : Text)
    (c : CodePoint) : Mode :=
  if c = quote then .gap { start with attrs := start.attrs ++ [(attr, value)] }
  else if c = ofChar '&' then .valueEntity start attr quote value []
  else .value start attr quote (value ++ [c])

/-- The end of a start tag. -/
def finish (start : StartTag) : Option (List Token × Mode) :=
  if d.tag start.tag then some ([.opening start.tag start.attrs], .text) else none

/-- One character; nothing if the text is refused. -/
def step (m : Mode) (c : CodePoint) : Option (List Token × Mode) :=
  match m with
  | .text => some (stepText c)
  | .entity name =>
      if isNameChar c then some ([], .entity (name ++ [c]))
      else if c = ofChar ';' then
        match d.entity name with
        | some e => some ([.char e], .text)
        | none => some (chars (flush name ++ [c]), .text)
      else some (chars (flush name) ++ (stepText c).1, (stepText c).2)
  | .opened =>
      if c = ofChar '/' then some ([], .endTag [])
      else if isSpace c || c = ofChar '>' then none
      else some ([], .tagName [c])
  | .tagName tag =>
      if c = ofChar '>' then finish d { tag }
      else if isSpace c then some ([], .gap { tag })
      else some ([], .tagName (tag ++ [c]))
  | .gap start =>
      if c = ofChar '>' then finish d start
      else if isSpace c then some ([], .gap start)
      else if c = ofChar '=' then none
      else some ([], .attrName start [c])
  | .attrName start attr =>
      if c = ofChar '=' then some ([], .equals start attr)
      else if isSpace c || c = ofChar '>' then none
      else some ([], .attrName start (attr ++ [c]))
  | .equals start attr =>
      if c = ofChar '"' || c = ofChar '\'' then some ([], .value start attr c []) else none
  | .value start attr quote value => some ([], stepValue start attr quote value c)
  | .valueEntity start attr quote value name =>
      if isNameChar c then some ([], .valueEntity start attr quote value (name ++ [c]))
      else if c = ofChar ';' then
        match d.entity name with
        | some e => some ([], .value start attr quote (value ++ [e]))
        | none => some ([], .value start attr quote (value ++ flush name ++ [c]))
      else some ([], stepValue start attr quote (value ++ flush name) c)
  | .endTag tag =>
      if c = ofChar '>' then some ([.closing tag], .text) else some ([], .endTag (tag ++ [c]))

/-- The tokens of a text and where it ends. -/
def steps (m : Mode) : Text → Option (List Token × Mode)
  | [] => some ([], m)
  | c :: s => do
      let (ts, m) ← step d m c
      let (rest, m) ← steps m s
      return (ts ++ rest, m)

/-- What the end of the text gives; it may not come inside a tag. -/
def atEnd : Mode → Option (List Token)
  | .text => some []
  | .entity name => some (chars (flush name))
  | _ => none

def run (m : Mode) (s : Text) : Option (List Token) := do
  let (ts, m) ← steps d m s
  let rest ← atEnd m
  return ts ++ rest

end Machine

/-- The end tags match the start tags that are open, innermost first. -/
def closes : List Text → List Token → Bool
  | openTags, .char _ :: ts => closes openTags ts
  | openTags, .opening tag _ :: ts => closes (tag :: openTags) ts
  | tag :: openTags, .closing tag' :: ts => tag = tag' && closes openTags ts
  | [], .closing _ :: _ => false
  | openTags, [] => openTags.isEmpty

/-- The markup of a text; nothing if it is refused. -/
def parse (d : Dialect) (s : Text) : Option (List Token) :=
  (run d .text s).filter (closes [])

section Steps

variable {d : Dialect} {m m' : Mode} {s t : Text} {c : CodePoint} {ts : List Token}

@[simp] theorem steps_nil : steps d m [] = some ([], m) := rfl

theorem steps_cons : steps d m (c :: s) = (step d m c).bind fun out =>
    (steps d out.2 s).map fun rest => (out.1 ++ rest.1, rest.2) := by
  rw [steps]
  cases step d m c with
  | none => rfl
  | some out =>
      cases h : steps d out.2 s with
      | none => simp [h]
      | some rest => simp [h]

theorem steps_append (hs : steps d m s = some (ts, m')) (t : Text) :
    steps d m (s ++ t) = (steps d m' t).map fun rest => (ts ++ rest.1, rest.2) := by
  induction s generalizing m ts with
  | nil =>
      rw [steps_nil, Option.some.injEq, Prod.mk.injEq] at hs
      rw [← hs.1, ← hs.2, List.nil_append]
      simp
  | cons c s ih =>
      rw [steps_cons, Option.bind_eq_some_iff] at hs
      obtain ⟨out, hout, hrest⟩ := hs
      obtain ⟨rest, hsteps, heq⟩ := Option.map_eq_some_iff.mp hrest
      obtain ⟨rfl, rfl⟩ := Prod.mk.inj heq
      rw [List.cons_append, steps_cons, hout, Option.bind_some, ih hsteps, Option.map_map]
      simp [Function.comp_def]

/-- Two stretches of text in one go. -/
theorem steps_append_of {m'' : Mode} {ts' : List Token} (hs : steps d m s = some (ts, m'))
    (ht : steps d m' t = some (ts', m'')) :
    steps d m (s ++ t) = some (ts ++ ts', m'') := by
  rw [steps_append hs, ht]
  rfl

theorem run_append (hs : steps d m s = some (ts, m')) (t : Text) :
    run d m (s ++ t) = (run d m' t).map fun rest => ts ++ rest := by
  rw [run, steps_append hs, run]
  cases steps d m' t with
  | none => rfl
  | some rest =>
      simp only [Option.map_some, Option.bind_eq_bind, Option.bind_some]
      cases atEnd rest.2 with
      | none => rfl
      | some last => simp

end Steps

/-! ## Escaping -/

/-- A character in a text. -/
def escapeChar (c : CodePoint) : Text :=
  if c = ofChar '&' then text "&amp;"
  else if c = ofChar '<' then text "&lt;"
  else if c = ofChar '>' then text "&gt;"
  else [c]

/-- A character in a value between double quotes. -/
def escapeAttrChar (c : CodePoint) : Text :=
  if c = ofChar '&' then text "&amp;" else if c = ofChar '"' then text "&quot;" else [c]

def escape (s : Text) : Text := s.flatMap escapeChar

def escapeAttr (s : Text) : Text := s.flatMap escapeAttrChar

/-- An attribute as it is written after the name of the tag. -/
def renderAttr (attr : Text × Text) : Text :=
  ofChar ' ' :: attr.1 ++ text "=\"" ++ escapeAttr attr.2 ++ text "\""

def Token.render : Token → Text
  | .char c => escapeChar c
  | .opening tag attrs => ofChar '<' :: tag ++ attrs.flatMap renderAttr ++ text ">"
  | .closing tag => text "</" ++ tag ++ text ">"

def render (ts : List Token) : Text := ts.flatMap Token.render

@[simp] theorem render_nil : render [] = [] := rfl

@[simp] theorem render_cons (t : Token) (ts : List Token) :
    render (t :: ts) = t.render ++ render ts := List.flatMap_cons

@[simp] theorem render_append (ts ts' : List Token) :
    render (ts ++ ts') = render ts ++ render ts' := List.flatMap_append

theorem render_chars (s : Text) : render (chars s) = escape s := by
  rw [render, chars, List.flatMap_map]
  rfl

theorem Token.render_ne_nil (t : Token) : t.render ≠ [] := by
  cases t with
  | char c =>
      rw [render, escapeChar]
      split_ifs <;> exact List.cons_ne_nil _ _
  | opening tag attrs => exact List.cons_ne_nil _ _
  | closing tag => exact List.cons_ne_nil _ _

theorem render_eq_nil {ts : List Token} : render ts = [] ↔ ts = [] := by
  cases ts with
  | nil => exact ⟨fun _ => rfl, fun _ => rfl⟩
  | cons t ts =>
      refine ⟨fun h => ?_, nofun⟩
      rw [render_cons, List.append_eq_nil_iff] at h
      exact absurd h.1 t.render_ne_nil

/-- A name that can stand in a tag. -/
def isTagName (name : Text) : Bool := !name.isEmpty && name.all isNameChar

/-- A token that can be written and that the dialect knows. -/
def Token.Valid (d : Dialect) : Token → Prop
  | .char _ => True
  | .opening tag attrs =>
      d.tag tag = true ∧ isTagName tag = true ∧ ∀ attr ∈ attrs, isTagName attr.1 = true
  | .closing tag => isTagName tag = true

theorem isNameChar_val {c : CodePoint} (h : isNameChar c = true) :
    c.val = 0x23 ∨ 0x30 ≤ c.val ∧ c.val ≤ 0x39 ∨ 0x41 ≤ c.val ∧ c.val ≤ 0x7a := by
  simp only [isNameChar, Bool.or_eq_true, Bool.and_eq_true, decide_eq_true_eq] at h
  obtain ((h | h) | h) | rfl := h
  · omega
  · omega
  · omega
  · exact .inl rfl

theorem ne_of_isNameChar {c : CodePoint} (h : isNameChar c = true) (c' : CodePoint)
    (h' : isNameChar c' = false) : c ≠ c' := by
  rintro rfl
  rw [h] at h'
  contradiction

theorem isSpace_of_isNameChar {c : CodePoint} (h : isNameChar c = true) : isSpace c = false := by
  have hval := isNameChar_val h
  have hspace : isSpace c = true → c.val ≤ 0x20 ∨ 0x85 ≤ c.val := by
    simp only [isSpace, List.contains_eq_mem, Bool.or_eq_true, Bool.and_eq_true,
      decide_eq_true_eq, List.mem_cons, List.not_mem_nil, or_false]
    omega
  by_contra h
  have hends := hspace (Bool.eq_true_of_not_eq_false h)
  omega

theorem isTagName_cons {c : CodePoint} {name : Text} :
    isTagName (c :: name) = true ↔ isNameChar c = true ∧ ∀ c' ∈ name, isNameChar c' = true := by
  simp [isTagName]

section RoundTrip

variable {d : Dialect} {s name : Text} {c e : CodePoint} {start : StartTag} {attr : Text}

/-- The machine collects what a text is made of, one piece after the other. -/
theorem steps_collect (mode : Text → Mode) (piece : CodePoint → Text) (s : Text)
    (hpiece : ∀ read, ∀ c ∈ s, steps d (mode read) (piece c) = some ([], mode (read ++ [c])))
    (read : Text) : steps d (mode read) (s.flatMap piece) = some ([], mode (read ++ s)) := by
  induction s generalizing read with
  | nil => rw [List.flatMap_nil, steps_nil, List.append_nil]
  | cons c s ih =>
      have hfirst := hpiece read c List.mem_cons_self
      have hrest := ih (fun read c hc => hpiece read c (List.mem_cons_of_mem _ hc)) (read ++ [c])
      rw [List.append_assoc] at hrest
      rw [List.flatMap_cons]
      exact steps_append_of hfirst hrest

theorem steps_collect_chars (mode : Text → Mode) (s : Text)
    (hchar : ∀ read, ∀ c ∈ s, step d (mode read) c = some ([], mode (read ++ [c])))
    (read : Text) : steps d (mode read) s = some ([], mode (read ++ s)) := by
  have hpieces := steps_collect mode (fun c => [c]) s (fun read c hc => by
    rw [steps_cons, hchar read c hc]
    rfl) read
  rwa [List.flatMap_singleton' s] at hpieces

/-! ### References -/

/-- A reference in a text. -/
theorem steps_reference (hname : ∀ c ∈ name, isNameChar c = true)
    (he : d.entity name = some e) :
    steps d .text (ofChar '&' :: name ++ [ofChar ';']) = some ([.char e], .text) := by
  have hopen : steps d .text [ofChar '&'] = some ([], .entity []) := rfl
  have hread := steps_collect_chars (d := d) .entity name
    (fun read c hc => if_pos (hname c hc)) []
  have hsemicolon : isNameChar (ofChar ';') = false := by decide
  have hclose : steps d (.entity name) [ofChar ';'] = some ([.char e], .text) := by
    rw [steps_cons, step, hsemicolon, if_neg Bool.false_ne_true, if_pos rfl, he]
    rfl
  exact steps_append_of (steps_append_of hopen hread) hclose

/-- A reference in a value. -/
theorem steps_reference_value {quote : CodePoint} {value : Text}
    (hquote : ofChar '&' ≠ quote) (hname : ∀ c ∈ name, isNameChar c = true)
    (he : d.entity name = some e) :
    steps d (.value start attr quote value) (ofChar '&' :: name ++ [ofChar ';']) =
      some ([], .value start attr quote (value ++ [e])) := by
  have hopen : steps d (.value start attr quote value) [ofChar '&'] =
      some ([], .valueEntity start attr quote value []) := by
    rw [steps_cons, step, stepValue, if_neg hquote, if_pos rfl]
    rfl
  have hread := steps_collect_chars (d := d) (.valueEntity start attr quote value) name
    (fun read c hc => if_pos (hname c hc)) []
  have hsemicolon : isNameChar (ofChar ';') = false := by decide
  have hclose : steps d (.valueEntity start attr quote value name) [ofChar ';'] =
      some ([], .value start attr quote (value ++ [e])) := by
    rw [steps_cons, step, hsemicolon, if_neg Bool.false_ne_true, if_pos rfl, he]
    rfl
  exact steps_append_of (steps_append_of hopen hread) hclose

/-- An escaped character is read as itself. -/
theorem steps_escapeChar (c : CodePoint) :
    steps d .text (escapeChar c) = some ([.char c], .text) := by
  rw [escapeChar]
  by_cases hamp : c = ofChar '&'
  · rw [if_pos hamp, hamp]
    exact steps_reference (List.all_eq_true.mp (by decide)) d.amp
  by_cases hlt : c = ofChar '<'
  · rw [if_neg hamp, if_pos hlt, hlt]
    exact steps_reference (List.all_eq_true.mp (by decide)) d.lt
  by_cases hgt : c = ofChar '>'
  · rw [if_neg hamp, if_neg hlt, if_pos hgt, hgt]
    exact steps_reference (List.all_eq_true.mp (by decide)) d.gt
  · rw [if_neg hamp, if_neg hlt, if_neg hgt, steps_cons, step, stepText, if_neg hlt, if_neg hamp]
    rfl

theorem steps_escapeAttrChar (value : Text) (c : CodePoint) :
    steps d (.value start attr (ofChar '"') value) (escapeAttrChar c) =
      some ([], .value start attr (ofChar '"') (value ++ [c])) := by
  rw [escapeAttrChar]
  by_cases hamp : c = ofChar '&'
  · rw [if_pos hamp, hamp]
    exact steps_reference_value (by decide) (List.all_eq_true.mp (by decide)) d.amp
  by_cases hquot : c = ofChar '"'
  · rw [if_neg hamp, if_pos hquot, hquot]
    exact steps_reference_value (by decide) (List.all_eq_true.mp (by decide)) d.quot
  · rw [if_neg hamp, if_neg hquot, steps_cons, step, stepValue, if_neg hquot, if_neg hamp]
    rfl

/-! ### Tags -/

theorem steps_renderAttr {attr : Text × Text} (hname : isTagName attr.1 = true) :
    steps d (.gap start) (renderAttr attr) =
      some ([], .gap { start with attrs := start.attrs ++ [attr] }) := by
  obtain ⟨name, value⟩ := attr
  cases name with
  | nil => cases hname
  | cons c name =>
      obtain ⟨hc, hname⟩ := isTagName_cons.mp hname
      have hspace : steps d (.gap start) [ofChar ' '] = some ([], .gap start) := rfl
      have hfirst : steps d (.gap start) [c] = some ([], .attrName start [c]) := by
        rw [steps_cons, step, if_neg (ne_of_isNameChar hc _ (by decide)),
          isSpace_of_isNameChar hc, if_neg Bool.false_ne_true,
          if_neg (ne_of_isNameChar hc _ (by decide))]
        rfl
      have hrest := steps_collect_chars (d := d) (.attrName start) name
        (fun read c' hc' => by
          have hne := ne_of_isNameChar (hname c' hc') (ofChar '=') (by decide)
          have hclose := ne_of_isNameChar (hname c' hc') (ofChar '>') (by decide)
          rw [step, if_neg hne, isSpace_of_isNameChar (hname c' hc'), if_neg (by simp [hclose])])
        [c]
      have hequals : steps d (.attrName start (c :: name)) (text "=\"") =
          some ([], .value start (c :: name) (ofChar '"') []) := rfl
      have hvalue := steps_collect (d := d) (.value start (c :: name) (ofChar '"'))
        escapeAttrChar value (fun read c' _ => steps_escapeAttrChar read c') []
      have hquote : steps d (.value start (c :: name) (ofChar '"') value) (text "\"") =
          some ([], .gap { start with attrs := start.attrs ++ [(c :: name, value)] }) := rfl
      exact steps_append_of (steps_append_of (steps_append_of
        (steps_append_of (steps_append_of hspace hfirst) hrest) hequals) hvalue) hquote

theorem steps_attrs (start : StartTag) {attrs : List (Text × Text)}
    (htag : d.tag start.tag = true)
    (hnames : ∀ attr ∈ attrs, isTagName attr.1 = true) :
    steps d (.gap start) (attrs.flatMap renderAttr ++ text ">") =
      some ([.opening start.tag (start.attrs ++ attrs)], .text) := by
  induction attrs generalizing start with
  | nil =>
      have hend : step d (.gap start) (ofChar '>') = finish d start := by rw [step, if_pos rfl]
      have hsteps : steps d (.gap start) [ofChar '>'] =
          some ([.opening start.tag start.attrs], .text) := by
        rw [steps_cons, hend, finish, if_pos htag]
        rfl
      rw [List.append_nil]
      exact hsteps
  | cons attr attrs ih =>
      obtain ⟨hname, hnames⟩ := List.forall_mem_cons.mp hnames
      have hrest := ih { start with attrs := start.attrs ++ [attr] } htag hnames
      rw [List.append_assoc] at hrest
      rw [List.flatMap_cons, List.append_assoc]
      exact steps_append_of (steps_renderAttr hname) hrest

theorem steps_opening {tag : Text} {attrs : List (Text × Text)}
    (hvalid : (Token.opening tag attrs).Valid d) :
    steps d .text (Token.opening tag attrs).render = some ([.opening tag attrs], .text) := by
  obtain ⟨htag, hname, hattrs⟩ := hvalid
  cases tag with
  | nil => cases hname
  | cons c tag =>
      obtain ⟨hc, hname⟩ := isTagName_cons.mp hname
      have hopen : steps d .text [ofChar '<'] = some ([], .opened) := rfl
      have hfirst : steps d .opened [c] = some ([], .tagName [c]) := by
        have hclose := ne_of_isNameChar hc (ofChar '>') (by decide)
        rw [steps_cons, step, if_neg (ne_of_isNameChar hc _ (by decide)),
          isSpace_of_isNameChar hc, if_neg (by simp [hclose])]
        rfl
      have hrest := steps_collect_chars (d := d) .tagName tag
        (fun read c' hc' => by
          rw [step, if_neg (ne_of_isNameChar (hname c' hc') _ (by decide)),
            isSpace_of_isNameChar (hname c' hc'), if_neg Bool.false_ne_true]) [c]
      have hattrs : steps d (.tagName (c :: tag)) (attrs.flatMap renderAttr ++ text ">") =
          some ([.opening (c :: tag) attrs], .text) := by
        -- The name ends at the first blank or, without attributes, at the end of the tag.
        have hgap := steps_attrs { tag := c :: tag } htag hattrs
        cases attrs with
        | nil => exact hgap
        | cons attr attrs => exact hgap
      have hnames : steps d .text (ofChar '<' :: (c :: tag)) = some ([], .tagName (c :: tag)) :=
        steps_append_of (steps_append_of hopen hfirst) hrest
      have hall := steps_append_of hnames hattrs
      rwa [← List.append_assoc] at hall

theorem steps_closing {tag : Text} (hname : isTagName tag = true) :
    steps d .text (Token.closing tag).render = some ([.closing tag], .text) := by
  have hchars : ∀ c ∈ tag, isNameChar c = true := by
    rw [isTagName, Bool.and_eq_true] at hname
    exact List.all_eq_true.mp hname.2
  have hopen : steps d .text (text "</") = some ([], .endTag []) := rfl
  have hread := steps_collect_chars (d := d) .endTag tag
    (fun read c hc => if_neg (ne_of_isNameChar (hchars c hc) _ (by decide))) []
  have hclose : steps d (.endTag tag) (text ">") = some ([.closing tag], .text) := by
    have hend : step d (.endTag tag) (ofChar '>') = some ([.closing tag], .text) := by
      rw [step, if_pos rfl]
    show steps d (.endTag tag) [ofChar '>'] = _
    rw [steps_cons, hend]
    rfl
  exact steps_append_of (steps_append_of hopen hread) hclose

theorem steps_token {t : Token} (hvalid : t.Valid d) :
    steps d .text t.render = some ([t], .text) := by
  cases t with
  | char c => exact steps_escapeChar c
  | opening tag attrs => exact steps_opening hvalid
  | closing tag => exact steps_closing hvalid

theorem steps_render {ts : List Token} (hvalid : ∀ t ∈ ts, t.Valid d) :
    steps d .text (render ts) = some (ts, .text) := by
  induction ts with
  | nil => rfl
  | cons t ts ih =>
      obtain ⟨ht, hts⟩ := List.forall_mem_cons.mp hvalid
      rw [render_cons]
      exact steps_append_of (steps_token ht) (ih hts)

end RoundTrip

/-! ## Markup that is well formed -/

/-- Every token is known, and every tag that is opened is closed. -/
structure WellFormed (d : Dialect) (ts : List Token) : Prop where
  valid : ∀ t ∈ ts, t.Valid d
  closed : closes [] ts = true

section Closes

variable {openTags : List Text} {ts : List Token} {tag : Text}

@[simp] theorem closes_char (c : CodePoint) :
    closes openTags (.char c :: ts) = closes openTags ts := by
  cases openTags <;> rfl

@[simp] theorem closes_opening (attrs : List (Text × Text)) :
    closes openTags (.opening tag attrs :: ts) = closes (tag :: openTags) ts := by
  cases openTags <;> rfl

@[simp] theorem closes_closing :
    closes (tag :: openTags) (.closing tag :: ts) = closes openTags ts := by
  simp [closes]

/-- What comes before is closed first. -/
theorem closes_append (outer : List Text) (ts' : List Token)
    (h : closes openTags ts = true) :
    closes (openTags ++ outer) (ts ++ ts') = closes outer ts' := by
  induction ts generalizing openTags with
  | nil =>
      cases openTags with
      | nil => rfl
      | cons tag openTags => cases h
  | cons t ts ih =>
      cases t with
      | char c =>
          rw [closes_char] at h
          rw [List.cons_append, closes_char, ih h]
      | opening tag attrs =>
          rw [closes_opening] at h
          rw [List.cons_append, closes_opening, ← List.cons_append, ih h]
      | closing tag =>
          cases openTags with
          | nil => cases h
          | cons tag' openTags =>
              obtain ⟨rfl, hrest⟩ : tag' = tag ∧ closes openTags ts = true := by
                simpa [closes] using h
              rw [List.cons_append, List.cons_append, closes_closing, ih hrest]

end Closes

/-- A tag with what it is around. -/
def element (tag : Text) (attrs : List (Text × Text)) (body : List Token) : List Token :=
  .opening tag attrs :: body ++ [.closing tag]

theorem render_element (tag : Text) (attrs : List (Text × Text)) (body : List Token) :
    render (element tag attrs body) =
      ofChar '<' :: tag ++ attrs.flatMap renderAttr ++ text ">" ++ render body ++
        (text "</" ++ tag ++ text ">") := by
  rw [element, render_append, render_cons, render_cons, render_nil, List.append_nil]
  rfl

namespace WellFormed

variable {d : Dialect} {ts ts' : List Token}

theorem nil : WellFormed d [] where
  valid := nofun
  closed := rfl

theorem append (h : WellFormed d ts) (h' : WellFormed d ts') : WellFormed d (ts ++ ts') where
  valid := by
    intro t ht
    rw [List.mem_append] at ht
    exact ht.elim (h.valid t) (h'.valid t)
  closed := by
    have houter := closes_append [] ts' h.closed
    rwa [List.append_nil, h'.closed] at houter

theorem chars (s : Text) : WellFormed d (chars s) where
  valid := by
    intro t ht
    obtain ⟨c, -, rfl⟩ := List.mem_map.mp ht
    trivial
  closed := by
    induction s with
    | nil => rfl
    | cons c s ih => rwa [chars_cons, closes_char]

theorem element {tag : Text} {attrs : List (Text × Text)}
    (hvalid : (Token.opening tag attrs).Valid d) (h : WellFormed d ts) :
    WellFormed d (element tag attrs ts) where
  valid := by
    intro t ht
    simp only [Html.element, List.cons_append, List.mem_cons, List.mem_append,
      List.not_mem_nil, or_false] at ht
    obtain rfl | ht | rfl := ht
    · exact hvalid
    · exact h.valid t ht
    · exact hvalid.2.1
  closed := by
    have hbody := closes_append [tag] [.closing tag] h.closed
    rw [List.nil_append, closes_closing] at hbody
    rw [Html.element, List.cons_append, closes_opening, hbody]
    rfl

theorem intercalate {sep : List Token} {pieces : List (List Token)} (hsep : WellFormed d sep)
    (h : ∀ ts ∈ pieces, WellFormed d ts) : WellFormed d (sep.intercalate pieces) := by
  induction pieces with
  | nil => exact nil
  | cons ts pieces ih =>
      obtain ⟨hts, hpieces⟩ := List.forall_mem_cons.mp h
      cases pieces with
      | nil => rwa [List.intercalate_singleton]
      | cons ts' pieces =>
          rw [List.intercalate_cons_cons]
          exact (hts.append hsep).append (ih hpieces)

end WellFormed

theorem render_intercalate (sep : List Token) (pieces : List (List Token)) :
    render (sep.intercalate pieces) = (render sep).intercalate (pieces.map render) := by
  induction pieces with
  | nil => rfl
  | cons ts pieces ih =>
      cases pieces with
      | nil => rw [List.intercalate_singleton, List.map_singleton, List.intercalate_singleton]
      | cons ts' pieces =>
          rw [List.intercalate_cons_cons, render_append, render_append, ih]
          exact (List.intercalate_cons_cons).symm

/-- What is rendered is read back. -/
theorem parse_render {d : Dialect} {ts : List Token} (h : WellFormed d ts) :
    parse d (render ts) = some ts := by
  have hrun : run d .text (render ts) = some ts := by
    rw [run, steps_render h.valid]
    simp [atEnd]
  rw [parse, hrun, Option.filter_some, if_pos h.closed]

theorem parse_escape (d : Dialect) (s : Text) : parse d (escape s) = some (chars s) := by
  rw [← render_chars]
  exact parse_render (.chars s)

/-! ## What is shown -/

/-- The characters outside the tags. -/
def visible (ts : List Token) : Text :=
  ts.filterMap fun t => match t with
    | .char c => some c
    | _ => none

/-- The tags, with their attributes left out; end tags are marked. -/
def tags (ts : List Token) : List (Bool × Text) :=
  ts.filterMap fun t => match t with
    | .char _ => none
    | .opening tag _ => some (false, tag)
    | .closing tag => some (true, tag)

section Shown

variable (ts ts' : List Token) (s tag : Text) (attrs : List (Text × Text))

@[simp] theorem visible_append : visible (ts ++ ts') = visible ts ++ visible ts' :=
  List.filterMap_append

@[simp] theorem visible_chars : visible (chars s) = s := by
  induction s with
  | nil => rfl
  | cons c s ih => rw [chars_cons, visible, List.filterMap_cons, ← visible, ih]

@[simp] theorem visible_element : visible (element tag attrs ts) = visible ts := by
  rw [element, visible_append, visible, List.filterMap_cons, ← visible]
  exact List.append_nil _

@[simp] theorem tags_append : tags (ts ++ ts') = tags ts ++ tags ts' := List.filterMap_append

@[simp] theorem tags_chars : tags (chars s) = [] := by
  induction s with
  | nil => rfl
  | cons c s ih => rw [chars_cons, tags, List.filterMap_cons, ← tags, ih]

@[simp] theorem tags_element :
    tags (element tag attrs ts) = (false, tag) :: tags ts ++ [(true, tag)] := by
  rw [element, tags_append, tags, List.filterMap_cons, ← tags]
  rfl

theorem tags_intercalate (pieces : List (List Token)) (hsep : tags ts = []) :
    tags (ts.intercalate pieces) = pieces.flatMap tags := by
  induction pieces with
  | nil => rfl
  | cons piece pieces ih =>
      cases pieces with
      | nil => rw [List.intercalate_singleton, List.flatMap_singleton]
      | cons piece' pieces =>
          rw [List.intercalate_cons_cons, tags_append, tags_append, hsep, List.append_nil, ih]
          rfl

end Shown

end Html
