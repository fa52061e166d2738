import UserTgBot.Library.PyText

/-!
# Base64 between a browser and Python

`btoa` and `atob` of a browser next to `base64.b64decode` of Python, over character codes. Bytes
become digits of six bits; `btoa` writes the digits and pads the last group, and both decoders
find the bytes again.
-/

namespace Base64

open PyText

/-- The character of six bits. -/
def char (v : Nat) : Nat :=
  if v < 26 then 0x41 + v
  else if v < 52 then 0x61 + (v - 26)
  else if v < 62 then 0x30 + (v - 52)
  else if v = 62 then 0x2b
  else 0x2f

def pad : Nat := 0x3d

/-- The six bits of a character of the alphabet. -/
def value? (n : Nat) : Option Nat :=
  if 0x41 ≤ n ∧ n ≤ 0x5a then some (n - 0x41)
  else if 0x61 ≤ n ∧ n ≤ 0x7a then some (n - 0x61 + 26)
  else if 0x30 ≤ n ∧ n ≤ 0x39 then some (n - 0x30 + 52)
  else if n = 0x2b then some 62
  else if n = 0x2f then some 63
  else none

/-- The bytes in groups of six bits. -/
def digits : List UInt8 → List Nat
  | a :: b :: c :: rest =>
      a.toNat / 4 :: (a.toNat % 4 * 16 + b.toNat / 16) ::
        (b.toNat % 16 * 4 + c.toNat / 64) :: c.toNat % 64 :: digits rest
  | [a, b] => [a.toNat / 4, a.toNat % 4 * 16 + b.toNat / 16, b.toNat % 16 * 4]
  | [a] => [a.toNat / 4, a.toNat % 4 * 16]
  | [] => []

/-- The bytes that the digits hold in full. -/
def bytes : List Nat → List UInt8
  | a :: b :: c :: d :: rest =>
      .ofNat (a * 4 + b / 16) :: .ofNat (b % 16 * 16 + c / 4) :: .ofNat (c % 4 * 64 + d) ::
        bytes rest
  | [a, b, c] => [.ofNat (a * 4 + b / 16), .ofNat (b % 16 * 16 + c / 4)]
  | [a, b] => [.ofNat (a * 4 + b / 16)]
  | [_] => []
  | [] => []

/-- `btoa`, as character codes. -/
def btoa (bs : List UInt8) : List Nat :=
  (digits bs).map char ++ List.replicate ((3 - bs.length % 3) % 3) pad

/-- White space that `atob` leaves out. -/
def isSpace (n : Nat) : Bool := [0x09, 0x0a, 0x0c, 0x0d, 0x20].contains n

/-- One or two padding characters at the end go. -/
def unpad (s : List Nat) : List Nat :=
  match s.reverse with
  | x :: y :: rest =>
      if x = pad then (if y = pad then rest.reverse else (y :: rest).reverse) else s
  | _ => s

/-- `atob`; `none` is an `InvalidCharacterError`. -/
def atob (s : List Nat) : Option (List UInt8) :=
  let data := s.filter (!isSpace ·)
  let data := if data.length % 4 = 0 then unpad data else data
  if data.length % 4 = 1 then none else (data.mapM value?).map bytes

section RoundTrip

variable {bs : List UInt8} {v n : Nat}

theorem value?_char (h : v < 64) : value? (char v) = some v := by
  have hall : ∀ v < 64, value? (char v) = some v := by decide
  exact hall v h

theorem value?_pad : value? pad = none := rfl

theorem char_ne_pad (h : v < 64) : char v ≠ pad := by
  intro heq
  have hvalue := value?_char h
  rw [heq, value?_pad] at hvalue
  cases hvalue

theorem isSpace_of_value? (h : value? n = some v) : isSpace n = false := by
  by_contra hspace
  have hmem : n ∈ [0x09, 0x0a, 0x0c, 0x0d, 0x20] :=
    List.contains_iff_mem.mp (Bool.of_not_eq_false hspace)
  have hnone : ∀ m ∈ [0x09, 0x0a, 0x0c, 0x0d, 0x20], value? m = none := by decide
  rw [hnone n hmem] at h
  cases h

theorem lt_of_mem_digits (h : v ∈ digits bs) : v < 64 := by
  induction bs using digits.induct with
  | case1 a b c rest ih =>
      have ha := a.toNat_lt
      have hb := b.toNat_lt
      have hc := c.toNat_lt
      simp only [digits, List.mem_cons] at h
      obtain rfl | rfl | rfl | rfl | h := h
      · omega
      · omega
      · omega
      · omega
      · exact ih h
  | case2 a b =>
      have ha := a.toNat_lt
      have hb := b.toNat_lt
      simp only [digits, List.mem_cons, List.not_mem_nil, or_false] at h
      omega
  | case3 a =>
      have ha := a.toNat_lt
      simp only [digits, List.mem_cons, List.not_mem_nil, or_false] at h
      omega
  | case4 => cases h

theorem ofNat_eq (b : UInt8) (h : n = b.toNat) : UInt8.ofNat n = b := by
  rw [h, UInt8.ofNat_toNat]

/-- The digits hold the bytes. -/
theorem bytes_digits (bs : List UInt8) : bytes (digits bs) = bs := by
  induction bs using digits.induct with
  | case1 a b c rest ih =>
      have ha := a.toNat_lt
      have hb := b.toNat_lt
      have hc := c.toNat_lt
      rw [digits, bytes, ih, ofNat_eq a (by omega), ofNat_eq b (by omega), ofNat_eq c (by omega)]
  | case2 a b =>
      have ha := a.toNat_lt
      have hb := b.toNat_lt
      rw [digits, bytes, ofNat_eq a (by omega), ofNat_eq b (by omega)]
  | case3 a =>
      have ha := a.toNat_lt
      rw [digits, bytes, ofNat_eq a (by omega)]
  | case4 => rfl

/-- How many digits the last group has. -/
theorem length_digits (bs : List UInt8) :
    (digits bs).length + (3 - bs.length % 3) % 3 = (bs.length + 2) / 3 * 4 := by
  induction bs using digits.induct with
  | case1 a b c rest ih =>
      simp only [digits, List.length_cons]
      omega
  | case2 a b => simp [digits]
  | case3 a => simp [digits]
  | case4 => rfl

theorem mapM_value?_digits (bs : List UInt8) :
    ((digits bs).map char).mapM value? = some (digits bs) := by
  have hall : ∀ vs : List Nat, (∀ v ∈ vs, v < 64) → (vs.map char).mapM value? = some vs := by
    intro vs
    induction vs with
    | nil => exact fun _ => rfl
    | cons v vs ih =>
        intro hlt
        obtain ⟨hv, hvs⟩ := List.forall_mem_cons.mp hlt
        simp [value?_char hv, ih hvs]
  exact hall _ fun v hv => lt_of_mem_digits hv

/-- Without padding at the end nothing goes. -/
theorem unpad_of_last {s : List Nat} {x : Nat} (h : x ≠ pad) : unpad (s ++ [x]) = s ++ [x] := by
  rw [unpad, List.reverse_append, List.reverse_singleton, List.singleton_append]
  cases s.reverse with
  | nil => rfl
  | cons y rest => exact if_neg h

theorem unpad_one {s : List Nat} {x : Nat} (h : x ≠ pad) :
    unpad (s ++ [x] ++ [pad]) = s ++ [x] := by
  rw [unpad, List.reverse_append, List.reverse_append, List.reverse_singleton,
    List.reverse_singleton, List.singleton_append, List.singleton_append]
  simp [h]

theorem unpad_two (s : List Nat) : unpad (s ++ [pad, pad]) = s := by
  rw [unpad, List.reverse_append]
  simp

theorem unpad_btoa (bs : List UInt8) : unpad (btoa bs) = (digits bs).map char := by
  cases hdigits : (digits bs).reverse with
  | nil =>
      have hnil : digits bs = [] := by simpa using hdigits
      have hbs : bs = [] := by
        rw [← bytes_digits bs, hnil]
        rfl
      rw [hbs]
      rfl
  | cons v vs =>
      have hlast : digits bs = vs.reverse ++ [v] := by
        rw [← List.reverse_reverse (digits bs), hdigits, List.reverse_cons]
      have hv : v < 64 := lt_of_mem_digits (by rw [hlast]; simp)
      have hmod : bs.length % 3 < 3 := Nat.mod_lt _ (by omega)
      rw [btoa, hlast, List.map_append, List.map_singleton]
      obtain h | h | h : bs.length % 3 = 0 ∨ bs.length % 3 = 1 ∨ bs.length % 3 = 2 := by omega
      · rw [h, List.replicate_zero, List.append_nil]
        exact unpad_of_last (char_ne_pad hv)
      · rw [h]
        exact unpad_two _
      · rw [h]
        exact unpad_one (char_ne_pad hv)

theorem char_lt (h : v < 64) : char v < 0x80 := by
  have hall : ∀ v < 64, char v < 0x80 := by decide
  exact hall v h

theorem lt_of_mem_btoa (h : n ∈ btoa bs) : n < 0x80 := by
  obtain h | h := List.mem_append.mp h
  · obtain ⟨v, hv, rfl⟩ := List.mem_map.mp h
    exact char_lt (lt_of_mem_digits hv)
  · obtain rfl := List.eq_of_mem_replicate h
    decide

theorem isSpace_btoa (h : n ∈ btoa bs) : isSpace n = false := by
  obtain h | h := List.mem_append.mp h
  · obtain ⟨v, hv, rfl⟩ := List.mem_map.mp h
    exact isSpace_of_value? (value?_char (lt_of_mem_digits hv))
  · obtain rfl := List.eq_of_mem_replicate h
    rfl

/-- The browser reads what it has written. -/
theorem atob_btoa (bs : List UInt8) : atob (btoa bs) = some bs := by
  have hfilter : (btoa bs).filter (!isSpace ·) = btoa bs :=
    List.filter_eq_self.mpr fun n hn => by rw [isSpace_btoa hn]; rfl
  have hlength : (btoa bs).length % 4 = 0 := by
    have h := length_digits bs
    rw [btoa, List.length_append, List.length_map, List.length_replicate]
    omega
  have hgroups : ((digits bs).map char).length % 4 ≠ 1 := by
    have h := length_digits bs
    rw [List.length_map]
    omega
  rw [atob, hfilter]
  simp only [hlength, if_true, unpad_btoa]
  rw [if_neg hgroups, mapM_value?_digits, Option.map_some, bytes_digits]

end RoundTrip

/-! ## Python -/

def ofCode (n : Nat) : CodePoint := ⟨n % 0x110000, Nat.mod_lt _ (by decide)⟩

/-- A string of the browser without surrogates, as Python gets it. -/
def ofCodes (s : List Nat) : Text := s.map ofCode

/-- How many `=` may follow `n` digits. -/
def Padded (n k : Nat) : Prop := n % 4 = 0 ∨ n % 4 = 2 ∧ k = 2 ∨ n % 4 = 3 ∧ k = 1

/-- The decoder behind the digits. -/
def feed (ds : List Nat) : Base64State := ds.foldl Base64State.push .empty

section Python

variable {bs : List UInt8} {ds vs : List Nat} {v n k : Nat} {c : CodePoint} {s : Text}
variable {out : List UInt8}

theorem ofCodes_append (s t : List Nat) : ofCodes (s ++ t) = ofCodes s ++ ofCodes t :=
  List.map_append

theorem ofCodes_pads (k : Nat) :
    ofCodes (List.replicate k pad) = List.replicate k (ofChar '=') := by
  rw [ofCodes, List.map_replicate]
  rfl

/-- Both sides have the same alphabet. -/
theorem base64Value_eq (c : CodePoint) : base64Value c = value? c.val := rfl

theorem base64Value_char (h : v < 64) :
    base64Value (ofCode (char v)) = some v := by
  have hsmall : char v % 0x110000 = char v := Nat.mod_eq_of_lt (by have := char_lt h; omega)
  rw [base64Value_eq, ← value?_char h]
  change value? (char v % 0x110000) = _
  rw [hsmall]

theorem char_of_value? (h : value? n = some v) : v < 64 ∧ char v = n := by
  have hall : ∀ n < 0x80, (value? n).all fun v => decide (v < 64 ∧ char v = n) := by decide
  have hlt : n < 0x80 := by
    by_contra hge
    have hnone : value? n = none := by
      rw [value?, if_neg (by omega), if_neg (by omega), if_neg (by omega), if_neg (by omega),
        if_neg (by omega)]
    rw [hnone] at h
    cases h
  have hchar := hall n hlt
  rw [h] at hchar
  exact of_decide_eq_true hchar

theorem ofNat_char_ne (h : v < 64) : ofCode (char v) ≠ ofChar '=' := by
  intro heq
  have hvalue := base64Value_char h
  rw [heq] at hvalue
  cases hvalue

theorem feed_append_singleton (ds : List Nat) (v : Nat) :
    feed (ds ++ [v]) = (feed ds).push v := by
  rw [feed, List.foldl_append]
  rfl

/-- Four digits are three bytes, and the decoder starts afresh. -/
theorem foldl_push (ds : List Nat) (decoded : List UInt8) :
    ∃ left, ds.foldl Base64State.push ⟨0, 0, 0, false, decoded⟩ =
      ⟨ds.length % 4, left, 0, false, (bytes ds).reverse ++ decoded⟩ := by
  induction ds using bytes.induct generalizing decoded with
  | case1 a b c d rest ih =>
      have hlength : (a :: b :: c :: d :: rest).length % 4 = rest.length % 4 := by
        simp only [List.length_cons]
        omega
      rw [hlength]
      simp only [List.foldl_cons, Base64State.push]
      obtain ⟨left, hrest⟩ := ih (.ofNat (c % 4 * 64 + d) :: .ofNat (b % 16 * 16 + c / 4) ::
        .ofNat (a * 4 + b / 16) :: decoded)
      refine ⟨left, ?_⟩
      rw [hrest, bytes]
      simp
  | case2 a b c => exact ⟨_, rfl⟩
  | case3 a b => exact ⟨_, rfl⟩
  | case4 a => exact ⟨_, rfl⟩
  | case5 => exact ⟨_, rfl⟩

theorem feed_eq (ds : List Nat) :
    ∃ left, feed ds = ⟨ds.length % 4, left, 0, false, (bytes ds).reverse⟩ := by
  obtain ⟨left, h⟩ := foldl_push ds []
  exact ⟨left, by rw [feed, Base64State.empty, h, List.append_nil]⟩

/-- A digit is pushed. -/
theorem a2bBase64_char (h : v < 64) (ds : List Nat) (s : Text) :
    a2bBase64 (feed ds) (ofCode (char v) :: s) = a2bBase64 (feed (ds ++ [v])) s := by
  obtain ⟨left, hfeed⟩ := feed_eq ds
  rw [a2bBase64, if_neg (ofNat_char_ne h), base64Value_char h, feed_append_singleton, hfeed]
  rfl

theorem a2bBase64_digits (h : ∀ v ∈ vs, v < 64) (ds : List Nat) (s : Text) :
    a2bBase64 (feed ds) (ofCodes (vs.map char) ++ s) = a2bBase64 (feed (ds ++ vs)) s := by
  induction vs generalizing ds with
  | nil => rw [List.append_nil]; rfl
  | cons v vs ih =>
      obtain ⟨hv, hvs⟩ := List.forall_mem_cons.mp h
      have hcons : ofCodes ((v :: vs).map char) ++ s =
          ofCode (char v) :: (ofCodes (vs.map char) ++ s) := rfl
      rw [hcons, a2bBase64_char hv, ih hvs, List.append_assoc, List.singleton_append]

/-- Behind whole groups `=` is passed over. -/
theorem a2bBase64_passed (k : Nat) {left pads : Nat} {started : Bool} {decoded : List UInt8} :
    a2bBase64 ⟨0, left, pads, started, decoded⟩ (List.replicate k (ofChar '=')) =
      .ok decoded.reverse := by
  induction k generalizing started with
  | zero => rfl
  | succ k ih =>
      rw [List.replicate_succ, a2bBase64, if_pos rfl, if_neg (by simp)]
      exact ih

theorem a2bBase64_pads (h : Padded ds.length k) :
    a2bBase64 (feed ds) (List.replicate k (ofChar '=')) = .ok (bytes ds) := by
  obtain ⟨left, hfeed⟩ := feed_eq ds
  rw [hfeed]
  obtain hmod | ⟨hmod, rfl⟩ | ⟨hmod, rfl⟩ := h
  · rw [hmod, a2bBase64_passed, List.reverse_reverse]
  · rw [hmod]
    simp [List.replicate, a2bBase64]
  · rw [hmod]
    simp [List.replicate, a2bBase64]

/-- What the decoder still takes behind the first `=`. -/
theorem replicate_of_ok (st : Base64State) (hlt : st.quadPos < 4) (hpads : 2 ≤ st.quadPos → st.quadPos + st.pads < 4)
    (hstarted : st.paddingStarted ∨ s.head? = some (ofChar '='))
    (h : a2bBase64 st s = .ok out) :
    out = st.decoded.reverse ∧ ∃ k, s = List.replicate k (ofChar '=') ∧
      (st.quadPos = 0 ∨ 2 ≤ st.quadPos ∧ st.quadPos + st.pads + k = 4) := by
  induction s generalizing st with
  | nil =>
      rw [a2bBase64] at h
      split at h
      · rename_i hzero
        exact ⟨(Except.ok.inj h).symm, 0, rfl, .inl hzero⟩
      · split at h <;> cases h
  | cons c s ih =>
      rw [a2bBase64] at h
      split at h
      · rename_i hc
        subst hc
        split at h
        · rename_i htwo
          split at h
          · rename_i hfour
            split at h
            · rename_i hnil
              subst hnil
              exact ⟨(Except.ok.inj h).symm, 1, rfl, .inr ⟨htwo, by have := hpads htwo; omega⟩⟩
            · cases h
          · obtain ⟨hout, k, hs, hk⟩ := ih { st with paddingStarted := true, pads := st.pads + 1 }
              hlt (fun _ => by simp only; omega) (.inl rfl) h
            refine ⟨hout, k + 1, by rw [hs]; rfl, ?_⟩
            simp only at hk
            omega
        · obtain ⟨hout, k, hs, hk⟩ := ih { st with paddingStarted := true } hlt hpads (.inl rfl) h
          refine ⟨hout, k + 1, by rw [hs]; rfl, ?_⟩
          simp only at hk
          omega
      · rename_i hc
        obtain hstarted | hhead := hstarted
        · split at h
          · cases h
          · rw [if_pos hstarted] at h
            cases h
        · exact absurd (Option.some.inj hhead) hc

/-- Behind digits a text is accepted only as more digits and the padding that they need. -/
theorem digits_of_ok (h : a2bBase64 (feed ds) s = .ok out) :
    ∃ vs k, (∀ v ∈ vs, v < 64) ∧ s = ofCodes (vs.map char) ++ List.replicate k (ofChar '=') ∧
      Padded (ds ++ vs).length k ∧ out = bytes (ds ++ vs) := by
  induction s generalizing ds with
  | nil =>
      obtain ⟨left, hfeed⟩ := feed_eq ds
      rw [hfeed, a2bBase64] at h
      split at h
      · rename_i hzero
        refine ⟨[], 0, by simp, rfl, .inl (by rw [List.append_nil]; exact hzero), ?_⟩
        rw [List.append_nil, ← Except.ok.inj h, List.reverse_reverse]
      · split at h <;> cases h
  | cons c s ih =>
      obtain ⟨left, hfeed⟩ := feed_eq ds
      by_cases hc : c = ofChar '='
      · subst hc
        rw [hfeed] at h
        obtain ⟨hout, k, hs, hk⟩ := replicate_of_ok _ (Nat.mod_lt _ (by omega))
          (fun _ => by simp only; omega) (.inr rfl) h
        refine ⟨[], k, by simp, hs, ?_, ?_⟩
        · rw [List.append_nil, Padded]
          simp only at hk
          omega
        · rw [List.append_nil, hout, List.reverse_reverse]
      · cases hvalue : base64Value c with
        | none =>
            rw [a2bBase64, if_neg hc, hvalue] at h
            cases h
        | some v =>
            obtain ⟨hv, hchar⟩ := char_of_value? (base64Value_eq c ▸ hvalue)
            have hcode : c = ofCode (char v) := by
              rw [hchar]
              exact Fin.ext (Nat.mod_eq_of_lt c.isLt).symm
            rw [hcode, a2bBase64_char hv] at h
            obtain ⟨vs, k, hvs, hs, hk, hout⟩ := ih h
            refine ⟨v :: vs, k, List.forall_mem_cons.mpr ⟨hv, hvs⟩, ?_, ?_, ?_⟩
            · rw [hcode, hs]
              rfl
            · rwa [List.append_assoc] at hk
            · rwa [List.append_assoc] at hout

theorem all_isAscii (h : ∀ v ∈ vs, v < 64) (k : Nat) :
    (ofCodes (vs.map char) ++ List.replicate k (ofChar '=')).all isAscii = true := by
  rw [List.all_append, Bool.and_eq_true, List.all_eq_true, List.all_eq_true]
  constructor
  · intro c hc
    rw [ofCodes, List.map_map] at hc
    obtain ⟨v, hv, rfl⟩ := List.mem_map.mp hc
    have hlt := char_lt (h v hv)
    have hval : (ofCode (char v)).val = char v := Nat.mod_eq_of_lt (by omega)
    exact decide_eq_true (hval.trans_lt hlt)
  · intro c hc
    obtain rfl := List.eq_of_mem_replicate hc
    rfl

/-- What `b64decode` accepts: digits and the padding that they need, never `=` alone. -/
theorem b64decode_ok_iff :
    b64decode s = .ok out ↔ ∃ ds k, (∀ d ∈ ds, d < 64) ∧ (ds = [] → k = 0) ∧
      s = ofCodes (ds.map char) ++ List.replicate k (ofChar '=') ∧ Padded ds.length k ∧
      out = bytes ds := by
  constructor
  · intro h
    rw [b64decode] at h
    split at h
    · cases h
    · split at h
      · cases h
      · rename_i hhead
        have hfeed : a2bBase64 (feed []) s = .ok out := h
        obtain ⟨vs, k, hvs, hs, hk, hout⟩ := digits_of_ok hfeed
        refine ⟨vs, k, hvs, ?_, hs, hk, hout⟩
        rintro rfl
        cases k with
        | zero => rfl
        | succ k => exact absurd (by rw [hs]; rfl) hhead
  · rintro ⟨ds, k, hds, hnil, rfl, hk, rfl⟩
    have hhead : (ofCodes (ds.map char) ++ List.replicate k (ofChar '=')).head? ≠
        some (ofChar '=') := by
      cases ds with
      | nil =>
          rw [hnil rfl]
          simp [ofCodes]
      | cons d ds =>
          intro heq
          exact ofNat_char_ne (hds d List.mem_cons_self) (Option.some.inj heq)
    rw [b64decode, if_neg (by simp [all_isAscii hds k]), if_neg hhead]
    have hdigits := a2bBase64_digits hds [] (List.replicate k (ofChar '='))
    rw [List.nil_append] at hdigits
    exact hdigits.trans (a2bBase64_pads hk)

theorem padded_digits (bs : List UInt8) :
    Padded (digits bs).length ((3 - bs.length % 3) % 3) := by
  have h := length_digits bs
  rw [Padded]
  omega

/-- Python reads what the browser has written. -/
theorem b64decode_btoa (bs : List UInt8) : b64decode (ofCodes (btoa bs)) = .ok bs := by
  refine b64decode_ok_iff.mpr ⟨digits bs, _, fun d hd => lt_of_mem_digits hd, ?_, ?_,
    padded_digits bs, (bytes_digits bs).symm⟩
  · intro hnil
    have hbs : bs = [] := by
      rw [← bytes_digits bs, hnil]
      rfl
    rw [hbs]
    rfl
  · rw [btoa, ofCodes_append, ofCodes_pads]

theorem length_bytes (ds : List Nat) : (bytes ds).length = ds.length * 3 / 4 := by
  induction ds using bytes.induct with
  | case1 a b c d rest ih =>
      simp only [bytes, List.length_cons, ih]
      omega
  | case2 a b c => simp [bytes]
  | case3 a b => simp [bytes]
  | case4 a => simp [bytes]
  | case5 => rfl

end Python

end Base64
