import IssuesApi.Lib.Text

/-!
# Byte decoding

The decoders behind `bytes.decode`: UTF-8 with the `replace` handler (used by
`urllib.parse.unquote`), and UTF-8, UTF-16 and UTF-32 with the `surrogatepass` handler (used
by `json.loads` on bytes).  `utf8Step` reads one character or one maximal ill-formed
subpart, and both UTF-8 decoders are its iteration; the iteration count is the number of
bytes left, every step consuming at least one.
-/

namespace IssuesApi

/-! ## UTF-8 -/

/-- The UTF-8 encoding of a text. -/
def utf8Encode (t : Text) : Bytes := t.flatMap String.utf8EncodeChar

/-- An ASCII character is its own byte. -/
lemma utf8EncodeChar_of_ascii {c : Char} (h : c.toNat < 128) :
    String.utf8EncodeChar c = [UInt8.ofNat c.toNat] := by
  rw [String.utf8EncodeChar, if_pos (by simpa using (by omega : c.toNat ≤ 127))]
  rfl

/-- A continuation byte. -/
def isContinuation (b : UInt8) : Bool := 0x80 ≤ b.toNat && b.toNat ≤ 0xBF

/-- The six payload bits of a continuation byte. -/
def payload (b : UInt8) : ℕ := b.toNat % 64

/-- What the decoder finds at the head of its input. -/
inductive Utf8Step where
  /-- A well-formed sequence, and what follows it. -/
  | scalar (codePoint : ℕ) (rest : Bytes)
  /-- An ill-formed sequence, and what follows its maximal subpart. -/
  | invalid (rest : Bytes)

/-- One decoding step on the byte `b` and the bytes after it. -/
def utf8Step (b : UInt8) (bs : Bytes) : Utf8Step :=
  let n := b.toNat
  if n < 0x80 then .scalar n bs
  else if 0xC2 ≤ n ∧ n ≤ 0xDF then
    match bs with
    | c :: r => if isContinuation c then .scalar ((n - 0xC0) * 64 + payload c) r else .invalid bs
    | [] => .invalid []
  else if 0xE0 ≤ n ∧ n ≤ 0xEF then
    -- overlong forms and surrogates are excluded by the range of the second byte
    let low := if n = 0xE0 then 0xA0 else 0x80
    let high := if n = 0xED then 0x9F else 0xBF
    match bs with
    | c :: r =>
      if low ≤ c.toNat ∧ c.toNat ≤ high then
        match r with
        | d :: r' =>
          if isContinuation d then
            .scalar ((n - 0xE0) * 4096 + payload c * 64 + payload d) r'
          else .invalid r
        | [] => .invalid []
      else .invalid bs
    | [] => .invalid []
  else if 0xF0 ≤ n ∧ n ≤ 0xF4 then
    let low := if n = 0xF0 then 0x90 else 0x80
    let high := if n = 0xF4 then 0x8F else 0xBF
    match bs with
    | c :: r =>
      if low ≤ c.toNat ∧ c.toNat ≤ high then
        match r with
        | d :: r' =>
          if isContinuation d then
            match r' with
            | e :: r'' =>
              if isContinuation e then
                .scalar ((n - 0xF0) * 262144 + payload c * 4096 + payload d * 64 + payload e) r''
              else .invalid r'
            | [] => .invalid []
          else .invalid r
        | [] => .invalid []
      else .invalid bs
    | [] => .invalid []
  else .invalid bs

/-- `bytes.decode("utf-8", "replace")`, at most `n` characters of it. -/
def utf8ReplaceAux : ℕ → Bytes → Text
  | 0, _ => []
  | _ + 1, [] => []
  | n + 1, b :: bs =>
    match utf8Step b bs with
    | .scalar codePoint rest => Char.ofNat codePoint :: utf8ReplaceAux n rest
    | .invalid rest => Char.ofNat 0xFFFD :: utf8ReplaceAux n rest

/-- `bytes.decode("utf-8", "replace")`: every ill-formed subpart becomes U+FFFD. -/
def utf8Replace (bs : Bytes) : Text := utf8ReplaceAux bs.length bs

/-! ### Reading encoded text -/

lemma toNat_byte {n : ℕ} (h : n < 256) : (UInt8.ofNat n).toNat = n :=
  UInt8.toNat_ofNat_of_lt' h

/-- The byte of six payload bits. -/
lemma continuation_byte (n : ℕ) : isContinuation (UInt8.ofNat (n % 64 + 0x80)) = true ∧
    payload (UInt8.ofNat (n % 64 + 0x80)) = n % 64 := by
  have hbyte : (UInt8.ofNat (n % 64 + 0x80)).toNat = n % 64 + 0x80 := toNat_byte (by omega)
  constructor
  · rw [isContinuation, hbyte, Bool.and_eq_true, decide_eq_true_eq, decide_eq_true_eq]
    omega
  · rw [payload, hbyte]
    omega

lemma utf8Step_one {n : ℕ} (h : n ≤ 0x7F) (rest : Bytes) :
    utf8Step (UInt8.ofNat n) rest = .scalar n rest := by
  have hlead : (UInt8.ofNat n).toNat = n := toNat_byte (by omega)
  unfold utf8Step
  dsimp only
  rw [hlead, if_pos (by omega)]

lemma utf8Step_two {n : ℕ} (h : 0x7F < n ∧ n ≤ 0x7FF) (rest : Bytes) :
    utf8Step (UInt8.ofNat (n / 64 % 0x20 + 0xC0)) (UInt8.ofNat (n % 64 + 0x80) :: rest) =
      .scalar n rest := by
  have hlead : (UInt8.ofNat (n / 64 % 0x20 + 0xC0)).toNat = n / 64 % 0x20 + 0xC0 :=
    toNat_byte (by omega)
  obtain ⟨hcont, hpayload⟩ := continuation_byte n
  unfold utf8Step
  dsimp only
  rw [hlead, if_neg (by omega), if_pos (by omega), if_pos hcont, hpayload]
  congr 1
  omega

lemma utf8Step_three {n : ℕ} (h : 0x7FF < n ∧ n ≤ 0xFFFF) (hvalid : n < 0xD800 ∨ 0xDFFF < n)
    (rest : Bytes) :
    utf8Step (UInt8.ofNat (n / 4096 % 0x10 + 0xE0)) (UInt8.ofNat (n / 64 % 64 + 0x80) ::
      UInt8.ofNat (n % 64 + 0x80) :: rest) = .scalar n rest := by
  have hlead : (UInt8.ofNat (n / 4096 % 0x10 + 0xE0)).toNat = n / 4096 % 0x10 + 0xE0 :=
    toNat_byte (by omega)
  have hsecond : (UInt8.ofNat (n / 64 % 64 + 0x80)).toNat = n / 64 % 64 + 0x80 :=
    toNat_byte (by omega)
  have hpayload := (continuation_byte (n / 64)).2
  obtain ⟨hcont, hpayload'⟩ := continuation_byte n
  -- the second byte is in the range that excludes overlong forms and surrogates
  have hrange : (if n / 4096 % 0x10 + 0xE0 = 0xE0 then 0xA0 else 0x80) ≤ n / 64 % 64 + 0x80 ∧
      n / 64 % 64 + 0x80 ≤ (if n / 4096 % 0x10 + 0xE0 = 0xED then 0x9F else 0xBF) := by
    constructor
    · split <;> omega
    · split <;> omega
  unfold utf8Step
  dsimp only
  rw [hlead, if_neg (by omega), if_neg (by omega), if_pos (by omega), hsecond, if_pos hrange,
    if_pos hcont, hpayload, hpayload']
  congr 1
  omega

lemma utf8Step_four {n : ℕ} (h : 0xFFFF < n ∧ n < 0x110000) (rest : Bytes) :
    utf8Step (UInt8.ofNat (n / 262144 % 0x08 + 0xF0)) (UInt8.ofNat (n / 4096 % 64 + 0x80) ::
      UInt8.ofNat (n / 64 % 64 + 0x80) :: UInt8.ofNat (n % 64 + 0x80) :: rest) =
      .scalar n rest := by
  have hlead : (UInt8.ofNat (n / 262144 % 0x08 + 0xF0)).toNat = n / 262144 % 0x08 + 0xF0 :=
    toNat_byte (by omega)
  have hsecond : (UInt8.ofNat (n / 4096 % 64 + 0x80)).toNat = n / 4096 % 64 + 0x80 :=
    toNat_byte (by omega)
  have hpayload := (continuation_byte (n / 4096)).2
  obtain ⟨hcont', hpayload'⟩ := continuation_byte (n / 64)
  obtain ⟨hcont, hpayload''⟩ := continuation_byte n
  have hrange : (if n / 262144 % 0x08 + 0xF0 = 0xF0 then 0x90 else 0x80) ≤ n / 4096 % 64 + 0x80 ∧
      n / 4096 % 64 + 0x80 ≤ (if n / 262144 % 0x08 + 0xF0 = 0xF4 then 0x8F else 0xBF) := by
    constructor
    · split <;> omega
    · split <;> omega
  unfold utf8Step
  dsimp only
  rw [hlead, if_neg (by omega), if_neg (by omega), if_neg (by omega), if_pos (by omega), hsecond,
    if_pos hrange, if_pos hcont', if_pos hcont, hpayload, hpayload', hpayload'']
  congr 1
  omega

/-- The decoder reads an encoded character back. -/
lemma utf8Step_encodeChar (c : Char) (rest : Bytes) :
    ∃ b bs, String.utf8EncodeChar c ++ rest = b :: bs ∧ utf8Step b bs = .scalar c.toNat rest := by
  have hvalid : c.val.toNat < 0xD800 ∨ 0xDFFF < c.val.toNat ∧ c.val.toNat < 0x110000 :=
    c.valid
  rw [String.utf8EncodeChar]
  split
  · next h => exact ⟨_, _, rfl, utf8Step_one h rest⟩
  · next h1 =>
    split
    · next h => exact ⟨_, _, rfl, utf8Step_two ⟨by omega, h⟩ rest⟩
    · next h2 =>
      split
      · next h => exact ⟨_, _, rfl, utf8Step_three ⟨by omega, h⟩ (by omega) rest⟩
      · next h3 =>
        have hlarge : 0xFFFF < c.val.toNat := not_le.mp h3
        exact ⟨_, _, rfl, utf8Step_four ⟨hlarge, by omega⟩ rest⟩

lemma length_utf8Encode (t : Text) : t.length ≤ (utf8Encode t).length := by
  induction t with
  | nil => rfl
  | cons c t ih =>
    have hpos := String.length_utf8EncodeChar c
    have := c.utf8Size_pos
    rw [utf8Encode, List.flatMap_cons, List.length_append, List.length_cons]
    rw [utf8Encode] at ih
    omega

lemma utf8ReplaceAux_encode (t : Text) {fuel : ℕ} (h : t.length ≤ fuel) :
    utf8ReplaceAux fuel (utf8Encode t) = t := by
  induction t generalizing fuel with
  | nil => cases fuel <;> rfl
  | cons c t ih =>
    obtain ⟨fuel, rfl⟩ : ∃ m, fuel = m + 1 := ⟨fuel - 1, by rw [List.length_cons] at h; omega⟩
    obtain ⟨b, bs, hbytes, hstep⟩ := utf8Step_encodeChar c (utf8Encode t)
    have hencode : utf8Encode (c :: t) = b :: bs := by
      rw [← hbytes]
      rfl
    rw [hencode, utf8ReplaceAux, hstep]
    dsimp only
    rw [ih (by simpa using h), Char.ofNat_toNat]

/-- **Decoding undoes encoding.** -/
theorem utf8Replace_utf8Encode (t : Text) : utf8Replace (utf8Encode t) = t :=
  utf8ReplaceAux_encode t (length_utf8Encode t)

/-- Something is read from every byte string. -/
lemma utf8Replace_ne_nil {bs : Bytes} (h : bs ≠ []) : utf8Replace bs ≠ [] := by
  obtain ⟨b, bs, rfl⟩ := List.exists_cons_of_ne_nil h
  rw [utf8Replace, List.length_cons, utf8ReplaceAux]
  split
  · exact List.cons_ne_nil _ _
  · exact List.cons_ne_nil _ _

/-! ### Surrogates -/

/-- The three-byte form of a surrogate, which `surrogatepass` lets through. -/
def encodedSurrogate? : Bytes → Option (ℕ × Bytes)
  | b :: c :: d :: rest =>
    if b = 0xED ∧ 0xA0 ≤ c.toNat ∧ isContinuation c ∧ isContinuation d then
      some (0xD000 + payload c * 64 + payload d, rest)
    else none
  | _ => none

/-- `bytes.decode("utf-8", "surrogatepass")`, at most `n` characters of it. -/
def utf8SurrogatePassAux : ℕ → Bytes → Option PyStr
  | 0, _ => some []
  | _ + 1, [] => some []
  | n + 1, b :: bs =>
    match utf8Step b bs with
    | .scalar codePoint rest => (utf8SurrogatePassAux n rest).map (codePoint :: ·)
    | .invalid _ =>
      match encodedSurrogate? (b :: bs) with
      | some (codePoint, rest) => (utf8SurrogatePassAux n rest).map (codePoint :: ·)
      | none => none

/-- `bytes.decode("utf-8", "surrogatepass")`; `none` is a `UnicodeDecodeError`. -/
def utf8SurrogatePass (bs : Bytes) : Option PyStr := utf8SurrogatePassAux bs.length bs

/-! ## UTF-16 and UTF-32 -/

/-- The byte order of a wide encoding. -/
inductive ByteOrder where
  | little
  | big

/-- A two-byte unit. -/
def ByteOrder.unit16 : ByteOrder → UInt8 → UInt8 → ℕ
  | .little, a, b => b.toNat * 256 + a.toNat
  | .big, a, b => a.toNat * 256 + b.toNat

/-- A four-byte unit. -/
def ByteOrder.unit32 : ByteOrder → UInt8 → UInt8 → UInt8 → UInt8 → ℕ
  | .little, a, b, c, d => (ByteOrder.little.unit16 c d) * 65536 + ByteOrder.little.unit16 a b
  | .big, a, b, c, d => (ByteOrder.big.unit16 a b) * 65536 + ByteOrder.big.unit16 c d

/-- The code point of a surrogate pair. -/
def joinPair (high low : ℕ) : ℕ := 0x10000 + (high - 0xD800) * 1024 + (low - 0xDC00)

def isHighSurrogate (n : ℕ) : Bool := 0xD800 ≤ n && n ≤ 0xDBFF

def isLowSurrogate (n : ℕ) : Bool := 0xDC00 ≤ n && n ≤ 0xDFFF

/-- The sixteen-bit units of a byte string; an odd byte left over is an error. -/
def units16 (order : ByteOrder) : Bytes → Option (List ℕ)
  | [] => some []
  | [_] => none
  | a :: b :: rest => (units16 order rest).map (order.unit16 a b :: ·)

/-- Pair up the surrogates of a unit sequence; a lone one stands for itself. -/
def pairUp : List ℕ → PyStr
  | [] => []
  | [u] => [u]
  | u :: v :: rest =>
    if isHighSurrogate u && isLowSurrogate v then joinPair u v :: pairUp rest
    else u :: pairUp (v :: rest)

/-- `bytes.decode("utf-16-..", "surrogatepass")`. -/
def utf16SurrogatePass (order : ByteOrder) (bs : Bytes) : Option PyStr :=
  (units16 order bs).map pairUp

/-- `bytes.decode("utf-32-..", "surrogatepass")`. -/
def utf32SurrogatePass (order : ByteOrder) : Bytes → Option PyStr
  | [] => some []
  | a :: b :: c :: d :: rest =>
    let u := order.unit32 a b c d
    if u ≤ 0x10FFFF then (utf32SurrogatePass order rest).map (u :: ·) else none
  | _ => none

end IssuesApi
