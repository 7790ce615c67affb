import IssuesApi.Lib.JsonReadable

/-!
# JSON documents as bytes

`json.dumps` writes plain text: ASCII without NUL.  Encoded, such a text is taken for UTF-8 by
`json.detect_encoding`, so that `json.loads` reads the bytes of a written document as it reads
its text (`loads_dumpsWith`).
-/

namespace IssuesApi

/-- ASCII without NUL. -/
def PlainText (t : Text) : Prop := ∀ c ∈ t, 0 < c.toNat ∧ c.toNat < 0x80

instance (t : Text) : Decidable (PlainText t) := by unfold PlainText; infer_instance

lemma PlainText.append {s t : Text} (hs : PlainText s) (ht : PlainText t) : PlainText (s ++ t) :=
  fun c hc => (List.mem_append.mp hc).elim (hs c) (ht c)

lemma PlainText.cons {c : Char} {t : Text} (hc : 0 < c.toNat ∧ c.toNat < 0x80)
    (ht : PlainText t) : PlainText (c :: t) := by
  intro d hd
  rcases List.mem_cons.mp hd with rfl | hd
  · exact hc
  · exact ht d hd

lemma PlainText.joinSep {sep : Text} {parts : List Text} (hsep : PlainText sep)
    (hparts : ∀ t ∈ parts, PlainText t) : PlainText (joinSep sep parts) := by
  intro c hc
  rcases mem_joinSep hc with hc | ⟨t, ht, hc⟩
  · exact hsep c hc
  · exact hparts t ht c hc

/-- The code points of a plain text say so. -/
lemma plainText_iff_toPyStr {t : Text} : PlainText t ↔ ∀ n ∈ t.toPyStr, 0 < n ∧ n < 0x80 := by
  simp [PlainText, Text.toPyStr]

/-! ## What the encoder writes -/

lemma plainText_decimal (n : ℕ) : PlainText (decimal n) := by
  intro c hc
  have := isDigit_bounds (isDigit_of_mem_decimal hc)
  omega

lemma plainText_decimalInt (n : ℤ) : PlainText (decimalInt n) := by
  cases n with
  | ofNat n => exact plainText_decimal n
  | negSucc n => exact (plainText_decimal (n + 1)).cons (by decide)

lemma plain_hexDigit {n : ℕ} (h : n < 16) : 0 < (hexDigit n).toNat ∧ (hexDigit n).toNat < 0x80 := by
  have hall : ∀ m : Fin 16, 0 < (hexDigit m).toNat ∧ (hexDigit m).toNat < 0x80 := by decide
  exact hall ⟨n, h⟩

lemma plainText_unitEscape (u : ℕ) : PlainText (unitEscape u) := by
  have hdigit : ∀ n, 0 < (hexDigit (n % 16)).toNat ∧ (hexDigit (n % 16)).toNat < 0x80 := fun n =>
    plain_hexDigit (Nat.mod_lt n (by decide))
  intro c hc
  simp only [unitEscape, List.mem_cons, List.not_mem_nil, or_false] at hc
  rcases hc with rfl | rfl | rfl | rfl | rfl | rfl
  · decide
  · decide
  all_goals exact hdigit _

lemma plainText_escapeCodePoint (c : ℕ) : PlainText (escapeCodePoint c) := by
  unfold escapeCodePoint
  split_ifs with _ _ _ _ _ _ _ hprintable
  on_goal 8 =>
    have hself : (Char.ofNat c).toNat = c :=
      toNat_of_charOfCodePoint (if_pos (Or.inl (by omega)))
    intro d hd
    obtain rfl := List.mem_singleton.mp hd
    omega
  on_goal 8 => exact plainText_unitEscape c
  on_goal 8 => exact (plainText_unitEscape _).append (plainText_unitEscape _)
  all_goals decide

lemma plainText_dumpsStr (s : PyStr) : PlainText (dumpsStr s) := by
  have hinside : PlainText (s.flatMap escapeCodePoint) := by
    intro c hc
    obtain ⟨n, -, hc⟩ := List.mem_flatMap.mp hc
    exact plainText_escapeCodePoint n c hc
  exact PlainText.cons (by decide) (hinside.append (by decide))

/-- The characters of a written float. -/
lemma FloatLiteral.plain_text (l : FloatLiteral) : ∀ n ∈ l.text, 0 < n ∧ n < 0x80 := by
  have hdigits : ∀ {s : PyStr}, IsDigits s → ∀ n ∈ s, 0 < n ∧ n < 0x80 := by
    intro s hs n hn
    have := isAsciiDigit_iff.mp (hs n hn)
    omega
  have hfraction : ∀ n ∈ l.fractionText, 0 < n ∧ n < 0x80 := by
    unfold FloatLiteral.fractionText
    split
    · exact List.forall_mem_nil _
    · exact List.forall_mem_cons.mpr ⟨by decide, hdigits l.fraction_digits⟩
  have hexponent : ∀ n ∈ l.exponentText, 0 < n ∧ n < 0x80 := by
    unfold FloatLiteral.exponentText
    cases l.exponent with
    | none => exact List.forall_mem_nil _
    | some e =>
      show ∀ n ∈ e.text, 0 < n ∧ n < 0x80
      have hvalue := hdigits e.isDigits
      unfold ExponentPart.text
      split <;> simpa using hvalue
  have hunsigned : ∀ n ∈ l.unsigned, 0 < n ∧ n < 0x80 := by
    intro n hn
    rcases List.mem_append.mp hn with hn | hn
    · exact hdigits (isDigits_decimal l.whole) n hn
    · exact (List.mem_append.mp hn).elim (hfraction n) (hexponent n)
  unfold FloatLiteral.text
  split
  · exact List.forall_mem_cons.mpr ⟨by decide, hunsigned⟩
  · exact hunsigned

/-- Blanks are plain. -/
lemma plainText_of_blank {t : Text} (h : ∀ c ∈ t.toPyStr, isJsonSpace c = true) :
    PlainText t := by
  rw [plainText_iff_toPyStr]
  intro n hn
  have hspace := h n hn
  simp only [isJsonSpace, Bool.or_eq_true, beq_iff_eq] at hspace
  omega

/-- **What `json.dumps` writes is plain.** -/
theorem plainText_dumpsWith {sep : Separators} {floatRepr : ℚ → Text}
    (hrepr : ReprReadsBack floatRepr) {v : Json} (hv : v.Readable) :
    PlainText (dumpsWith sep floatRepr v) := by
  have hitem : PlainText (',' :: sep.afterItem) :=
    (plainText_of_blank sep.afterItem_blank).cons (by decide)
  have hkey : PlainText (':' :: sep.afterKey) :=
    (plainText_of_blank sep.afterKey_blank).cons (by decide)
  induction v using Json.ind with
  | null => exact (by decide : PlainText "null".toList)
  | bool b =>
    cases b with
    | false => exact (by decide : PlainText "false".toList)
    | true => exact (by decide : PlainText "true".toList)
  | int n => exact plainText_decimalInt n
  | float x =>
    cases x with
    | finite q =>
      obtain ⟨l, htext, -⟩ := hrepr q hv
      rw [plainText_iff_toPyStr]
      show ∀ n ∈ (floatRepr q).toPyStr, 0 < n ∧ n < 0x80
      rw [htext]
      exact l.plain_text
    | negZero => exact (by decide : PlainText "-0.0".toList)
    | inf negative =>
      cases negative with
      | false => exact (by decide : PlainText "Infinity".toList)
      | true => exact (by decide : PlainText "-Infinity".toList)
    | nan => exact (by decide : PlainText "NaN".toList)
  | str s => exact plainText_dumpsStr s
  | arr items ih =>
    have hitems := Json.readableItems_iff.mp hv
    rw [dumpsWith, dumpsItemsWith_eq_map]
    refine PlainText.cons (by decide) (PlainText.append (hitem.joinSep ?_) (by decide))
    intro t ht
    obtain ⟨w, hw, rfl⟩ := List.mem_map.mp ht
    exact ih w hw (hitems w hw)
  | obj fields ih =>
    have hfields := Json.readableFields_iff.mp hv.2
    rw [dumpsWith, dumpsFieldsWith_eq_map]
    refine PlainText.cons (by decide) (PlainText.append (hitem.joinSep ?_) (by decide))
    intro t ht
    obtain ⟨f, hf, rfl⟩ := List.mem_map.mp ht
    exact ((plainText_dumpsStr f.1).append hkey).append (ih f hf (hfields f hf).2)

/-! ## Reading the bytes -/

/-- Decoding undoes encoding. -/
lemma utf8SurrogatePassAux_encode (t : Text) {fuel : ℕ} (h : t.length ≤ fuel) :
    utf8SurrogatePassAux fuel (utf8Encode t) = some t.toPyStr := by
  induction t generalizing fuel with
  | nil => cases fuel <;> rfl
  | cons c t ih =>
    obtain ⟨fuel, rfl⟩ : ∃ m, fuel = m + 1 := ⟨fuel - 1, by rw [List.length_cons] at h; omega⟩
    obtain ⟨b, bs, hbytes, hstep⟩ := utf8Step_encodeChar c (utf8Encode t)
    have hencode : utf8Encode (c :: t) = b :: bs := by
      rw [← hbytes]
      rfl
    rw [hencode, utf8SurrogatePassAux, hstep]
    dsimp only
    rw [ih (by simpa using h)]
    rfl

lemma utf8SurrogatePass_utf8Encode (t : Text) :
    utf8SurrogatePass (utf8Encode t) = some t.toPyStr :=
  utf8SurrogatePassAux_encode t (length_utf8Encode t)

/-- A plain text has plain bytes. -/
lemma PlainText.bytes {t : Text} (h : PlainText t) :
    ∀ b ∈ utf8Encode t, 0 < b.toNat ∧ b.toNat < 0x80 := by
  intro b hb
  obtain ⟨c, hc, hb⟩ := List.mem_flatMap.mp hb
  obtain ⟨hpos, hlt⟩ := h c hc
  rw [utf8EncodeChar_of_ascii hlt] at hb
  obtain rfl := List.mem_singleton.mp hb
  rw [toNat_byte (by omega)]
  exact ⟨hpos, hlt⟩

/-- Plain bytes are taken for UTF-8. -/
lemma decodeDocument_of_plain {bs : Bytes} (h : ∀ b ∈ bs, 0 < b.toNat ∧ b.toNat < 0x80) :
    decodeDocument bs = utf8SurrogatePass bs := by
  have hzero : ∀ b ∈ bs, b ≠ 0 := by
    rintro b hb rfl
    exact absurd (h 0 hb).1 (by decide)
  -- each of the marks has a byte that is no character
  have hmark : ∀ mark : Bytes, (∃ b ∈ mark, 0x80 ≤ b.toNat) → ¬ mark.isPrefixOf bs = true := by
    rintro mark ⟨b, hb, hlarge⟩ hprefix
    have := (h b ((List.isPrefixOf_iff_prefix.mp hprefix).subset hb)).2
    omega
  have hunmarked : decodeUnmarked bs = utf8SurrogatePass bs := by
    unfold decodeUnmarked
    split
    · rw [if_neg (hzero _ (by simp)), if_neg (hzero _ (by simp))]
    · rw [if_neg (hzero _ (by simp)), if_neg (hzero _ (by simp))]
    · rfl
  rw [decodeDocument, if_neg (hmark _ ⟨0xFF, by decide, by decide⟩),
    if_neg (hmark _ ⟨0xFF, by decide, by decide⟩), if_neg (hmark _ ⟨0xFF, by decide, by decide⟩),
    if_neg (hmark _ ⟨0xFF, by decide, by decide⟩), if_neg (hmark _ ⟨0xEF, by decide, by decide⟩),
    hunmarked]

/-- Plain text is read from its bytes as from its characters. -/
lemma loads_utf8Encode {t : Text} (h : PlainText t) (limit : ℕ) :
    loads limit (utf8Encode t) = loadsStr limit t.toPyStr := by
  have hmark : t.toPyStr.head? ≠ some 0xFEFF := by
    intro hhead
    have := plainText_iff_toPyStr.mp h 0xFEFF (List.mem_of_mem_head? hhead)
    omega
  rw [loads, decodeDocument_of_plain h.bytes, utf8SurrogatePass_utf8Encode, loadsStr, if_neg hmark]

/-- **A written document, read from its bytes.** -/
theorem loads_dumpsWith {sep : Separators} {floatRepr : ℚ → Text}
    (hrepr : ReprReadsBack floatRepr) {v : Json} (hv : v.Readable) {limit : ℕ}
    (hdepth : v.depth ≤ limit) :
    loads limit (utf8Encode (dumpsWith sep floatRepr v)) = .ok v.rejoin := by
  rw [loads_utf8Encode (plainText_dumpsWith hrepr hv), loadsStr_dumpsWith hrepr hv hdepth]

end IssuesApi
