import IssuesApi.Lib.Codec
import IssuesApi.Lib.Instant
import IssuesApi.Lib.Outcome

/-!
# Timestamps as text

What `isoformat` writes for an aware UTC value, read back by `fromisoformat` and compared byte
by byte, as SQLite compares text.  The text is not of one width: a whole second has no
fraction.  It still sorts like time, because every field has a fixed width up to the fraction,
and there the `'+'` of the offset, which follows a whole second, is smaller than the `'.'` of a
fraction.
-/

namespace IssuesApi

/-! ## Bytewise order -/

/-- The bytes of a text, as the numbers `memcmp` compares. -/
def bytewise (t : Text) : List ℕ := (utf8Encode t).map UInt8.toNat

/-- On ASCII texts the bytes are the code points. -/
lemma bytewise_of_isAscii {t : Text} (h : isAscii t = true) : bytewise t = t.toPyStr := by
  induction t with
  | nil => rfl
  | cons c t ih =>
    simp only [isAscii, List.all_cons, Bool.and_eq_true, decide_eq_true_eq] at h
    have hbyte : (UInt8.ofNat c.toNat).toNat = c.toNat :=
      UInt8.toNat_ofNat_of_lt' (by simpa using (by omega : c.toNat < 256))
    have ih' := ih h.2
    simp only [bytewise, utf8Encode, Text.toPyStr] at ih' ⊢
    rw [List.flatMap_cons, utf8EncodeChar_of_ascii h.1, List.map_append, ih']
    simp [hbyte]

/-- Texts that start with equally long parts are compared by these first. -/
lemma append_lt_append_iff {a b : List ℕ} (c d : List ℕ) (h : a.length = b.length) :
    a ++ c < b ++ d ↔ a < b ∨ a = b ∧ c < d := by
  induction a generalizing b with
  | nil =>
    obtain rfl : b = [] := List.length_eq_zero_iff.mp h.symm
    simp
  | cons x a ih =>
    obtain ⟨y, b, rfl⟩ := List.exists_cons_of_length_eq_add_one h.symm
    have hlen : a.length = b.length := by simpa using h
    simp only [List.cons_append, List.cons_lt_cons_iff, ih hlen, List.cons.injEq]
    tauto

/-! ## Numerals of a fixed width -/

/-- The value of a numeral, its first digit split off. -/
lemma ofDigitChars_cons_zero (c : Char) (s : Text) :
    Nat.ofDigitChars 10 (c :: s) 0 =
      10 ^ s.length * (c.toNat - 48) + Nat.ofDigitChars 10 s 0 := by
  rw [Nat.ofDigitChars_cons, Nat.ofDigitChars_eq_ofDigitChars_zero, Nat.mul_zero, Nat.zero_add]
  rfl

lemma ofDigitChars_lt {s : Text} (hs : s.all Char.isDigit = true) :
    Nat.ofDigitChars 10 s 0 < 10 ^ s.length := by
  induction s with
  | nil => simp
  | cons c s ih =>
    simp only [List.all_cons, Bool.and_eq_true] at hs
    have hdigit := isDigit_bounds hs.1
    have hc : 10 ^ s.length * (c.toNat - 48) ≤ 10 ^ s.length * 9 :=
      Nat.mul_le_mul_left _ (by omega)
    have htail := ih hs.2
    rw [ofDigitChars_cons_zero, List.length_cons, Nat.pow_succ]
    omega

/-- Two digits in front of smaller amounts decide, unless they are equal. -/
lemma leading_digit_lt_iff {b x y v w : ℕ} (hv : v < b) (hw : w < b) :
    b * x + v < b * y + w ↔ x < y ∨ x = y ∧ v < w := by
  constructor
  · intro h
    rcases lt_trichotomy x y with hlt | rfl | hgt
    · exact Or.inl hlt
    · exact Or.inr ⟨rfl, by omega⟩
    · have : b * (y + 1) ≤ b * x := Nat.mul_le_mul_left b hgt
      rw [Nat.mul_add] at this
      omega
  · rintro (hlt | ⟨rfl, h⟩)
    · have : b * (x + 1) ≤ b * y := Nat.mul_le_mul_left b hlt
      rw [Nat.mul_add] at this
      omega
    · omega

/-- Equally long numerals are ordered like their values. -/
lemma numeral_lt_iff {s t : Text} (hs : s.all Char.isDigit = true)
    (ht : t.all Char.isDigit = true) (hlen : s.length = t.length) :
    s.toPyStr < t.toPyStr ↔ Nat.ofDigitChars 10 s 0 < Nat.ofDigitChars 10 t 0 := by
  induction s generalizing t with
  | nil =>
    obtain rfl : t = [] := List.length_eq_zero_iff.mp hlen.symm
    simp [Text.toPyStr]
  | cons c s ih =>
    obtain ⟨d, t, rfl⟩ := List.exists_cons_of_length_eq_add_one hlen.symm
    simp only [List.all_cons, Bool.and_eq_true] at hs ht
    have hlen' : s.length = t.length := by simpa using hlen
    have hc := isDigit_bounds hs.1
    have hd := isDigit_bounds ht.1
    have hv := ofDigitChars_lt hs.2
    have hw := ofDigitChars_lt ht.2
    rw [ofDigitChars_cons_zero, ofDigitChars_cons_zero, ← hlen',
      leading_digit_lt_iff hv (hlen' ▸ hw), ← ih hs.2 ht.2 hlen']
    simp only [Text.toPyStr, List.map_cons, List.cons_lt_cons_iff]
    have hsub : c.toNat - 48 < d.toNat - 48 ↔ c.toNat < d.toNat := by omega
    have hsub' : c.toNat - 48 = d.toNat - 48 ↔ c.toNat = d.toNat := by omega
    rw [hsub, hsub']

/-! What `padded` writes. -/

lemma length_padded {width n : ℕ} (hpos : 0 < width) (h : n < 10 ^ width) :
    (padded width n).length = width := by
  have hle : (decimal n).length ≤ width :=
    (Nat.length_toDigits_le_iff (by omega) hpos).mpr h
  rw [padded, List.length_append, List.length_replicate]
  omega

lemma all_isDigit_padded (width n : ℕ) : (padded width n).all Char.isDigit = true := by
  rw [List.all_eq_true]
  intro c hc
  rcases List.mem_append.mp hc with hzero | hdigit
  · rw [List.eq_of_mem_replicate hzero]
    decide
  · exact isDigit_of_mem_decimal hdigit

lemma ofDigitChars_padded (width n : ℕ) : Nat.ofDigitChars 10 (padded width n) 0 = n := by
  rw [padded, Nat.ofDigitChars_append, Nat.ofDigitChars_replicate_zero, Nat.mul_zero]
  exact Nat.ofDigitChars_ten_toDigits

/-- Fields of one width in front of two texts are compared by their values first. -/
lemma padded_append_lt_iff {width m n : ℕ} (hpos : 0 < width) (hm : m < 10 ^ width)
    (hn : n < 10 ^ width) (s t : Text) :
    (padded width m ++ s).toPyStr < (padded width n ++ t).toPyStr ↔
      m < n ∨ m = n ∧ s.toPyStr < t.toPyStr := by
  have hlen : (padded width m).length = (padded width n).length := by
    rw [length_padded hpos hm, length_padded hpos hn]
  have heq : (padded width m).toPyStr = (padded width n).toPyStr ↔ m = n := by
    constructor
    · intro h
      have htext : padded width m = padded width n := List.map_injective_iff.mpr
        (fun _ _ h => Char.toNat_inj.mp h) h
      rw [← ofDigitChars_padded width m, htext, ofDigitChars_padded]
    · exact fun h => h ▸ rfl
  rw [Text.toPyStr, Text.toPyStr, List.map_append, List.map_append,
    append_lt_append_iff _ _ (by simpa using hlen)]
  have hnum := numeral_lt_iff (all_isDigit_padded width m) (all_isDigit_padded width n) hlen
  rw [ofDigitChars_padded, ofDigitChars_padded] at hnum
  exact or_congr hnum (and_congr heq Iff.rfl)

/-! ## The order of timestamps -/

/-- The fraction and the offset of a timestamp. -/
def isoSuffix (microsecond : ℕ) : Text :=
  (if microsecond = 0 then [] else '.' :: padded 6 microsecond) ++ "+00:00".toList

lemma isoformatUtc_eq (c : Civil) :
    c.isoformatUtc = padded 4 c.year ++ ('-' :: (padded 2 c.month ++ ('-' :: (padded 2 c.day ++
      ('T' :: (padded 2 c.hour ++ (':' :: (padded 2 c.minute ++ (':' :: (padded 2 c.second ++
        isoSuffix c.microsecond)))))))))) := by
  simp [Civil.isoformatUtc, isoSuffix, List.append_assoc]

/-- A missing fraction counts as zero: `'+'` comes before `'.'`. -/
lemma isoSuffix_lt_iff {m n : ℕ} (hm : m < 1000000) (hn : n < 1000000) :
    (isoSuffix m).toPyStr < (isoSuffix n).toPyStr ↔ m < n := by
  have hplus : (isoSuffix 0).toPyStr = 43 :: Text.toPyStr "00:00".toList := rfl
  have hdot : ∀ k, k ≠ 0 →
      (isoSuffix k).toPyStr = 46 :: Text.toPyStr (padded 6 k ++ "+00:00".toList) := by
    intro k hk
    rw [isoSuffix, if_neg hk]
    rfl
  by_cases hm0 : m = 0
  · by_cases hn0 : n = 0
    · simp [hm0, hn0]
    · rw [hm0, hplus, hdot n hn0, List.cons_lt_cons_iff]
      simp
      omega
  · by_cases hn0 : n = 0
    · rw [hn0, hplus, hdot m hm0, List.cons_lt_cons_iff]
      simp
    · rw [hdot m hm0, hdot n hn0, List.cons_lt_cons_iff,
        padded_append_lt_iff (by omega) (by omega) (by omega)]
      simp

lemma toPyStr_cons_lt_iff (c : Char) (s t : Text) :
    Text.toPyStr (c :: s) < Text.toPyStr (c :: t) ↔ s.toPyStr < t.toPyStr := by
  simp only [Text.toPyStr, List.map_cons, List.cons_lt_cons_self]

/-- Timestamps are compared field by field. -/
lemma isoformatUtc_lt_iff (c d : Civil) :
    c.isoformatUtc.toPyStr < d.isoformatUtc.toPyStr ↔ c.fields < d.fields := by
  have hyear := c.year_valid
  have hyear' := d.year_valid
  have hmonth := c.month_valid
  have hmonth' := d.month_valid
  have hday := c.day_lt
  have hday' := d.day_lt
  have hhour := c.hour_valid
  have hhour' := d.hour_valid
  have hminute := c.minute_valid
  have hminute' := d.minute_valid
  have hsecond := c.second_valid
  have hsecond' := d.second_valid
  rw [isoformatUtc_eq, isoformatUtc_eq]
  rw [padded_append_lt_iff (by omega) (by omega) (by omega), toPyStr_cons_lt_iff,
    padded_append_lt_iff (by omega) (by omega) (by omega), toPyStr_cons_lt_iff,
    padded_append_lt_iff (by omega) (by omega) (by omega), toPyStr_cons_lt_iff,
    padded_append_lt_iff (by omega) (by omega) (by omega), toPyStr_cons_lt_iff,
    padded_append_lt_iff (by omega) (by omega) (by omega), toPyStr_cons_lt_iff,
    padded_append_lt_iff (by omega) (by omega) (by omega),
    isoSuffix_lt_iff c.microsecond_valid d.microsecond_valid]
  simp [Civil.fields, List.cons_lt_cons_iff]

lemma isAscii_isoformatUtc (c : Civil) : isAscii c.isoformatUtc = true := by
  have hpadded : ∀ width n, (padded width n).all (fun x => x.toNat < 128) = true := by
    intro width n
    rw [List.all_eq_true]
    intro x hx
    have := isDigit_bounds (List.all_eq_true.mp (all_isDigit_padded width n) x hx)
    simpa using (by omega : x.toNat < 128)
  have hsuffix : (isoSuffix c.microsecond).all (fun x => x.toNat < 128) = true := by
    unfold isoSuffix
    split
    · decide
    · rw [List.all_append, List.all_cons, hpadded]
      decide
  rw [isoformatUtc_eq, isAscii]
  simp only [List.all_append, List.all_cons, hpadded, hsuffix]
  decide

/-- **Timestamps sort like time**: bytewise order is the order of the instants. -/
theorem bytewise_isoformatUtc_lt_iff (c d : Civil) :
    bytewise c.isoformatUtc < bytewise d.isoformatUtc ↔ c.instant < d.instant := by
  rw [bytewise_of_isAscii (isAscii_isoformatUtc c), bytewise_of_isAscii (isAscii_isoformatUtc d),
    isoformatUtc_lt_iff, Civil.instant_lt_iff]

/-! ## Reading a timestamp -/

/-- `width` digits at the head of a text. -/
def readPadded (width : ℕ) (t : Text) : Option (ℕ × Text) :=
  let digits := t.take width
  if digits.length = width ∧ digits.all Char.isDigit then
    some (Nat.ofDigitChars 10 digits 0, t.drop width)
  else none

/-- A separator at the head of a text. -/
def readSeparator (separator : Char) : Text → Option Text
  | [] => none
  | c :: t => if c = separator then some t else none

/-- The fraction of a second, when there is one. -/
def readFraction (t : Text) : Option (ℕ × Text) :=
  match readSeparator '.' t with
  | some t => readPadded 6 t
  | none => some (0, t)

/-- `datetime(year, month, day, hour, minute, second, microsecond)`; `none` is a
`ValueError`. -/
def civil? (year month day hour minute second microsecond : ℕ) : Option Civil :=
  if h : (1 ≤ year ∧ year ≤ 9999) ∧ (1 ≤ month ∧ month ≤ 12) ∧
      (1 ≤ day ∧ day ≤ daysInMonth year month) ∧ hour < 24 ∧ minute < 60 ∧ second < 60 ∧
      microsecond < 1000000 then
    some ⟨year, month, day, hour, minute, second, microsecond, h.1, h.2.1, h.2.2.1, h.2.2.2.1,
      h.2.2.2.2.1, h.2.2.2.2.2.1, h.2.2.2.2.2.2⟩
  else none

/-- `datetime.fromisoformat` on the form `isoformat` gives an aware UTC value; `none` is a
`ValueError`. -/
def fromIsoformat (t : Text) : Option DateTime := do
  let (year, t) ← readPadded 4 t
  let (month, t) ← readSeparator '-' t >>= readPadded 2
  let (day, t) ← readSeparator '-' t >>= readPadded 2
  let (hour, t) ← readSeparator 'T' t >>= readPadded 2
  let (minute, t) ← readSeparator ':' t >>= readPadded 2
  let (second, t) ← readSeparator ':' t >>= readPadded 2
  let (microsecond, t) ← readFraction t
  let civil ← civil? year month day hour minute second microsecond
  if t = "+00:00".toList then some ⟨civil, some 0⟩ else none

lemma readPadded_append {width n : ℕ} (hpos : 0 < width) (h : n < 10 ^ width) (t : Text) :
    readPadded width (padded width n ++ t) = some (n, t) := by
  have hlen := length_padded hpos h
  have htake : (padded width n ++ t).take width = padded width n := List.take_left' hlen
  have hdrop : (padded width n ++ t).drop width = t := List.drop_left' hlen
  simp only [readPadded, htake, hdrop, hlen, all_isDigit_padded, ofDigitChars_padded, and_self,
    if_true]

lemma readSeparator_cons (c : Char) (t : Text) : readSeparator c (c :: t) = some t :=
  if_pos rfl

lemma readFraction_isoSuffix {n : ℕ} (h : n < 1000000) :
    readFraction (isoSuffix n) = some (n, "+00:00".toList) := by
  unfold isoSuffix
  split
  · next hzero =>
    subst hzero
    rfl
  · rw [readFraction, List.cons_append, readSeparator_cons]
    exact readPadded_append (by omega) (by omega) _

lemma civil?_fields (c : Civil) :
    civil? c.year c.month c.day c.hour c.minute c.second c.microsecond = some c :=
  dif_pos ⟨c.year_valid, c.month_valid, c.day_valid, c.hour_valid, c.minute_valid,
    c.second_valid, c.microsecond_valid⟩

/-- Two digits after their separator. -/
lemma readPadded_separator {c : Char} {n : ℕ} (h : n < 100) (t : Text) :
    (readSeparator c (c :: (padded 2 n ++ t)) >>= readPadded 2) = some (n, t) := by
  rw [readSeparator_cons, Option.bind_eq_bind, Option.bind_some]
  exact readPadded_append (by omega) h t

/-- **`fromisoformat` inverts `isoformat`.** -/
theorem fromIsoformat_isoformatUtc (c : Civil) :
    fromIsoformat c.isoformatUtc = some ⟨c, some 0⟩ := by
  have hyear : c.year < 10 ^ 4 := Nat.lt_succ_of_le c.year_valid.2
  have hmonth : c.month < 100 := c.month_valid.2.trans_lt (by decide)
  have hhour : c.hour < 100 := c.hour_valid.trans (by decide)
  have hminute : c.minute < 100 := c.minute_valid.trans (by decide)
  have hsecond : c.second < 100 := c.second_valid.trans (by decide)
  rw [isoformatUtc_eq]
  -- one field after the other
  refine (bind_of_eq_some (readPadded_append (by decide) hyear _) _).trans ?_
  refine (bind_of_eq_some (readPadded_separator hmonth _) _).trans ?_
  refine (bind_of_eq_some (readPadded_separator c.day_lt _) _).trans ?_
  refine (bind_of_eq_some (readPadded_separator hhour _) _).trans ?_
  refine (bind_of_eq_some (readPadded_separator hminute _) _).trans ?_
  refine (bind_of_eq_some (readPadded_separator hsecond _) _).trans ?_
  refine (bind_of_eq_some (readFraction_isoSuffix c.microsecond_valid) _).trans ?_
  exact (bind_of_eq_some (civil?_fields c) _).trans (if_pos rfl)

end IssuesApi
