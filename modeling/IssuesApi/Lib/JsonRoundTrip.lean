import IssuesApi.Lib.JsonLiterals
import IssuesApi.Lib.Outcome

/-!
# Reading back what `json.dumps` wrote

`dumpsWith` is the encoder with its separators as a parameter: `json.dumps` separates by
`", "` and `": "`, and the compact form by `","` and `":"`.  Reading a written value gives
`Json.rejoin` of it, in which every string has its surrogates paired up and an object keeps
the last of the values whose keys have become equal.  The value itself comes back exactly when
no string in it has a high surrogate directly before a low one (`Json.rejoin_eq_self_iff`).

Two limits of the interpreter are hypotheses: the nesting it reads, and the number of digits
of an integer.  Floats need `float.__repr__` to write literals that stand for the float.
-/

namespace IssuesApi

/-- Induction over a JSON value, with its items and its members as lists. -/
@[elab_as_elim]
theorem Json.ind {P : Json → Prop} (null : P .null) (bool : ∀ b, P (.bool b))
    (int : ∀ n, P (.int n)) (float : ∀ x, P (.float x)) (str : ∀ s, P (.str s))
    (arr : ∀ items : List Json, (∀ v ∈ items, P v) → P (.arr items))
    (obj : ∀ fields : List (PyStr × Json), (∀ f ∈ fields, P f.2) → P (.obj fields)) :
    ∀ v, P v := by
  intro v
  refine @Json.rec P (fun items => ∀ v ∈ items, P v) (fun fields => ∀ f ∈ fields, P f.2)
    (fun f => P f.2) null bool int float str arr obj ?_ ?_ ?_ ?_ ?_ v
  · intro v h
    cases h
  · intro v items hv hitems w hw
    rcases List.mem_cons.mp hw with rfl | hw
    · exact hv
    · exact hitems w hw
  · intro f h
    cases h
  · intro f fields hf hfields g hg
    rcases List.mem_cons.mp hg with rfl | hg
    · exact hf
    · exact hfields g hg
  · intro k v hv
    exact hv

/-! ## The encoder, with its separators -/

/-- The separators of `json.dumps`: the blanks after a comma and after a colon. -/
structure Separators where
  afterItem : Text
  afterKey : Text
  afterItem_blank : ∀ c ∈ afterItem.toPyStr, isJsonSpace c = true
  afterKey_blank : ∀ c ∈ afterKey.toPyStr, isJsonSpace c = true

/-- `separators=(",", ":")`. -/
def Separators.compact : Separators := ⟨[], [], by decide, by decide⟩

/-- The default, `(", ", ": ")`. -/
def Separators.default : Separators := ⟨[' '], [' '], by decide, by decide⟩

mutual
/-- `json.dumps(value, separators=...)`. -/
def dumpsWith (sep : Separators) (floatRepr : ℚ → Text) : Json → Text
  | .null => "null".toList
  | .bool true => "true".toList
  | .bool false => "false".toList
  | .int n => decimalInt n
  | .float x => dumpsFloat floatRepr x
  | .str s => dumpsStr s
  | .arr items =>
    '[' :: (joinSep (',' :: sep.afterItem) (dumpsItemsWith sep floatRepr items) ++ [']'])
  | .obj fields =>
    '{' :: (joinSep (',' :: sep.afterItem) (dumpsFieldsWith sep floatRepr fields) ++ ['}'])

def dumpsItemsWith (sep : Separators) (floatRepr : ℚ → Text) : List Json → List Text
  | [] => []
  | item :: items => dumpsWith sep floatRepr item :: dumpsItemsWith sep floatRepr items

def dumpsFieldsWith (sep : Separators) (floatRepr : ℚ → Text) :
    List (PyStr × Json) → List Text
  | [] => []
  | (key, item) :: fields =>
    (dumpsStr key ++ ':' :: sep.afterKey ++ dumpsWith sep floatRepr item) ::
      dumpsFieldsWith sep floatRepr fields
end

lemma dumpsItemsWith_eq_map (sep : Separators) (floatRepr : ℚ → Text) (items : List Json) :
    dumpsItemsWith sep floatRepr items = items.map (dumpsWith sep floatRepr) := by
  induction items with
  | nil => rfl
  | cons v items ih => rw [dumpsItemsWith, ih, List.map_cons]

lemma dumpsFieldsWith_eq_map (sep : Separators) (floatRepr : ℚ → Text)
    (fields : List (PyStr × Json)) :
    dumpsFieldsWith sep floatRepr fields = fields.map fun f =>
      dumpsStr f.1 ++ ':' :: sep.afterKey ++ dumpsWith sep floatRepr f.2 := by
  induction fields with
  | nil => rfl
  | cons f fields ih => rw [dumpsFieldsWith, ih, List.map_cons]

/-- The compact form is the one of `dumps`. -/
theorem dumps_eq_dumpsWith (floatRepr : ℚ → Text) (v : Json) :
    dumps floatRepr v = dumpsWith .compact floatRepr v := by
  induction v using Json.ind with
  | null => rfl
  | bool b => cases b <;> rfl
  | int n => rfl
  | float x => rfl
  | str s => rfl
  | arr items ih =>
    have hitems : dumpsItems floatRepr items = dumpsItemsWith .compact floatRepr items := by
      induction items with
      | nil => rfl
      | cons v items ihitems =>
        rw [dumpsItems, dumpsItemsWith, ih v (by simp),
          ihitems fun w hw => ih w (List.mem_cons_of_mem _ hw)]
    rw [dumps, dumpsWith, hitems]
    rfl
  | obj fields ih =>
    have hfields : dumpsFields floatRepr fields = dumpsFieldsWith .compact floatRepr fields := by
      induction fields with
      | nil => rfl
      | cons f fields ihfields =>
        rw [dumpsFields, dumpsFieldsWith, ih f (by simp),
          ihfields fun g hg => ih g (List.mem_cons_of_mem _ hg)]
        simp [Separators.compact]
    rw [dumps, dumpsWith, hfields]
    rfl

/-! ## What can be read back -/

/-- A finite float that some literal stands for. -/
def ReadableFloat (q : ℚ) : Prop :=
  ∃ negative mantissa exponent, PyFloat.ofDecimal negative mantissa exponent = .finite q

/-- `float.__repr__` writes a literal that stands for the float. -/
def ReprReadsBack (floatRepr : ℚ → Text) : Prop :=
  ∀ q, ReadableFloat q →
    ∃ l : FloatLiteral, (floatRepr q).toPyStr = l.text ∧ l.value = .finite q

mutual
/-- A value as `json.loads` produces it: no integer is too long, strings are made of code
points, and the keys of an object are distinct. -/
def Json.Readable : Json → Prop
  | .int n => (decimal n.natAbs).length ≤ maxStrDigits
  | .float (.finite q) => ReadableFloat q
  | .str s => CodePoints s
  | .arr items => Json.ReadableItems items
  | .obj fields => (fields.map Prod.fst).Nodup ∧ Json.ReadableFields fields
  | _ => True

def Json.ReadableItems : List Json → Prop
  | [] => True
  | item :: items => item.Readable ∧ Json.ReadableItems items

def Json.ReadableFields : List (PyStr × Json) → Prop
  | [] => True
  | (key, item) :: fields => CodePoints key ∧ item.Readable ∧ Json.ReadableFields fields
end

lemma Json.readableItems_iff {items : List Json} :
    Json.ReadableItems items ↔ ∀ v ∈ items, v.Readable := by
  induction items with
  | nil => simp [Json.ReadableItems]
  | cons v items ih => simp [Json.ReadableItems, ih]

lemma Json.readableFields_iff {fields : List (PyStr × Json)} :
    Json.ReadableFields fields ↔ ∀ f ∈ fields, CodePoints f.1 ∧ f.2.Readable := by
  induction fields with
  | nil => simp [Json.ReadableFields]
  | cons f fields ih => simp [Json.ReadableFields, ih, and_assoc]

lemma Json.depthItems_le_iff {items : List Json} {d : ℕ} :
    Json.depthItems items ≤ d ↔ ∀ v ∈ items, v.depth ≤ d := by
  induction items with
  | nil => simp [Json.depthItems]
  | cons v items ih => simp [Json.depthItems, ih]

lemma Json.depthFields_le_iff {fields : List (PyStr × Json)} {d : ℕ} :
    Json.depthFields fields ≤ d ↔ ∀ f ∈ fields, f.2.depth ≤ d := by
  induction fields with
  | nil => simp [Json.depthFields]
  | cons f fields ih => simp [Json.depthFields, ih]

mutual
/-- What a value is read back as: strings with their surrogates paired up, and of members
whose keys have become equal the place of the first and the value of the last. -/
def Json.rejoin : Json → Json
  | .str s => .str (pairUp s)
  | .arr items => .arr (Json.rejoinItems items)
  | .obj fields => .obj (dictOfPairs (Json.rejoinFields fields))
  | v => v

def Json.rejoinItems : List Json → List Json
  | [] => []
  | item :: items => item.rejoin :: Json.rejoinItems items

def Json.rejoinFields : List (PyStr × Json) → List (PyStr × Json)
  | [] => []
  | (key, item) :: fields => (pairUp key, item.rejoin) :: Json.rejoinFields fields
end

lemma Json.rejoinItems_eq_map (items : List Json) :
    Json.rejoinItems items = items.map Json.rejoin := by
  induction items with
  | nil => rfl
  | cons v items ih => rw [Json.rejoinItems, ih, List.map_cons]

lemma Json.rejoinFields_eq_map (fields : List (PyStr × Json)) :
    Json.rejoinFields fields = fields.map fun f => (pairUp f.1, f.2.rejoin) := by
  induction fields with
  | nil => rfl
  | cons f fields ih => rw [Json.rejoinFields, ih, List.map_cons]

/-! ## Blanks and separators -/

lemma skipWs_append {blank rest : PyStr} (hblank : ∀ c ∈ blank, isJsonSpace c = true)
    (hrest : ∀ c ∈ rest.head?, isJsonSpace c = false) : skipWs (blank ++ rest) = rest := by
  rw [skipWs, List.dropWhile_append_of_pos hblank]
  cases rest with
  | nil => rfl
  | cons c rest =>
    have hc := hrest c rfl
    rw [List.dropWhile_cons_of_neg (by simp [hc])]

lemma skipWs_cons {c : ℕ} (h : isJsonSpace c = false) (rest : PyStr) :
    skipWs (c :: rest) = c :: rest :=
  skipWs_append (List.forall_mem_nil _) (by simpa using h)

lemma Text.toPyStr_append (s t : Text) : Text.toPyStr (s ++ t) = s.toPyStr ++ t.toPyStr :=
  List.map_append

/-- The first character is one that a value can begin with. -/
def BeginsValue (s : PyStr) : Prop :=
  ∃ c t, s = c :: t ∧ isJsonSpace c = false ∧ c ≠ 0x5D ∧ c < 0x80

lemma BeginsValue.append {s : PyStr} (h : BeginsValue s) (rest : PyStr) :
    BeginsValue (s ++ rest) := by
  obtain ⟨c, t, rfl, hfirst⟩ := h
  exact ⟨c, t ++ rest, rfl, hfirst⟩

lemma BeginsValue.head {s : PyStr} (h : BeginsValue s) :
    ∀ c ∈ s.head?, isJsonSpace c = false := by
  obtain ⟨c, t, rfl, hspace, -⟩ := h
  simpa using hspace

/-- Two parts joined: the first, the comma, the blank, and the rest. -/
lemma toPyStr_joinSep_cons_cons (blank s t : Text) (ts : List Text) (rest : PyStr) :
    (joinSep (',' :: blank) (s :: t :: ts)).toPyStr ++ rest =
      s.toPyStr ++ 0x2C :: (blank.toPyStr ++
        ((joinSep (',' :: blank) (t :: ts)).toPyStr ++ rest)) := by
  rw [joinSep_cons_cons]
  simp [Text.toPyStr]

/-- A joined text begins as its first part does. -/
lemma beginsValue_joinSep (blank : Text) {s : Text} (h : BeginsValue s.toPyStr)
    (ts : List Text) (rest : PyStr) :
    BeginsValue ((joinSep (',' :: blank) (s :: ts)).toPyStr ++ rest) := by
  cases ts with
  | nil =>
    rw [joinSep_singleton]
    exact h.append rest
  | cons t ts =>
    rw [toPyStr_joinSep_cons_cons]
    exact h.append _

lemma numberEnd_comma (rest : PyStr) : NumberEnd (0x2C :: rest) := by
  simp [NumberEnd, continuesNumber, isAsciiDigit]

lemma numberEnd_bracket (rest : PyStr) : NumberEnd (0x5D :: rest) := by
  simp [NumberEnd, continuesNumber, isAsciiDigit]

lemma numberEnd_brace (rest : PyStr) : NumberEnd (0x7D :: rest) := by
  simp [NumberEnd, continuesNumber, isAsciiDigit]

lemma numberEnd_nil : NumberEnd [] := by simp [NumberEnd]

section Lists

variable {value : PyStr → Scan Json} {write : Json → Text} {read : Json → Json} {blank : Text}

/-! One step of the two loops, by what stands after the value. -/

lemma scanItems_close {s r rest : PyStr} {v : Json} (hvalue : value s = .ok (v, r))
    (hr : skipWs r = 0x5D :: rest) (n : ℕ) : scanItems value (n + 1) s = .ok ([v], rest) := by
  rw [scanItems, hvalue, ok_bind]
  dsimp only
  rw [hr]
  rfl

lemma scanItems_comma {s r rest : PyStr} {v : Json} (hvalue : value s = .ok (v, r))
    (hr : skipWs r = 0x2C :: rest) (n : ℕ) :
    scanItems value (n + 1) s =
      (scanItems value n (skipWs rest) >>= fun p => .ok (v :: p.1, p.2)) := by
  rw [scanItems, hvalue, ok_bind]
  dsimp only
  rw [hr]
  rfl

lemma scanMembers_close {s r t u rest : PyStr} {key : PyStr} {v : Json}
    (hkey : scanString s = .ok (key, r)) (hcolon : skipWs r = 0x3A :: t)
    (hvalue : value (skipWs t) = .ok (v, u)) (hu : skipWs u = 0x7D :: rest) (n : ℕ) :
    scanMembers value (n + 1) (0x22 :: s) = .ok ([(key, v)], rest) := by
  simp only [scanMembers, hkey, ok_bind, hcolon, hvalue, hu]
  rfl

lemma scanMembers_comma {s r t u rest : PyStr} {key : PyStr} {v : Json}
    (hkey : scanString s = .ok (key, r)) (hcolon : skipWs r = 0x3A :: t)
    (hvalue : value (skipWs t) = .ok (v, u)) (hu : skipWs u = 0x2C :: rest) (n : ℕ) :
    scanMembers value (n + 1) (0x22 :: s) =
      (scanMembers value n (skipWs rest) >>= fun p => .ok ((key, v) :: p.1, p.2)) := by
  simp only [scanMembers, hkey, ok_bind, hcolon, hvalue, hu]
  rfl

/-- **The items of an array are read back**, when its items are. -/
lemma scanItems_joinSep (hblank : ∀ c ∈ blank.toPyStr, isJsonSpace c = true)
    {items : List Json} (hne : items ≠ [])
    (hread : ∀ v ∈ items, ∀ rest, NumberEnd rest →
      value ((write v).toPyStr ++ rest) = .ok (read v, rest))
    (hbegin : ∀ v ∈ items, BeginsValue (write v).toPyStr)
    {fuel : ℕ} (hfuel : items.length ≤ fuel) (rest : PyStr) :
    scanItems value fuel ((joinSep (',' :: blank) (items.map write)).toPyStr ++ 0x5D :: rest) =
      .ok (items.map read, rest) := by
  induction items generalizing fuel with
  | nil => exact absurd rfl hne
  | cons v items ih =>
    obtain ⟨n, rfl⟩ : ∃ n, fuel = n + 1 := ⟨fuel - 1, by rw [List.length_cons] at hfuel; omega⟩
    cases items with
    | nil =>
      rw [List.map_singleton, joinSep_singleton,
        scanItems_close (hread v (by simp) _ (numberEnd_bracket rest)) (skipWs_cons (by decide) _)]
      rfl
    | cons w items =>
      have hrest := ih (List.cons_ne_nil w items)
        (fun u hu => hread u (List.mem_cons_of_mem _ hu))
        (fun u hu => hbegin u (List.mem_cons_of_mem _ hu)) (by simpa using hfuel)
      have hhead := (beginsValue_joinSep blank (hbegin w (by simp)) (items.map write)
        (0x5D :: rest)).head
      rw [List.map_cons, List.map_cons, toPyStr_joinSep_cons_cons,
        scanItems_comma (hread v (by simp) _ (numberEnd_comma _)) (skipWs_cons (by decide) _),
        skipWs_append hblank hhead, ← List.map_cons, hrest, ok_bind]
      rfl

/-- A written key, colon and value. -/
lemma toPyStr_member (key : PyStr) (blank t : Text) (rest : PyStr) :
    (dumpsStr key ++ ':' :: blank ++ t).toPyStr ++ rest =
      0x22 :: (key.flatMap escaped ++
        0x22 :: (0x3A :: (blank.toPyStr ++ (t.toPyStr ++ rest)))) := by
  have hkey : (dumpsStr key).map Char.toNat = 0x22 :: (key.flatMap escaped ++ [0x22]) :=
    toPyStr_dumpsStr key
  simp [Text.toPyStr, hkey]

lemma beginsValue_dumpsStr (s : PyStr) : BeginsValue (dumpsStr s).toPyStr :=
  ⟨0x22, _, toPyStr_dumpsStr s, by decide, by decide, by decide⟩

/-- **The members of an object are read back**, when their values are. -/
lemma scanMembers_joinSep {afterKey : Text}
    (hblank : ∀ c ∈ blank.toPyStr, isJsonSpace c = true)
    (hkey : ∀ c ∈ afterKey.toPyStr, isJsonSpace c = true)
    {fields : List (PyStr × Json)} (hne : fields ≠ [])
    (hkeys : ∀ f ∈ fields, CodePoints f.1)
    (hread : ∀ f ∈ fields, ∀ rest, NumberEnd rest →
      value ((write f.2).toPyStr ++ rest) = .ok (read f.2, rest))
    (hbegin : ∀ f ∈ fields, BeginsValue (write f.2).toPyStr)
    {fuel : ℕ} (hfuel : fields.length ≤ fuel) (rest : PyStr) :
    scanMembers value fuel ((joinSep (',' :: blank)
        (fields.map fun f => dumpsStr f.1 ++ ':' :: afterKey ++ write f.2)).toPyStr ++
          0x7D :: rest) =
      .ok (fields.map fun f => (pairUp f.1, read f.2), rest) := by
  induction fields generalizing fuel with
  | nil => exact absurd rfl hne
  | cons f fields ih =>
    obtain ⟨n, rfl⟩ : ∃ n, fuel = n + 1 := ⟨fuel - 1, by rw [List.length_cons] at hfuel; omega⟩
    have hscan := scanString_flatMap_escaped (hkeys f (by simp))
    have hvalue : ∀ follow, NumberEnd follow →
        value (skipWs (afterKey.toPyStr ++ ((write f.2).toPyStr ++ follow))) =
          .ok (read f.2, follow) := by
      intro follow hfollow
      rw [skipWs_append hkey ((hbegin f (by simp)).append follow).head]
      exact hread f (by simp) follow hfollow
    cases fields with
    | nil =>
      rw [List.map_singleton, joinSep_singleton, toPyStr_member,
        scanMembers_close (hscan _) (skipWs_cons (by decide) _)
          (hvalue _ (numberEnd_brace rest)) (skipWs_cons (by decide) _)]
      rfl
    | cons g fields =>
      have hrest := ih (List.cons_ne_nil g fields)
        (fun u hu => hkeys u (List.mem_cons_of_mem _ hu))
        (fun u hu => hread u (List.mem_cons_of_mem _ hu))
        (fun u hu => hbegin u (List.mem_cons_of_mem _ hu)) (by simpa using hfuel)
      have hquote : BeginsValue (dumpsStr g.1 ++ ':' :: afterKey ++ write g.2).toPyStr := by
        rw [List.append_assoc, Text.toPyStr_append]
        exact (beginsValue_dumpsStr g.1).append _
      have hhead := (beginsValue_joinSep blank hquote
        (fields.map fun f => dumpsStr f.1 ++ ':' :: afterKey ++ write f.2) (0x7D :: rest)).head
      rw [List.map_cons] at hrest
      rw [List.map_cons, List.map_cons, toPyStr_joinSep_cons_cons, toPyStr_member,
        scanMembers_comma (hscan _) (skipWs_cons (by decide) _) (hvalue _ (numberEnd_comma _))
          (skipWs_cons (by decide) _),
        skipWs_append hblank hhead, hrest, ok_bind]
      rfl

end Lists

/-! ## One value -/

lemma beginsValue_decimal (n : ℕ) : BeginsValue (decimal n).toPyStr ∧
    ∃ c t, (decimal n).toPyStr = c :: t ∧ isAsciiDigit c = true := by
  obtain ⟨c, t, heq, hc⟩ := (isDigits_decimal n).exists_cons
    (by simpa [Text.toPyStr] using decimal_ne_nil n)
  have hbounds := isAsciiDigit_iff.mp hc
  have hspace : isJsonSpace c = false := by
    simp only [isJsonSpace, Bool.or_eq_false_iff, beq_eq_false_iff_ne]
    omega
  exact ⟨⟨c, t, heq, hspace, by omega, by omega⟩, c, t, heq, hc⟩

lemma toPyStr_decimalInt (n : ℤ) : (decimalInt n).toPyStr =
    if n < 0 then 0x2D :: (decimal n.natAbs).toPyStr else (decimal n.natAbs).toPyStr := by
  cases n with
  | ofNat n => rfl
  | negSucc n =>
    rw [if_pos (Int.negSucc_lt_zero n)]
    rfl

lemma FloatLiteral.exists_cons_unsigned (l : FloatLiteral) (rest : PyStr) :
    ∃ c t, l.unsigned ++ rest = c :: t ∧ isAsciiDigit c = true := by
  obtain ⟨-, c, t, heq, hc⟩ := beginsValue_decimal l.whole
  exact ⟨c, _, by rw [FloatLiteral.unsigned, heq]; rfl, hc⟩

/-- A number without a sign is read as one. -/
lemma scanValue_digit (array object : PyStr → Scan Json) {s : PyStr}
    (h : ∃ c t, s = c :: t ∧ isAsciiDigit c = true) :
    scanValue array object s = scanUnsigned false s := by
  obtain ⟨c, t, rfl, hc⟩ := h
  have hdigits : ∀ c < 0x3A, 0x30 ≤ c →
      scanValue array object (c :: t) = scanUnsigned false (c :: t) := by
    intro c hlt hle
    have hcases : c = 0x30 ∨ c = 0x31 ∨ c = 0x32 ∨ c = 0x33 ∨ c = 0x34 ∨ c = 0x35 ∨ c = 0x36 ∨
      c = 0x37 ∨ c = 0x38 ∨ c = 0x39 := by omega
    rcases hcases with rfl | rfl | rfl | rfl | rfl | rfl | rfl | rfl | rfl | rfl <;> rfl
  rw [isAsciiDigit_iff] at hc
  exact hdigits c (by omega) hc.1

/-- A number with a minus sign is read as one. -/
lemma scanValue_minus (array object : PyStr → Scan Json) {s : PyStr}
    (h : ∃ c t, s = c :: t ∧ isAsciiDigit c = true) :
    scanValue array object (0x2D :: s) = scanUnsigned true s := by
  obtain ⟨c, t, rfl, hc⟩ := h
  rw [isAsciiDigit_iff] at hc
  have hne : c ≠ 0x49 := by omega
  simp [scanValue, hne]

/-- A literal is read as the float it stands for. -/
lemma scanValue_literal (array object : PyStr → Scan Json) (l : FloatLiteral) {rest : PyStr}
    (hrest : NumberEnd rest) :
    scanValue array object (l.text ++ rest) = .ok (.float l.value, rest) := by
  have hread := l.scanUnsigned_text hrest
  rw [FloatLiteral.text]
  cases hneg : l.negative with
  | true =>
    rw [hneg] at hread
    rw [if_pos rfl, List.cons_append, scanValue_minus _ _ (l.exists_cons_unsigned rest), hread]
  | false =>
    rw [hneg] at hread
    rw [if_neg (by simp), scanValue_digit _ _ (l.exists_cons_unsigned rest), hread]

/-- How `dumps` writes the negative zero. -/
def negZeroLiteral : FloatLiteral where
  negative := true
  whole := 0
  fraction := py "0"
  exponent := none
  fraction_digits := isDigits_decimal 0
  notInteger := Or.inl (by decide)

lemma negZeroLiteral_value : negZeroLiteral.value = .negZero := by
  have hzero : natOfDigits ((decimal 0).toPyStr ++ py "0") = 0 := by decide
  rw [FloatLiteral.value, negZeroLiteral, hzero, PyFloat.ofDecimal, if_pos rfl, PyFloat.rounded,
    roundDouble_zero, if_neg (not_le.mpr (by positivity)), if_pos rfl, if_pos rfl]

section Values

variable {sep : Separators} {floatRepr : ℚ → Text}

/-- The values without parts are read back, whatever the reader does with the others. -/
lemma scanValue_scalar (array object : PyStr → Scan Json) (hrepr : ReprReadsBack floatRepr)
    {v : Json} (hv : v.Readable) (harr : ∀ items, v ≠ .arr items)
    (hobj : ∀ fields, v ≠ .obj fields) {rest : PyStr} (hrest : NumberEnd rest) :
    scanValue array object ((dumpsWith sep floatRepr v).toPyStr ++ rest) =
      .ok (v.rejoin, rest) := by
  cases v with
  | null => rfl
  | bool b => cases b <;> rfl
  | int n =>
    obtain ⟨-, hdigit⟩ := beginsValue_decimal n.natAbs
    have hhead : ∃ c t, (decimal n.natAbs).toPyStr ++ rest = c :: t ∧ isAsciiDigit c = true := by
      obtain ⟨c, t, heq, hc⟩ := hdigit
      exact ⟨c, t ++ rest, by rw [heq]; rfl, hc⟩
    rw [dumpsWith, toPyStr_decimalInt]
    split
    · next hneg =>
      rw [List.cons_append, scanValue_minus _ _ hhead, scanUnsigned_decimal true hv hrest,
        if_pos rfl, Json.rejoin]
      · congr 3
        omega
      all_goals simp
    · next hpos =>
      rw [scanValue_digit _ _ hhead, scanUnsigned_decimal false hv hrest, if_neg (by simp),
        Json.rejoin]
      · congr 3
        omega
      all_goals simp
  | float x =>
    cases x with
    | inf negative => cases negative <;> rfl
    | nan => rfl
    | negZero =>
      have hgoal : (dumpsWith sep floatRepr (.float .negZero)).toPyStr = negZeroLiteral.text := rfl
      rw [hgoal, scanValue_literal _ _ _ hrest, negZeroLiteral_value]
      rfl
    | finite q =>
      obtain ⟨l, htext, hvalue⟩ := hrepr q hv
      have hgoal : (dumpsWith sep floatRepr (.float (.finite q))).toPyStr = l.text := htext
      rw [hgoal, scanValue_literal _ _ l hrest, hvalue]
      rfl
  | str s =>
    have hscan := scanString_flatMap_escaped hv rest
    rw [dumpsWith, toPyStr_dumpsStr, List.cons_append, List.append_assoc, List.singleton_append]
    simp only [scanValue, hscan]
    rfl
  | arr items => exact absurd rfl (harr items)
  | obj fields => exact absurd rfl (hobj fields)

/-- A written value begins like one. -/
lemma beginsValue_dumpsWith (hrepr : ReprReadsBack floatRepr) {v : Json} (hv : v.Readable) :
    BeginsValue (dumpsWith sep floatRepr v).toPyStr := by
  cases v with
  | null => exact ⟨_, _, rfl, by decide, by decide, by decide⟩
  | bool b => cases b <;> exact ⟨_, _, rfl, by decide, by decide, by decide⟩
  | int n =>
    rw [dumpsWith, toPyStr_decimalInt]
    split
    · exact ⟨_, _, rfl, by decide, by decide, by decide⟩
    · exact (beginsValue_decimal n.natAbs).1
  | float x =>
    cases x with
    | inf negative => cases negative <;> exact ⟨_, _, rfl, by decide, by decide, by decide⟩
    | nan => exact ⟨_, _, rfl, by decide, by decide, by decide⟩
    | negZero => exact ⟨_, _, rfl, by decide, by decide, by decide⟩
    | finite q =>
      obtain ⟨l, htext, -⟩ := hrepr q hv
      have hgoal : (dumpsWith sep floatRepr (.float (.finite q))).toPyStr = l.text := htext
      rw [hgoal, FloatLiteral.text]
      split
      · exact ⟨_, _, rfl, by decide, by decide, by decide⟩
      · exact (beginsValue_decimal l.whole).1.append _
  | str s =>
    rw [dumpsWith]
    exact beginsValue_dumpsStr s
  | arr items => exact ⟨0x5B, _, by rw [dumpsWith]; rfl, by decide, by decide, by decide⟩
  | obj fields => exact ⟨0x7B, _, by rw [dumpsWith]; rfl, by decide, by decide, by decide⟩

/-- Joining keeps every part, so there are no more parts than characters. -/
lemma length_le_length_joinSep (blank : Text) {parts : List Text} (h : ∀ t ∈ parts, t ≠ []) :
    parts.length ≤ (joinSep (',' :: blank) parts).length := by
  induction parts with
  | nil => simp
  | cons s parts ih =>
    have hs := List.length_pos_iff.mpr (h s (by simp))
    have ih := ih fun t ht => h t (List.mem_cons_of_mem _ ht)
    cases parts with
    | nil =>
      rw [joinSep_singleton]
      exact hs
    | cons t parts =>
      rw [joinSep_cons_cons, List.length_append, List.length_append, List.length_cons]
      omega

/-- An array that is not empty, from its items. -/
lemma scanArray_of_begins {value : PyStr → Scan Json} {s : PyStr} (h : BeginsValue s) :
    scanArray value s = (scanItems value s.length s).map fun r => (.arr r.1, r.2) := by
  obtain ⟨c, t, rfl, hspace, hbracket, -⟩ := h
  rw [scanArray, skipWs_cons hspace]
  split
  · next heq => exact absurd (List.cons.inj heq).1 hbracket
  · rfl

/-- An object that is not empty, from its members. -/
lemma scanObject_of_quote {value : PyStr → Scan Json} (s : PyStr) :
    scanObject value (0x22 :: s) =
      (scanMembers value (0x22 :: s).length (0x22 :: s)).map
        fun r => (.obj (dictOfPairs r.1), r.2) := by
  rw [scanObject, skipWs_cons (by decide)]
  rfl

lemma scanOnce_eq (d : ℕ) : ∃ array object, scanOnce d = scanValue array object := by
  cases d with
  | zero => exact ⟨_, _, rfl⟩
  | succ d => exact ⟨_, _, rfl⟩

/-- **A written value is read back**, whatever follows it. -/
theorem scanOnce_dumpsWith (hrepr : ReprReadsBack floatRepr) {v : Json} (hv : v.Readable)
    {d : ℕ} (hd : v.depth ≤ d) {rest : PyStr} (hrest : NumberEnd rest) :
    scanOnce d ((dumpsWith sep floatRepr v).toPyStr ++ rest) = .ok (v.rejoin, rest) := by
  induction v using Json.ind generalizing d rest with
  | arr items ih =>
    obtain ⟨d, rfl⟩ : ∃ n, d = n + 1 := ⟨d - 1, by rw [Json.depth] at hd; omega⟩
    have hitems := Json.readableItems_iff.mp hv
    have hdepth := Json.depthItems_le_iff.mp (Nat.le_of_succ_le_succ hd)
    have htext : (dumpsWith sep floatRepr (.arr items)).toPyStr ++ rest =
        0x5B :: ((joinSep (',' :: sep.afterItem)
          (items.map (dumpsWith sep floatRepr))).toPyStr ++ 0x5D :: rest) := by
      rw [dumpsWith, dumpsItemsWith_eq_map]
      simp [Text.toPyStr]
    have hunfold : ∀ s, scanOnce (d + 1) (0x5B :: s) = scanArray (scanOnce d) s := fun s => rfl
    rw [htext, hunfold, Json.rejoin, Json.rejoinItems_eq_map]
    by_cases hne : items = []
    · subst hne
      rfl
    · obtain ⟨v, vs, rfl⟩ := List.exists_cons_of_ne_nil hne
      have hbegin : ∀ w ∈ v :: vs, BeginsValue (dumpsWith sep floatRepr w).toPyStr :=
        fun w hw => beginsValue_dumpsWith hrepr (hitems w hw)
      have hparts : ∀ t ∈ (v :: vs).map (dumpsWith sep floatRepr), t ≠ [] := by
        intro t ht hnil
        obtain ⟨w, hw, rfl⟩ := List.mem_map.mp ht
        obtain ⟨c, r, hcons, -⟩ := hbegin w hw
        rw [hnil] at hcons
        cases hcons
      have hlen := length_le_length_joinSep sep.afterItem hparts
      rw [scanArray_of_begins (by
          rw [List.map_cons]
          exact beginsValue_joinSep _ (hbegin v (by simp)) _ _),
        scanItems_joinSep sep.afterItem_blank hne
          (fun w hw rest hrest => ih w hw (hitems w hw) (hdepth w hw) hrest) hbegin]
      · rfl
      · rw [List.length_map] at hlen
        rw [List.length_append, Text.toPyStr, List.length_map]
        omega
  | obj fields ih =>
    obtain ⟨d, rfl⟩ : ∃ n, d = n + 1 := ⟨d - 1, by rw [Json.depth] at hd; omega⟩
    have hfields := Json.readableFields_iff.mp hv.2
    have hdepth := Json.depthFields_le_iff.mp (Nat.le_of_succ_le_succ hd)
    have htext : (dumpsWith sep floatRepr (.obj fields)).toPyStr ++ rest =
        0x7B :: ((joinSep (',' :: sep.afterItem) (fields.map fun f =>
          dumpsStr f.1 ++ ':' :: sep.afterKey ++ dumpsWith sep floatRepr f.2)).toPyStr ++
            0x7D :: rest) := by
      rw [dumpsWith, dumpsFieldsWith_eq_map]
      simp [Text.toPyStr]
    have hunfold : ∀ s, scanOnce (d + 1) (0x7B :: s) = scanObject (scanOnce d) s := fun s => rfl
    rw [htext, hunfold, Json.rejoin, Json.rejoinFields_eq_map]
    by_cases hne : fields = []
    · subst hne
      rfl
    · have hparts : ∀ t ∈ fields.map fun f =>
          dumpsStr f.1 ++ ':' :: sep.afterKey ++ dumpsWith sep floatRepr f.2, t ≠ [] := by
        intro t ht
        obtain ⟨f, -, rfl⟩ := List.mem_map.mp ht
        simp [dumpsStr]
      have hlen := length_le_length_joinSep sep.afterItem hparts
      obtain ⟨f, fs, rfl⟩ := List.exists_cons_of_ne_nil hne
      obtain ⟨s, hs⟩ : ∃ s, (joinSep (',' :: sep.afterItem) ((f :: fs).map fun f =>
          dumpsStr f.1 ++ ':' :: sep.afterKey ++ dumpsWith sep floatRepr f.2)).toPyStr ++
            0x7D :: rest = 0x22 :: s := by
        cases fs with
        | nil => exact ⟨_, by rw [List.map_singleton, joinSep_singleton, toPyStr_member]⟩
        | cons g fs =>
          exact ⟨_, by rw [List.map_cons, List.map_cons, toPyStr_joinSep_cons_cons,
            toPyStr_member]⟩
      rw [hs, scanObject_of_quote, ← hs,
        scanMembers_joinSep sep.afterItem_blank sep.afterKey_blank hne
          (fun f hf => (hfields f hf).1)
          (fun f hf rest hrest => ih f hf (hfields f hf).2 (hdepth f hf) hrest)
          (fun f hf => beginsValue_dumpsWith hrepr (hfields f hf).2)]
      · rfl
      · rw [List.length_map] at hlen
        rw [List.length_append, Text.toPyStr, List.length_map]
        omega
  | _ =>
    obtain ⟨array, object, hscan⟩ := scanOnce_eq d
    rw [hscan]
    exact scanValue_scalar array object hrepr hv (by simp) (by simp) hrest

/-- **Reading a written document** gives the value with its surrogates paired up. -/
theorem loadsStr_dumpsWith (hrepr : ReprReadsBack floatRepr) {v : Json} (hv : v.Readable)
    {limit : ℕ} (hdepth : v.depth ≤ limit) :
    loadsStr limit (dumpsWith sep floatRepr v).toPyStr = .ok v.rejoin := by
  have hbegin := @beginsValue_dumpsWith sep floatRepr hrepr v hv
  have hmark : (dumpsWith sep floatRepr v).toPyStr.head? ≠ some 0xFEFF := by
    obtain ⟨c, t, heq, -, -, hascii⟩ := hbegin
    rw [heq, List.head?_cons, Ne, Option.some.injEq]
    omega
  have hskip : skipWs (dumpsWith sep floatRepr v).toPyStr = (dumpsWith sep floatRepr v).toPyStr :=
    skipWs_append (List.forall_mem_nil _) hbegin.head
  have hscan := @scanOnce_dumpsWith sep floatRepr hrepr v hv limit hdepth [] numberEnd_nil
  rw [List.append_nil] at hscan
  rw [loadsStr, if_neg hmark, hskip, hscan]
  rfl

end Values

/-! ## When nothing changes -/

/-- No high surrogate stands directly before a low one. -/
def NoSplitPair (s : PyStr) : Prop :=
  s.IsChain fun u v => (isHighSurrogate u && isLowSurrogate v) = false

/-- The code points of characters. -/
lemma codePoints_toPyStr (t : Text) : CodePoints t.toPyStr := by
  intro n hn
  obtain ⟨c, -, rfl⟩ := List.mem_map.mp hn
  have hvalid : c.toNat < 0xD800 ∨ 0xDFFF < c.toNat ∧ c.toNat < 0x110000 := c.valid
  omega

/-- No character is a surrogate. -/
lemma noSplitPair_toPyStr (t : Text) : NoSplitPair t.toPyStr := by
  have hhigh : ∀ c : Char, isHighSurrogate c.toNat = false := by
    intro c
    have hvalid : c.toNat < 0xD800 ∨ 0xDFFF < c.toNat ∧ c.toNat < 0x110000 := c.valid
    simp only [isHighSurrogate, Bool.and_eq_false_iff, decide_eq_false_iff_not]
    omega
  refine List.Pairwise.isChain ?_
  rw [Text.toPyStr, List.pairwise_map]
  exact List.pairwise_of_forall fun c d => by rw [hhigh, Bool.false_and]

@[simp] lemma codePoints_py (s : String) : CodePoints (py s) := codePoints_toPyStr s.toList

@[simp] lemma noSplitPair_py (s : String) : NoSplitPair (py s) := noSplitPair_toPyStr s.toList

mutual
/-- No string of the value, keys included, has a high surrogate directly before a low one. -/
def Json.NoSplitPair : Json → Prop
  | .str s => IssuesApi.NoSplitPair s
  | .arr items => Json.NoSplitPairItems items
  | .obj fields => Json.NoSplitPairFields fields
  | _ => True

def Json.NoSplitPairItems : List Json → Prop
  | [] => True
  | item :: items => item.NoSplitPair ∧ Json.NoSplitPairItems items

def Json.NoSplitPairFields : List (PyStr × Json) → Prop
  | [] => True
  | (key, item) :: fields =>
    IssuesApi.NoSplitPair key ∧ item.NoSplitPair ∧ Json.NoSplitPairFields fields
end

lemma Json.noSplitPairItems_iff {items : List Json} :
    Json.NoSplitPairItems items ↔ ∀ v ∈ items, v.NoSplitPair := by
  induction items with
  | nil => simp [Json.NoSplitPairItems]
  | cons v items ih => simp [Json.NoSplitPairItems, ih]

lemma Json.noSplitPairFields_iff {fields : List (PyStr × Json)} :
    Json.NoSplitPairFields fields ↔
      ∀ f ∈ fields, IssuesApi.NoSplitPair f.1 ∧ f.2.NoSplitPair := by
  induction fields with
  | nil => simp [Json.NoSplitPairFields]
  | cons f fields ih => simp [Json.NoSplitPairFields, ih, and_assoc]

lemma dictSet_of_new {fields : List (PyStr × Json)} {key : PyStr} {v : Json}
    (h : ∀ f ∈ fields, f.1 ≠ key) : dictSet fields key v = fields ++ [(key, v)] := by
  rw [dictSet, if_neg]
  rw [List.any_eq_true]
  rintro ⟨f, hf, hkey⟩
  exact h f hf (by simpa using hkey)

lemma length_dictSet_le (fields : List (PyStr × Json)) (key : PyStr) (v : Json) :
    (dictSet fields key v).length ≤ fields.length + 1 ∧
      ((dictSet fields key v).length = fields.length + 1 →
        dictSet fields key v = fields ++ [(key, v)]) := by
  unfold dictSet
  split
  · simp
  · simp

/-- Distinct keys are kept as they are. -/
lemma dictOfPairs_of_nodup {pairs : List (PyStr × Json)} (h : (pairs.map Prod.fst).Nodup) :
    dictOfPairs pairs = pairs := by
  induction pairs using List.reverseRecOn with
  | nil => rfl
  | append_singleton pairs p ih =>
    rw [List.map_append, List.nodup_append] at h
    have hnew : ∀ f ∈ pairs, f.1 ≠ p.1 := fun f hf =>
      h.2.2 f.1 (List.mem_map_of_mem hf) p.1 (by simp)
    have hprefix : pairs.foldl (fun d p => dictSet d p.1 p.2) [] = pairs := ih h.1
    rw [dictOfPairs, List.foldl_append, hprefix, List.foldl_cons, List.foldl_nil,
      dictSet_of_new hnew]

/-- A dictionary has at most as many members as pairs, and as many only when every pair was
added at the end. -/
lemma foldl_dictSet (pairs d : List (PyStr × Json)) :
    (pairs.foldl (fun d p => dictSet d p.1 p.2) d).length ≤ d.length + pairs.length ∧
      ((pairs.foldl (fun d p => dictSet d p.1 p.2) d).length = d.length + pairs.length →
        pairs.foldl (fun d p => dictSet d p.1 p.2) d = d ++ pairs) := by
  induction pairs generalizing d with
  | nil => simp
  | cons p pairs ih =>
    obtain ⟨hstep, hlast⟩ := length_dictSet_le d p.1 p.2
    obtain ⟨hle, heq⟩ := ih (dictSet d p.1 p.2)
    rw [List.foldl_cons, List.length_cons]
    refine ⟨by omega, fun h => ?_⟩
    rw [heq (by omega), hlast (by omega), List.append_assoc]
    rfl

lemma dictOfPairs_eq_of_length {pairs : List (PyStr × Json)}
    (h : (dictOfPairs pairs).length = pairs.length) : dictOfPairs pairs = pairs :=
  (foldl_dictSet pairs []).2 (h.trans (Nat.zero_add _).symm)

lemma map_eq_self_iff {α : Type} {f : α → α} {l : List α} :
    l.map f = l ↔ ∀ a ∈ l, f a = a := by
  induction l with
  | nil => simp
  | cons a l ih => simp [ih]

/-- **When a value comes back as it was**: exactly when no string in it has a high surrogate
directly before a low one. -/
theorem Json.rejoin_eq_self_iff {v : Json} (hv : v.Readable) : v.rejoin = v ↔ v.NoSplitPair := by
  induction v using Json.ind with
  | str s =>
    rw [Json.rejoin, Json.str.injEq, pairUp_eq_self_iff]
    rfl
  | arr items ih =>
    have hitems := Json.readableItems_iff.mp hv
    rw [Json.rejoin, Json.arr.injEq, Json.rejoinItems_eq_map, map_eq_self_iff, Json.NoSplitPair,
      Json.noSplitPairItems_iff]
    exact forall₂_congr fun v hmem => ih v hmem (hitems v hmem)
  | obj fields ih =>
    obtain ⟨hnodup, hreadable⟩ := hv
    have hfields := Json.readableFields_iff.mp hreadable
    have hself : (fields.map fun f => (pairUp f.1, f.2.rejoin)) = fields ↔
        ∀ f ∈ fields, IssuesApi.NoSplitPair f.1 ∧ f.2.NoSplitPair := by
      rw [map_eq_self_iff]
      refine forall₂_congr fun f hmem => ?_
      rw [Prod.ext_iff, pairUp_eq_self_iff, ih f hmem (hfields f hmem).2]
      rfl
    rw [Json.rejoin, Json.obj.injEq, Json.rejoinFields_eq_map, Json.NoSplitPair,
      Json.noSplitPairFields_iff, ← hself]
    constructor
    · intro h
      -- nothing was merged, so every member is the one it was
      have hlen := congrArg List.length h
      rw [dictOfPairs_eq_of_length (by rw [hlen, List.length_map])] at h
      exact h
    · intro h
      rw [h, dictOfPairs_of_nodup hnodup]
  | _ => simp [Json.rejoin, Json.NoSplitPair]

end IssuesApi
