import IssuesApi.Lib.Codec
import IssuesApi.Lib.Number

/-!
# JSON as Python reads and writes it

`Json` is the type of values `json.loads` produces, `loads` is `json.loads` on bytes and
`dumps` is `json.dumps` with the separators `(",", ":")`.

Three points of the library are visible to its callers and kept here.  A failure is one of
four exceptions (`LoadsError`), of which only the first is a `JSONDecodeError`.  Strings may
hold lone surrogates, written as escapes or passed through by the decoder.  `NaN`,
`Infinity` and `-Infinity` are accepted and written, although they are not JSON.

The shortest decimal that is rounded to a given float is not computed: `float.__repr__` is a
parameter of `dumps`.
-/

namespace IssuesApi

/-- A JSON value.  The keys of an object are distinct and in insertion order. -/
inductive Json where
  | null
  | bool (b : Bool)
  | int (n : ℤ)
  | float (x : PyFloat)
  | str (s : PyStr)
  | arr (items : List Json)
  | obj (fields : List (PyStr × Json))
  deriving Repr

mutual
/-- Equality of JSON values is decidable, so that runs on fixed bytes can be evaluated. -/
def Json.decEq : (a b : Json) → Decidable (a = b)
  | .null, .null => isTrue rfl
  | .bool a, .bool b => decidable_of_iff (a = b) (by simp)
  | .int a, .int b => decidable_of_iff (a = b) (by simp)
  | .float a, .float b => decidable_of_iff (a = b) (by simp)
  | .str a, .str b => decidable_of_iff (a = b) (by simp)
  | .arr a, .arr b => @decidable_of_iff _ (a = b) (by simp) (Json.decEqItems a b)
  | .obj a, .obj b => @decidable_of_iff _ (a = b) (by simp) (Json.decEqFields a b)
  | .null, .bool _ | .null, .int _ | .null, .float _ | .null, .str _ | .null, .arr _
  | .null, .obj _ | .bool _, .null | .bool _, .int _ | .bool _, .float _ | .bool _, .str _
  | .bool _, .arr _ | .bool _, .obj _ | .int _, .null | .int _, .bool _ | .int _, .float _
  | .int _, .str _ | .int _, .arr _ | .int _, .obj _ | .float _, .null | .float _, .bool _
  | .float _, .int _ | .float _, .str _ | .float _, .arr _ | .float _, .obj _ | .str _, .null
  | .str _, .bool _ | .str _, .int _ | .str _, .float _ | .str _, .arr _ | .str _, .obj _
  | .arr _, .null | .arr _, .bool _ | .arr _, .int _ | .arr _, .float _ | .arr _, .str _
  | .arr _, .obj _ | .obj _, .null | .obj _, .bool _ | .obj _, .int _ | .obj _, .float _
  | .obj _, .str _ | .obj _, .arr _ => isFalse (by simp)

def Json.decEqItems : (a b : List Json) → Decidable (a = b)
  | [], [] => isTrue rfl
  | [], _ :: _ | _ :: _, [] => isFalse (by simp)
  | x :: xs, y :: ys =>
    @decidable_of_iff _ (x = y ∧ xs = ys) (by simp)
      (@instDecidableAnd _ _ (Json.decEq x y) (Json.decEqItems xs ys))

def Json.decEqFields : (a b : List (PyStr × Json)) → Decidable (a = b)
  | [], [] => isTrue rfl
  | [], _ :: _ | _ :: _, [] => isFalse (by simp)
  | (k, x) :: xs, (l, y) :: ys =>
    @decidable_of_iff _ (k = l ∧ x = y ∧ xs = ys) (by simp [and_assoc])
      (@instDecidableAnd _ _ _ (@instDecidableAnd _ _ (Json.decEq x y)
        (Json.decEqFields xs ys)))
end

instance : DecidableEq Json := Json.decEq

/-- A JSON string holding a text. -/
def Json.text (t : Text) : Json := .str t.toPyStr

/-- A JSON string holding a literal. -/
def Json.lit (s : String) : Json := .str (py s)

/-! ## Dictionaries -/

/-- `d[key] = value`: an existing key keeps its place. -/
def dictSet (fields : List (PyStr × Json)) (key : PyStr) (value : Json) : List (PyStr × Json) :=
  if fields.any (fun f => f.1 = key) then
    fields.map (fun f => if f.1 = key then (key, value) else f)
  else fields ++ [(key, value)]

/-- `dict(pairs)`: the last value of a repeated key wins. -/
def dictOfPairs (pairs : List (PyStr × Json)) : List (PyStr × Json) :=
  pairs.foldl (fun d p => dictSet d p.1 p.2) []

/-- `d.get(key)`. -/
def dictGet (fields : List (PyStr × Json)) (key : String) : Option Json :=
  (fields.find? (fun f => f.1 = py key)).map (·.2)

/-- `key in d`. -/
def dictHas (fields : List (PyStr × Json)) (key : String) : Bool :=
  fields.any (fun f => f.1 = py key)

/-- `bool(value)`. -/
def Json.truthy : Json → Bool
  | .null => false
  | .bool b => b
  | .int n => n ≠ 0
  | .float x => x.value? ≠ some 0
  | .str s => s ≠ []
  | .arr items => !items.isEmpty
  | .obj fields => !fields.isEmpty

/-! ## Reading -/

/-- The exceptions of `json.loads`. -/
inductive LoadsError where
  /-- `json.JSONDecodeError`, a `ValueError`. -/
  | jsonDecodeError
  /-- `UnicodeDecodeError`, a `ValueError`. -/
  | unicodeDecodeError
  /-- `ValueError`: an integer of more than 4300 digits. -/
  | intTooLong
  /-- `RecursionError`, a `RuntimeError`: nesting beyond the interpreter's limit. -/
  | recursionError
  deriving DecidableEq, Repr

/-- What is left after reading something. -/
abbrev Scan (α : Type) := Except LoadsError (α × PyStr)

def isJsonSpace (c : ℕ) : Bool := c == 0x20 || c == 0x09 || c == 0x0A || c == 0x0D

def skipWs (s : PyStr) : PyStr := s.dropWhile isJsonSpace

def isAsciiDigit (c : ℕ) : Bool := 0x30 ≤ c && c ≤ 0x39

/-- The value of a hexadecimal digit. -/
def hexDigitValue (c : ℕ) : Option ℕ :=
  if 0x30 ≤ c ∧ c ≤ 0x39 then some (c - 0x30)
  else if 0x41 ≤ c ∧ c ≤ 0x46 then some (c - 0x41 + 10)
  else if 0x61 ≤ c ∧ c ≤ 0x66 then some (c - 0x61 + 10)
  else none

/-- Four hexadecimal digits. -/
def hex4 : PyStr → Option (ℕ × PyStr)
  | a :: b :: c :: d :: rest => do
    let w ← hexDigitValue a
    let x ← hexDigitValue b
    let y ← hexDigitValue c
    let z ← hexDigitValue d
    return (w * 4096 + x * 256 + y * 16 + z, rest)
  | _ => none

/-- The unit of a `\u` escape, joined with a following low-surrogate escape. -/
def escapedUnit (u : ℕ) (rest : PyStr) : ℕ × PyStr :=
  if isHighSurrogate u then
    match rest with
    | 0x5C :: 0x75 :: rest' =>
      match hex4 rest' with
      | some (v, rest'') => if isLowSurrogate v then (joinPair u v, rest'') else (u, rest)
      | none => (u, rest)
    | _ => (u, rest)
  else (u, rest)

/-- The character of a one-letter escape. -/
def simpleEscape (c : ℕ) : Option ℕ :=
  if c = 0x22 ∨ c = 0x5C ∨ c = 0x2F then some c
  else if c = 0x62 then some 0x08
  else if c = 0x66 then some 0x0C
  else if c = 0x6E then some 0x0A
  else if c = 0x72 then some 0x0D
  else if c = 0x74 then some 0x09
  else none

/-- The rest of a string literal, its opening quote already read. -/
def scanStringAux : ℕ → PyStr → Option (PyStr × PyStr)
  | 0, _ => none
  | _ + 1, [] => none
  | n + 1, c :: rest =>
    if c = 0x22 then some ([], rest)
    else if c = 0x5C then
      match rest with
      | [] => none
      | e :: rest =>
        if e = 0x75 then
          (hex4 rest).bind fun u =>
            let (codePoint, rest) := escapedUnit u.1 u.2
            (scanStringAux n rest).map (fun r => (codePoint :: r.1, r.2))
        else
          (simpleEscape e).bind fun codePoint =>
            (scanStringAux n rest).map (fun r => (codePoint :: r.1, r.2))
    else if c ≤ 0x1F then none
    else (scanStringAux n rest).map (fun r => (c :: r.1, r.2))

def scanString (s : PyStr) : Scan PyStr :=
  match scanStringAux (s.length + 1) s with
  | some r => .ok r
  | none => .error .jsonDecodeError

/-- The number written by a run of decimal digits. -/
def natOfDigits (digits : PyStr) : ℕ := digits.foldl (fun n c => n * 10 + (c - 0x30)) 0

/-- The fraction of a number: a point that at least one digit follows. -/
def scanFraction : PyStr → PyStr × PyStr
  | 0x2E :: rest =>
    if (rest.takeWhile isAsciiDigit).isEmpty then ([], 0x2E :: rest)
    else (rest.takeWhile isAsciiDigit, rest.dropWhile isAsciiDigit)
  | s => ([], s)

/-- The exponent of a number: `e` or `E`, a sign, and at least one digit. -/
def scanExponent (s : PyStr) : Option ℤ × PyStr :=
  match s with
  | c :: rest =>
    if c = 0x65 ∨ c = 0x45 then
      let (negative, digits) : Bool × PyStr :=
        match rest with
        | 0x2B :: r => (false, r)
        | 0x2D :: r => (true, r)
        | r => (false, r)
      if (digits.takeWhile isAsciiDigit).isEmpty then (none, s)
      else
        let n : ℤ := natOfDigits (digits.takeWhile isAsciiDigit)
        (some (if negative then -n else n), digits.dropWhile isAsciiDigit)
    else (none, s)
  | [] => (none, s)

/-- The largest number of digits `int` converts from text. -/
def maxStrDigits : ℕ := 4300

/-- A number without its sign. -/
def scanUnsigned (negative : Bool) (s : PyStr) : Scan Json :=
  -- a leading zero stands alone
  let (whole, rest) : PyStr × PyStr :=
    match s with
    | 0x30 :: r => ([0x30], r)
    | s => (s.takeWhile isAsciiDigit, s.dropWhile isAsciiDigit)
  if whole.isEmpty then .error .jsonDecodeError
  else
    let (fraction, rest) := scanFraction rest
    let (exponent, rest) := scanExponent rest
    if fraction.isEmpty && exponent.isNone then
      if (whole.drop maxStrDigits).isEmpty then
        let n : ℤ := natOfDigits whole
        .ok (.int (if negative then -n else n), rest)
      else .error .intTooLong
    else
      .ok (.float (PyFloat.ofDecimal negative (natOfDigits (whole ++ fraction))
        (exponent.getD 0 - fraction.length)), rest)

/-- Read the rest of a keyword, or fail. -/
def scanKeyword (word : PyStr) (value : Json) (s : PyStr) : Scan Json :=
  if word.isPrefixOf s then .ok (value, s.drop word.length) else .error .jsonDecodeError

/-- One value, given how to read the inside of an array and of an object. -/
def scanValue (array object : PyStr → Scan Json) (s : PyStr) : Scan Json :=
  match s with
  | 0x22 :: rest => (scanString rest).map (fun r => (.str r.1, r.2))
  | 0x7B :: rest => object rest
  | 0x5B :: rest => array rest
  | 0x6E :: _ => scanKeyword (py "null") .null s
  | 0x74 :: _ => scanKeyword (py "true") (.bool true) s
  | 0x66 :: _ => scanKeyword (py "false") (.bool false) s
  | 0x4E :: _ => scanKeyword (py "NaN") (.float .nan) s
  | 0x49 :: _ => scanKeyword (py "Infinity") (.float (.inf false)) s
  | 0x2D :: 0x49 :: _ => scanKeyword (py "-Infinity") (.float (.inf true)) s
  | 0x2D :: rest => scanUnsigned true rest
  | s => scanUnsigned false s

/-- The items of a nonempty array, up to and including the closing bracket. -/
def scanItems (value : PyStr → Scan Json) :
    ℕ → PyStr → Except LoadsError (List Json × PyStr)
  | 0, _ => .error .jsonDecodeError
  | n + 1, s => do
    let (item, rest) ← value s
    match skipWs rest with
    | 0x5D :: rest => return ([item], rest)
    | 0x2C :: rest =>
      let (items, rest) ← scanItems value n (skipWs rest)
      return (item :: items, rest)
    | _ => .error .jsonDecodeError

/-- The members of a nonempty object, up to and including the closing brace. -/
def scanMembers (value : PyStr → Scan Json) :
    ℕ → PyStr → Except LoadsError (List (PyStr × Json) × PyStr)
  | 0, _ => .error .jsonDecodeError
  | n + 1, s =>
    match s with
    | 0x22 :: s => do
      let (key, rest) ← scanString s
      match skipWs rest with
      | 0x3A :: rest =>
        let (item, rest) ← value (skipWs rest)
        match skipWs rest with
        | 0x7D :: rest => return ([(key, item)], rest)
        | 0x2C :: rest =>
          let (members, rest) ← scanMembers value n (skipWs rest)
          return ((key, item) :: members, rest)
        | _ => .error .jsonDecodeError
      | _ => .error .jsonDecodeError
    | _ => .error .jsonDecodeError

/-- The inside of an array. -/
def scanArray (value : PyStr → Scan Json) (s : PyStr) : Scan Json :=
  match skipWs s with
  | 0x5D :: rest => .ok (.arr [], rest)
  | s => (scanItems value s.length s).map (fun r => (.arr r.1, r.2))

/-- The inside of an object. -/
def scanObject (value : PyStr → Scan Json) (s : PyStr) : Scan Json :=
  match skipWs s with
  | 0x7D :: rest => .ok (.obj [], rest)
  | s => (scanMembers value s.length s).map (fun r => (.obj (dictOfPairs r.1), r.2))

/-- One value nested at most `depth` levels deep. -/
def scanOnce : ℕ → PyStr → Scan Json
  | 0 => scanValue (fun _ => .error .recursionError) (fun _ => .error .recursionError)
  | depth + 1 => scanValue (scanArray (scanOnce depth)) (scanObject (scanOnce depth))

/-- The text of a document without a byte order mark: the zeros among its first bytes tell its
encoding. -/
def decodeUnmarked (bs : Bytes) : Option PyStr :=
  match bs with
  | a :: b :: c :: d :: _ =>
    if a = 0 then
      if b = 0 then utf32SurrogatePass .big bs else utf16SurrogatePass .big bs
    else if b = 0 then
      if c = 0 ∧ d = 0 then utf32SurrogatePass .little bs else utf16SurrogatePass .little bs
    else utf8SurrogatePass bs
  | [a, b] =>
    if a = 0 then utf16SurrogatePass .big bs
    else if b = 0 then utf16SurrogatePass .little bs
    else utf8SurrogatePass bs
  | _ => utf8SurrogatePass bs

/-- The text of a JSON document: `json.detect_encoding`, then the decoder it names. -/
def decodeDocument (bs : Bytes) : Option PyStr :=
  if [0x00, 0x00, 0xFE, 0xFF].isPrefixOf bs then utf32SurrogatePass .big (bs.drop 4)
  else if [0xFF, 0xFE, 0x00, 0x00].isPrefixOf bs then utf32SurrogatePass .little (bs.drop 4)
  else if [0xFE, 0xFF].isPrefixOf bs then utf16SurrogatePass .big (bs.drop 2)
  else if [0xFF, 0xFE].isPrefixOf bs then utf16SurrogatePass .little (bs.drop 2)
  else if [0xEF, 0xBB, 0xBF].isPrefixOf bs then utf8SurrogatePass (bs.drop 3)
  else decodeUnmarked bs

/-- `json.loads` on bytes, under the interpreter's recursion limit. -/
def loads (recursionLimit : ℕ) (bs : Bytes) : Except LoadsError Json :=
  match decodeDocument bs with
  | none => .error .unicodeDecodeError
  | some s => do
    let (value, rest) ← scanOnce recursionLimit (skipWs s)
    if (skipWs rest).isEmpty then return value else .error .jsonDecodeError

/-- `json.loads` on a string; a byte order mark is an error there. -/
def loadsStr (recursionLimit : ℕ) (s : PyStr) : Except LoadsError Json :=
  if s.head? = some 0xFEFF then .error .jsonDecodeError
  else do
    let (value, rest) ← scanOnce recursionLimit (skipWs s)
    if (skipWs rest).isEmpty then return value else .error .jsonDecodeError

/-! ## Writing -/

/-- A hexadecimal digit, lower case. -/
def hexDigit (n : ℕ) : Char := Nat.digitChar n

/-- A `\u` escape of one sixteen-bit unit. -/
def unitEscape (u : ℕ) : Text :=
  ['\\', 'u', hexDigit (u / 4096 % 16), hexDigit (u / 256 % 16), hexDigit (u / 16 % 16),
    hexDigit (u % 16)]

/-- One character of a string literal, under `ensure_ascii`. -/
def escapeCodePoint (c : ℕ) : Text :=
  if c = 0x22 then ['\\', '"']
  else if c = 0x5C then ['\\', '\\']
  else if c = 0x0A then ['\\', 'n']
  else if c = 0x0D then ['\\', 'r']
  else if c = 0x09 then ['\\', 't']
  else if c = 0x0C then ['\\', 'f']
  else if c = 0x08 then ['\\', 'b']
  else if 0x20 ≤ c ∧ c ≤ 0x7E then [Char.ofNat c]
  else if c ≤ 0xFFFF then unitEscape c
  else unitEscape (0xD800 + (c - 0x10000) / 1024) ++ unitEscape (0xDC00 + (c - 0x10000) % 1024)

/-- A string literal. -/
def dumpsStr (s : PyStr) : Text := '"' :: (s.flatMap escapeCodePoint ++ ['"'])

/-- A float, written by `float.__repr__` when it is finite. -/
def dumpsFloat (floatRepr : ℚ → Text) : PyFloat → Text
  | .finite q => floatRepr q
  | .negZero => "-0.0".toList
  | .inf false => "Infinity".toList
  | .inf true => "-Infinity".toList
  | .nan => "NaN".toList

mutual
/-- `json.dumps(value, separators=(",", ":"))`. -/
def dumps (floatRepr : ℚ → Text) : Json → Text
  | .null => "null".toList
  | .bool true => "true".toList
  | .bool false => "false".toList
  | .int n => decimalInt n
  | .float x => dumpsFloat floatRepr x
  | .str s => dumpsStr s
  | .arr items => '[' :: (joinSep [','] (dumpsItems floatRepr items) ++ [']'])
  | .obj fields => '{' :: (joinSep [','] (dumpsFields floatRepr fields) ++ ['}'])

def dumpsItems (floatRepr : ℚ → Text) : List Json → List Text
  | [] => []
  | item :: items => dumps floatRepr item :: dumpsItems floatRepr items

def dumpsFields (floatRepr : ℚ → Text) : List (PyStr × Json) → List Text
  | [] => []
  | (key, item) :: fields =>
    (dumpsStr key ++ ':' :: dumps floatRepr item) :: dumpsFields floatRepr fields
end

mutual
/-- Whether strict JSON over UTF-8 can carry the value: `json.dumps(..., ensure_ascii=False,
allow_nan=False)` followed by `.encode("utf-8")` succeeds exactly when no number is infinite
or not a number and no string holds a lone surrogate. -/
def Json.strict : Json → Bool
  | .float x => x.value?.isSome
  | .str s => s.toText?.isSome
  | .arr items => Json.strictItems items
  | .obj fields => Json.strictFields fields
  | _ => true

def Json.strictItems : List Json → Bool
  | [] => true
  | item :: items => item.strict && Json.strictItems items

def Json.strictFields : List (PyStr × Json) → Bool
  | [] => true
  | (key, item) :: fields => key.toText?.isSome && item.strict && Json.strictFields fields
end

mutual
/-- How deeply arrays and objects are nested. -/
def Json.depth : Json → ℕ
  | .arr items => Json.depthItems items + 1
  | .obj fields => Json.depthFields fields + 1
  | _ => 0

def Json.depthItems : List Json → ℕ
  | [] => 0
  | item :: items => max item.depth (Json.depthItems items)

def Json.depthFields : List (PyStr × Json) → ℕ
  | [] => 0
  | (_, item) :: fields => max item.depth (Json.depthFields fields)
end

lemma Json.depthFields_append : ∀ a b : List (PyStr × Json),
    Json.depthFields (a ++ b) = max (Json.depthFields a) (Json.depthFields b)
  | [], b => by simp [Json.depthFields]
  | (_, item) :: a, b => by
      simp only [List.cons_append, Json.depthFields, Json.depthFields_append a b, max_assoc]

lemma Json.strictFields_append : ∀ a b : List (PyStr × Json),
    Json.strictFields (a ++ b) = (Json.strictFields a && Json.strictFields b)
  | [], b => by simp [Json.strictFields]
  | (_, item) :: a, b => by
      simp only [List.cons_append, Json.strictFields, Json.strictFields_append a b,
        Bool.and_assoc]

@[simp] lemma Json.depth_text (t : Text) : (Json.text t).depth = 0 := rfl

@[simp] lemma Json.depth_lit (s : String) : (Json.lit s).depth = 0 := rfl

@[simp] lemma Json.strict_text (t : Text) : (Json.text t).strict = true := by
  simp [Json.text, Json.strict]

@[simp] lemma Json.strict_lit (s : String) : (Json.lit s).strict = true := by
  simp [Json.lit, Json.strict, PyStr.toText?_py]

end IssuesApi
