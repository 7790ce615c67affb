import IssuesApi.Config
import IssuesApi.Runtime
import IssuesApi.Store

/-!
# A reference deployment

One concrete interpreter and one concrete configuration, at which the statements with
hypotheses are instantiated, and two deliveries.  The two Pydantic fields are the identity on the
values that occur there: an integer is read as itself, and of the timestamps only GitHub's epoch
`1970-01-01T00:00:00Z` is.
-/

namespace IssuesApi

/-- Midnight at the Unix epoch. -/
def epoch : Civil where
  year := 1970
  month := 1
  day := 1
  hour := 0
  minute := 0
  second := 0
  microsecond := 0
  year_valid := by decide
  month_valid := by decide
  day_valid := by decide
  hour_valid := by decide
  minute_valid := by decide
  second_valid := by decide
  microsecond_valid := by decide

/-- How GitHub writes `epoch`. -/
def epochText : String := "1970-01-01T00:00:00Z"

/-- An integer field on an integer. -/
def plainInt : Json → Option ℤ
  | .int n => some n
  | _ => none

/-- A datetime field on `epochText`. -/
def plainDatetime (value : Json) : Option DateTime :=
  if value = .lit epochText then some ⟨epoch, some 0⟩ else none

/-- An integer parameter written in decimal digits. -/
def plainIntParam (t : Text) : Option ℤ :=
  if t ≠ [] ∧ t.all Char.isDigit ∧ t.length ≤ maxStrDigits then
    some (Nat.ofDigitChars 10 t 0)
  else none

lemma plainIntParam_decimal (n : ℕ) (hn : (decimal n).length ≤ maxStrDigits) :
    plainIntParam (decimal n) = some n := by
  have hdigits : (decimal n).all Char.isDigit = true :=
    List.all_eq_true.mpr fun _ hc => isDigit_of_mem_decimal hc
  rw [plainIntParam, if_pos ⟨decimal_ne_nil n, hdigits, hn⟩]
  exact congrArg (fun m : ℕ => some (m : ℤ)) (Nat.ofDigitChars_toDigits (by omega) (by omega))

lemma plainIntParam_of_large {n : ℕ} (hn : 10 ^ maxStrDigits ≤ n) :
    plainIntParam (decimal n) = none := by
  refine if_neg fun hread => ?_
  have hsmall := (Nat.length_toDigits_le_iff (by decide) (by decide)).mp hread.2.2
  exact absurd hsmall (Nat.not_lt.mpr hn)

/-- An interpreter with CPython's default limits. -/
def Runtime.reference : Runtime where
  recursionLimit := 1000
  encodeLimit := 1000
  encodeLimit_large := by decide
  floatRepr := fun q => decimalInt q.num ++ '/' :: decimal q.den
  sendable := Json.strict
  sendable_of_strict := fun _ h _ => h
  netloc := ⟨fun _ => true, fun _ => true⟩
  intField := plainInt
  datetimeField := plainDatetime
  intParam := plainIntParam
  intParam_decimal := plainIntParam_decimal

/-- A configuration with the source's defaults. -/
def Settings.reference : Settings where
  githubToken := "token".toList
  githubOwner := "octo".toList
  githubRepo := "demo".toList
  webhookSecret := "secret".toList
  githubApiVersion := "2022-11-28".toList
  eventsMaxLimit := 200
  cacheEnabled := true
  cacheMaxEntries := 128
  cacheMaxEntries_pos := by decide

/-- The payload GitHub sends when `ada` opens issue 7. -/
def openedPayload : List (PyStr × Json) :=
  [(py "action", .lit "opened"), (py "issue", .obj [(py "number", .int 7)]),
    (py "sender", .obj [(py "login", .lit "ada")])]

/-- Its text. -/
def openedText : String :=
  "\x7b\"action\":\"opened\",\"issue\":\x7b\"number\":7\x7d,\"sender\":" ++
    "\x7b\"login\":\"ada\"\x7d\x7d"

/-- A ping without a payload, as `record` receives it. -/
def pingDelivery : Delivery := ⟨['1'], ⟨"ping".toList, none, none, none, none⟩, []⟩

/-- The opened issue, as `record` receives it. -/
def openedDelivery : Delivery :=
  ⟨['2'], ⟨"issues".toList, some (py "opened"), some 7, none, some (py "ada")⟩, openedPayload⟩

end IssuesApi
