import IssuesApi.Lib.Json
import IssuesApi.Lib.Url
import IssuesApi.Lib.DateTime

/-!
# What the service runs on

The behaviour of the interpreter and of third-party packages that the sources do not
contain, as one record the model takes as a parameter.  Everything the theorems use of it is
either a field below or a law stated with the field.
-/

namespace IssuesApi

/-- The interpreter and the packages underneath the service. -/
structure Runtime where
  /-- How deeply `json.loads` may nest before it raises `RecursionError`. -/
  recursionLimit : ℕ
  /-- How deeply `json.dumps` may nest before it raises `RecursionError`. -/
  encodeLimit : ℕ
  /-- There is room for the envelopes the service builds itself. -/
  encodeLimit_large : 16 ≤ encodeLimit
  /-- `float.__repr__` on finite floats. -/
  floatRepr : ℚ → Text
  /-- Whether httpx can encode a value as the JSON body of a call.  Its versions differ on lone
  surrogates: they are escaped by some and raise `UnicodeEncodeError` in others. -/
  sendable : Json → Bool
  /-- What strict JSON can carry is sent by all of them. -/
  sendable_of_strict : ∀ value : Json, value.strict = true → value.depth ≤ encodeLimit →
    sendable value = true
  /-- The two tests `urlsplit` delegates. -/
  netloc : NetlocChecks
  /-- Pydantic's `int` field, on a JSON value. -/
  intField : Json → Option ℤ
  /-- Pydantic's `datetime` field, on a JSON value. -/
  datetimeField : Json → Option DateTime
  /-- Pydantic's `int` parameter, on the text of a path segment or a query value. -/
  intParam : Text → Option ℤ
  /-- A decimal numeral is read as its number, unless it is longer than `int()` reads. -/
  intParam_decimal : ∀ n : ℕ, (decimal n).length ≤ maxStrDigits → intParam (decimal n) = some n

/-- `json.loads` on bytes. -/
def Runtime.loads (rt : Runtime) (bs : Bytes) : Except LoadsError Json :=
  IssuesApi.loads rt.recursionLimit bs

/-- Reading an empty body fails. -/
lemma Runtime.loads_nil (rt : Runtime) : rt.loads [] = .error .jsonDecodeError := by
  unfold Runtime.loads IssuesApi.loads
  cases rt.recursionLimit <;> rfl

/-- A successful reading, from one that can be computed. -/
lemma Runtime.loads_of_toOption {rt : Runtime} {content : Bytes} {value : Json}
    (h : (rt.loads content).toOption = some value) : rt.loads content = .ok value := by
  cases hloads : rt.loads content with
  | error e =>
    rw [hloads] at h
    cases h
  | ok v =>
    rw [hloads] at h
    exact congrArg Except.ok (Option.some.inj h)

/-- `json.dumps(value, separators=(",", ":"))`; `none` is a `RecursionError`. -/
def Runtime.dumps (rt : Runtime) (value : Json) : Option Text :=
  if value.depth ≤ rt.encodeLimit then some (IssuesApi.dumps rt.floatRepr value) else none

/-- Whether `JSONResponse` can encode a value. -/
def Runtime.encodable (rt : Runtime) (value : Json) : Bool :=
  value.strict && value.depth ≤ rt.encodeLimit

end IssuesApi
