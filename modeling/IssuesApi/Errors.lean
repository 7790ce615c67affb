import IssuesApi.Lib.Outcome
import IssuesApi.Runtime

/-!
# Errors and responses (`app/errors.py`)

Every failure is rendered as one envelope
`{"error": {"code", "message", "details", "request_id"}}`.  This module has the error
classes, the responses they become, and the four exception handlers.

A handler can fail itself: `JSONResponse` encodes its content as strict JSON in UTF-8, so an
envelope that holds NaN, an infinity or a lone surrogate, or that is nested too deeply, raises
while it is being rendered.  `jsonResponse` models that, and `main.py`'s middleware decides what
the client sees then.
-/

namespace IssuesApi

/-! ## Responses -/

/-- The body of a response.  Successful bodies are the models of type `β` the route declares;
the framework serialises them. -/
inductive Body (β : Type) where
  | empty
  | model (value : β)
  | json (value : Json)
  deriving DecidableEq

/-- A response.  `Content-Length` is a function of the body and left out. -/
structure Response (β : Type) where
  status : ℕ
  headers : List (String × Text)
  body : Body β
  deriving DecidableEq

namespace Response

variable {β : Type}

/-- `response.headers.get(name)`. -/
def header (r : Response β) (name : String) : Option Text :=
  (r.headers.find? (fun h => h.1 = name)).map (·.2)

/-- `response.headers[name] = value`, the value known to be latin-1. -/
def withHeader (r : Response β) (name : String) (value : Text) : Response β :=
  { r with headers := r.headers.filter (fun h => h.1 ≠ name) ++ [(name, value)] }

@[simp] lemma withHeader_status (r : Response β) (name : String) (value : Text) :
    (r.withHeader name value).status = r.status := rfl

@[simp] lemma withHeader_body (r : Response β) (name : String) (value : Text) :
    (r.withHeader name value).body = r.body := rfl

end Response

/-! ## Exceptions -/

/-- The built-in and library exceptions that no handler of the service catches by name. -/
inductive BuiltinError where
  | typeError
  | keyError
  | attributeError
  | valueError
  | overflowError
  | unicodeDecodeError
  | unicodeEncodeError
  | jsonDecodeError
  | recursionError
  /-- `pydantic.ValidationError`, raised by a model built inside a handler. -/
  | pydanticError
  deriving DecidableEq, Repr

/-- Whether `except ValueError` catches the exception. -/
def BuiltinError.isValueError : BuiltinError → Bool
  | .valueError | .unicodeDecodeError | .unicodeEncodeError | .jsonDecodeError
  | .pydanticError => true
  | _ => false

/-- The exception `json.loads` raises. -/
def LoadsError.exception : LoadsError → BuiltinError
  | .jsonDecodeError => .jsonDecodeError
  | .unicodeDecodeError => .unicodeDecodeError
  | .intTooLong => .valueError
  | .recursionError => .recursionError

/-- The exception `int` raises on a float. -/
def IntError.exception : IntError → BuiltinError
  | .overflowError => .overflowError
  | .valueError => .valueError

/-- `AppError`: an error the service raises deliberately. -/
structure AppError where
  statusCode : ℕ
  code : String
  message : Text
  details : Json
  headers : List (String × Text)
  deriving DecidableEq

/-- The class attributes of an `AppError` subclass. -/
structure ErrorClass where
  statusCode : ℕ
  code : String

def ValidationError : ErrorClass := ⟨400, "validation_error"⟩

def UnauthorizedError : ErrorClass := ⟨401, "unauthorized"⟩

def ForbiddenError : ErrorClass := ⟨403, "forbidden"⟩

def NotFoundError : ErrorClass := ⟨404, "not_found"⟩

def RateLimitedError : ErrorClass := ⟨429, "rate_limited"⟩

def UpstreamUnavailableError : ErrorClass := ⟨503, "upstream_unavailable"⟩

/-- `Class(message, details=details, headers=headers)`. -/
def ErrorClass.new (c : ErrorClass) (message : Text) (details : Json)
    (headers : List (String × Text)) : AppError :=
  ⟨c.statusCode, c.code, message, details, headers⟩

@[simp] lemma ErrorClass.new_statusCode (c : ErrorClass) (message : Text) (details : Json)
    (headers : List (String × Text)) :
    (c.new message details headers).statusCode = c.statusCode := rfl

@[simp] lemma ErrorClass.new_code (c : ErrorClass) (message : Text) (details : Json)
    (headers : List (String × Text)) : (c.new message details headers).code = c.code := rfl

@[simp] lemma ErrorClass.new_details (c : ErrorClass) (message : Text) (details : Json)
    (headers : List (String × Text)) : (c.new message details headers).details = details := rfl

/-- One entry of `RequestValidationError.errors()`. -/
structure FieldError where
  location : List Json
  message : Text
  type : Text
  deriving DecidableEq

/-- What a handler, or the framework around it, can raise. -/
inductive PyException where
  | appError (error : AppError)
  | requestValidation (errors : List FieldError)
  | httpException (statusCode : ℕ) (detail : Text) (headers : List (String × Text))
  | builtin (error : BuiltinError)
  deriving DecidableEq

/-- Raise an uncaught exception. -/
def raiseBuiltin {α : Type} (e : BuiltinError) : Except PyException α := .error (.builtin e)

/-- A computation that raises nothing but built-in exceptions. -/
def OnlyBuiltin {α : Type} (x : Except PyException α) : Prop :=
  ∀ e, x = .error e → ∃ b, e = .builtin b

namespace OnlyBuiltin

variable {α γ : Type} {x : Except PyException α}

lemma ok (a : α) : OnlyBuiltin (.ok a) := fun _ h => by cases h

lemma raise (b : BuiltinError) : OnlyBuiltin (raiseBuiltin b : Except PyException α) :=
  fun _ h => ⟨b, (Except.error.inj h).symm⟩

lemma bind (hx : OnlyBuiltin x) {f : α → Except PyException γ} (hf : ∀ a, OnlyBuiltin (f a)) :
    OnlyBuiltin (x >>= f) := by
  intro e he
  rcases bind_eq_error.mp he with h | ⟨a, -, h⟩
  · exact hx e h
  · exact hf a e h

lemma ite {p : Prop} [Decidable p] {y : Except PyException α} (hx : p → OnlyBuiltin x)
    (hy : ¬ p → OnlyBuiltin y) : OnlyBuiltin (if p then x else y) := by
  split
  · next h => exact hx h
  · next h => exact hy h

lemma mapM {f : α → Except PyException γ} (hf : ∀ a, OnlyBuiltin (f a)) :
    ∀ as : List α, OnlyBuiltin (as.mapM f)
  | [] => by
      rw [List.mapM_nil]
      exact OnlyBuiltin.ok _
  | a :: as => by
      rw [List.mapM_cons]
      exact (hf a).bind fun _ => (OnlyBuiltin.mapM hf as).bind fun _ => OnlyBuiltin.ok _

lemma map (hx : OnlyBuiltin x) (f : α → γ) : OnlyBuiltin (x.map f) := by
  cases x with
  | ok a => exact OnlyBuiltin.ok (f a)
  | error e' =>
    intro e he
    exact hx e (congrArg Except.error (Except.error.inj he))

end OnlyBuiltin

/-! ## The envelope -/

/-- An optional string. -/
def optText : Option Text → Json
  | none => .null
  | some t => .text t

/-- `error_body`. -/
def errorBody (code : String) (message : Text) (details : Json) (requestId : Option Text) :
    Json :=
  .obj [(py "error", .obj [(py "code", .lit code), (py "message", .text message),
    (py "details", details), (py "request_id", optText requestId)])]

/-- The `code` of an error envelope. -/
def envelopeCode : Json → Option PyStr
  | .obj [(_, .obj ((_, .str code) :: _))] => some code
  | _ => none

/-- The error code a response reports. -/
def Response.errorCode {β : Type} (r : Response β) : Option PyStr :=
  match r.body with
  | .json value => envelopeCode value
  | _ => none

@[simp] lemma optText_strict (t : Option Text) : (optText t).strict = true := by
  cases t with
  | none => rfl
  | some t => exact Json.strict_text t

/-- An envelope is strict JSON exactly when its details are. -/
@[simp] lemma errorBody_strict (code : String) (message : Text) (details : Json)
    (requestId : Option Text) :
    (errorBody code message details requestId).strict = details.strict := by
  have hkeys : ∀ s : String, (PyStr.toText? (py s)).isSome = true := fun s => by
    simp [PyStr.toText?_py]
  simp [errorBody, Json.strict, Json.strictFields, hkeys]

@[simp] lemma optText_depth (t : Option Text) : (optText t).depth = 0 := by
  cases t <;> rfl

/-- The envelope nests its details two levels deep. -/
@[simp] lemma errorBody_depth (code : String) (message : Text) (details : Json)
    (requestId : Option Text) :
    (errorBody code message details requestId).depth = details.depth + 2 := by
  simp [errorBody, Json.depth, Json.depthFields]

/-- Details that fit into an envelope which can be sent. -/
def Runtime.encodableDetails (rt : Runtime) (details : Json) : Bool :=
  details.strict && details.depth + 2 ≤ rt.encodeLimit

/-- An envelope can be sent exactly when its details can. -/
@[simp] lemma encodable_errorBody (rt : Runtime) (code : String) (message : Text)
    (details : Json) (requestId : Option Text) :
    rt.encodable (errorBody code message details requestId) = rt.encodableDetails details := by
  simp [Runtime.encodable, Runtime.encodableDetails]

/-- Shallow strict details can always be sent. -/
lemma encodableDetails_of_shallow (rt : Runtime) {details : Json}
    (hs : details.strict = true) (hd : details.depth ≤ 14) :
    rt.encodableDetails details = true := by
  have := rt.encodeLimit_large
  simp only [Runtime.encodableDetails, hs, Bool.true_and, decide_eq_true_eq]
  omega

/-- Details with one flat member can always be sent. -/
lemma encodableDetails_member (rt : Runtime) (key : String) {value : Json}
    (hs : value.strict = true) (hd : value.depth = 0) :
    rt.encodableDetails (.obj [(py key, value)]) = true := by
  refine encodableDetails_of_shallow rt ?_ ?_
  · simp [Json.strict, Json.strictFields, hs]
  · simp [Json.depth, Json.depthFields, hd]

@[simp] lemma envelopeCode_errorBody (code : String) (message : Text) (details : Json)
    (requestId : Option Text) :
    envelopeCode (errorBody code message details requestId) = some (py code) := rfl

/-- The header `JSONResponse` adds. -/
def jsonContentType : String × Text := ("content-type", "application/json".toList)

/-- `JSONResponse(status_code, content, headers)`.  An unencodable string raises
`UnicodeEncodeError`, an unencodable float `ValueError` and too deep a nesting
`RecursionError`; nothing downstream tells the three apart. -/
def jsonResponse {β : Type} (rt : Runtime) (status : ℕ) (content : Json)
    (headers : List (String × Text)) : Except PyException (Response β) :=
  if rt.encodable content then .ok ⟨status, headers ++ [jsonContentType], .json content⟩
  else raiseBuiltin .valueError

/-! ## The exception handlers -/

variable {β : Type}

/-- `_app_error`. -/
def appErrorHandler (rt : Runtime) (requestId : Option Text) (e : AppError) :
    Except PyException (Response β) :=
  jsonResponse rt e.statusCode (errorBody e.code e.message e.details requestId) e.headers

/-- `_validation_error`. -/
def validationErrorHandler (rt : Runtime) (requestId : Option Text) (errors : List FieldError) :
    Except PyException (Response β) :=
  let details := errors.map fun err =>
    Json.obj [(py "location", .arr err.location), (py "message", .text err.message),
      (py "type", .text err.type)]
  jsonResponse rt 400
    (errorBody "validation_error" "Request payload or query parameters are invalid.".toList
      (.arr details) requestId) []

/-- The code `_http_error` reports for a status. -/
def httpErrorCode (statusCode : ℕ) : String :=
  if statusCode = 401 then "unauthorized"
  else if statusCode = 403 then "forbidden"
  else if statusCode = 404 then "not_found"
  else if statusCode = 405 then "method_not_allowed"
  else "http_error"

/-- `_http_error`. -/
def httpErrorHandler (rt : Runtime) (requestId : Option Text) (statusCode : ℕ) (detail : Text)
    (headers : List (String × Text)) : Except PyException (Response β) :=
  jsonResponse rt statusCode (errorBody (httpErrorCode statusCode) detail .null requestId) headers

/-- `_unhandled`.  Its envelope holds nothing that could fail to be encoded. -/
def unhandledHandler (requestId : Option Text) : Response β :=
  ⟨500, [jsonContentType],
    .json (errorBody "internal_error" "An unexpected error occurred.".toList .null requestId)⟩

/-- The two outcomes of rendering an `AppError`. -/
lemma appErrorHandler_eq (rt : Runtime) (requestId : Option Text) (e : AppError) :
    (appErrorHandler rt requestId e : Except PyException (Response β)) =
      if rt.encodableDetails e.details then
        .ok ⟨e.statusCode, e.headers ++ [jsonContentType],
          .json (errorBody e.code e.message e.details requestId)⟩
      else raiseBuiltin .valueError := by
  simp [appErrorHandler, jsonResponse]

end IssuesApi
