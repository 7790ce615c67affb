import IssuesApi.Errors

/-!
# The application stack (`app/main.py`, `app/logging.py`)

Starlette runs the handler registered for `Exception` in its outermost error middleware,
outside the middleware the application adds, and all other exception handlers inside it.
So a request goes through, from the outside in: the error middleware, the request-context
middleware, the exception middleware, the route.
-/

namespace IssuesApi

variable {β : Type}

/-- `X-Request-ID`. -/
def requestIdHeader : String := "X-Request-ID"

/-- The request id: the client's own when it sent one, else a fresh `uuid4`. -/
def requestIdOf (supplied : Option Text) (uuid : Text) : Text :=
  match supplied with
  | some id => if id ≠ [] then id else uuid
  | none => uuid

/-- Starlette's `ExceptionMiddleware` with the handlers of `register_exception_handlers`. -/
def exceptionMiddleware (rt : Runtime) (requestId : Option Text) :
    Except PyException (Response β) → Except PyException (Response β)
  | .ok r => .ok r
  | .error (.appError e) => appErrorHandler rt requestId e
  | .error (.requestValidation errors) => validationErrorHandler rt requestId errors
  | .error (.httpException statusCode detail headers) =>
    httpErrorHandler rt requestId statusCode detail headers
  | .error (.builtin e) => .error (.builtin e)

/-- The path of a request's URL, from which the middleware logs it.  Starlette builds the URL from
the `Host` header, the path and the query; it is absent here when the query is no UTF-8. -/
def urlPath (checks : NetlocChecks) (url : Option Text) : Option Text :=
  (url >>= urlsplit checks).map (·.path)

/-- `request_context_middleware` from its `try` on: the id goes on the response, unless the call
raised. -/
def echoRequestId (requestId : Text) :
    Except PyException (Response β) → Except PyException (Response β)
  | .ok r => .ok (r.withHeader requestIdHeader requestId)
  | .error e => .error e

/-- `request_context_middleware`.  `request.url.path` raises before there is a `try`, and before
the id is stored. -/
def requestContextMiddleware (checks : NetlocChecks) (url : Option Text) (requestId : Text)
    (callNext : Except PyException (Response β)) : Except PyException (Response β) :=
  match urlPath checks url with
  | none => raiseBuiltin .valueError
  | some _ => echoRequestId requestId callNext

/-- `request.state.request_id`, as the exception handlers find it. -/
def storedRequestId (checks : NetlocChecks) (url : Option Text) (requestId : Text) :
    Option Text := (urlPath checks url).map fun _ => requestId

/-- Starlette's `ServerErrorMiddleware` with `_unhandled`. -/
def serverErrorMiddleware (requestId : Option Text) :
    Except PyException (Response β) → Response β
  | .ok r => r
  | .error _ => unhandledHandler requestId

/-- The response the client receives for what a route returned or raised. -/
def respondTo (rt : Runtime) (url : Option Text) (requestId : Text)
    (outcome : Except PyException (Response β)) : Response β :=
  serverErrorMiddleware (storedRequestId rt.netloc url requestId)
    (requestContextMiddleware rt.netloc url requestId
      (exceptionMiddleware rt (some requestId) outcome))

/-- The response to a request whose URL can be split, as that of any ordinary client. -/
def respond (rt : Runtime) (requestId : Text) (outcome : Except PyException (Response β)) :
    Response β :=
  serverErrorMiddleware (some requestId)
    (echoRequestId requestId (exceptionMiddleware rt (some requestId) outcome))

lemma respondTo_of_split {rt : Runtime} {url : Option Text} {path : Text}
    (h : urlPath rt.netloc url = some path) (requestId : Text)
    (outcome : Except PyException (Response β)) :
    respondTo rt url requestId outcome = respond rt requestId outcome := by
  simp only [respondTo, storedRequestId, requestContextMiddleware, h]
  rfl

/-- Any other request is answered with an internal error that does not know its id. -/
lemma respondTo_of_not_split {rt : Runtime} {url : Option Text}
    (h : urlPath rt.netloc url = none) (requestId : Text)
    (outcome : Except PyException (Response β)) :
    respondTo rt url requestId outcome = unhandledHandler none := by
  simp only [respondTo, storedRequestId, requestContextMiddleware, h]
  rfl

@[simp] lemma respond_ok (rt : Runtime) (requestId : Text) (r : Response β) :
    respond rt requestId (.ok r) = r.withHeader requestIdHeader requestId := rfl

@[simp] lemma respond_builtin (rt : Runtime) (requestId : Text) (e : BuiltinError) :
    respond rt requestId (.error (.builtin e) : Except PyException (Response β)) =
      unhandledHandler (some requestId) := rfl

/-- An `AppError` whose details can be encoded reaches the client as its own status and
envelope. -/
lemma respond_appError (rt : Runtime) (requestId : Text) {e : AppError}
    (h : rt.encodableDetails e.details = true) :
    respond rt requestId (.error (.appError e) : Except PyException (Response β)) =
      (⟨e.statusCode, e.headers ++ [jsonContentType],
        .json (errorBody e.code e.message e.details (some requestId))⟩ : Response β).withHeader
          requestIdHeader requestId := by
  simp only [respond, exceptionMiddleware, appErrorHandler_eq, h, if_true]
  rfl

/-- An `AppError` whose details cannot be encoded becomes an internal error. -/
lemma respond_appError_of_not_encodable (rt : Runtime) (requestId : Text) {e : AppError}
    (h : rt.encodableDetails e.details = false) :
    respond rt requestId (.error (.appError e) : Except PyException (Response β)) =
      unhandledHandler (some requestId) := by
  simp only [respond, exceptionMiddleware, appErrorHandler_eq, h]
  rfl

/-! Status and code of the four kinds of answer. -/

lemma respond_appError_status (rt : Runtime) (requestId : Text) {e : AppError}
    (h : rt.encodableDetails e.details = true) :
    (respond rt requestId (.error (.appError e) : Except PyException (Response β))).status =
      e.statusCode := by
  rw [respond_appError rt requestId h]
  rfl

lemma respond_appError_errorCode (rt : Runtime) (requestId : Text) {e : AppError}
    (h : rt.encodableDetails e.details = true) :
    (respond rt requestId (.error (.appError e) : Except PyException (Response β))).errorCode =
      some (py e.code) := by
  rw [respond_appError rt requestId h]
  rfl

lemma unhandledHandler_status (requestId : Option Text) :
    (unhandledHandler requestId : Response β).status = 500 := rfl

end IssuesApi
