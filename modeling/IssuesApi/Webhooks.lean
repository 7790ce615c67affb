import IssuesApi.Errors

/-!
# Webhook verification and summaries (`app/webhooks.py`)

HMAC-SHA256 is an arbitrary function of the key and the message: nothing below depends on
which one.  `hmac.compare_digest` is partial on strings, and that matters, because its second
argument is a header an unauthenticated caller chose.

Header values are `Text`; the HTTP layer decodes them as latin-1.
-/

namespace IssuesApi

/-- HMAC-SHA256, from key and message to digest. -/
abbrev Hmac := Bytes → Bytes → Bytes

def eventHeader : String := "X-GitHub-Event"

def deliveryHeader : String := "X-GitHub-Delivery"

def signaturePrefix : String := "sha256="

/-- `SUPPORTED_EVENTS`, sorted. -/
def supportedEvents : List String := ["issue_comment", "issues", "ping"]

/-- `ACTION_REQUIRED_EVENTS`. -/
def actionRequiredEvents : List String := ["issue_comment", "issues"]

/-- `event in events`. -/
def memberOf (event : Text) (events : List String) : Bool :=
  events.any (fun e => e.toList = event)

/-! ## Signatures -/

/-- `bytes.hex()`. -/
def hexdigest (digest : Bytes) : Text :=
  digest.flatMap fun b => [hexDigit (b.toNat / 16), hexDigit (b.toNat % 16)]

/-- `compute_signature`. -/
def computeSignature (hmac : Hmac) (secret : Text) (body : Bytes) : Text :=
  signaturePrefix.toList ++ hexdigest (hmac (utf8Encode secret) body)

/-- `hmac.compare_digest` on two strings. -/
def compareDigest (a b : Text) : Except PyException Bool :=
  if isAscii a && isAscii b then .ok (a = b) else raiseBuiltin .typeError

/-- The error of a failed verification. -/
def signatureError (reason : String) : AppError :=
  UnauthorizedError.new "Missing or invalid webhook signature.".toList
    (.obj [(py "reason", .lit reason)]) []

/-- `verify_signature`. -/
def verifySignature (hmac : Hmac) (secret : Text) (body : Bytes) (headerValue : Option Text) :
    Except PyException Unit :=
  match headerValue with
  | none | some [] => .error (.appError (signatureError "signature_header_absent"))
  | some (c :: t) => do
    if ← compareDigest (computeSignature hmac secret body) (c :: t) then return ()
    else .error (.appError (signatureError "signature_mismatch"))

lemma isAscii_append {s t : Text} : isAscii (s ++ t) = (isAscii s && isAscii t) := by
  simp [isAscii]

/-- The digits of a hexadecimal digest are ASCII. -/
lemma isAscii_hexDigit {n : ℕ} (h : n < 16) : (hexDigit n).toNat < 128 := by
  have : ∀ m : Fin 16, (hexDigit m).toNat < 128 := by decide
  exact this ⟨n, h⟩

lemma isAscii_hexdigest (digest : Bytes) : isAscii (hexdigest digest) = true := by
  rw [isAscii, List.all_eq_true]
  intro c hc
  obtain ⟨b, -, hb⟩ := List.mem_flatMap.mp hc
  have hlt : b.toNat < 256 := b.toNat_lt
  rcases List.mem_cons.mp hb with rfl | hb
  · simpa using isAscii_hexDigit (n := b.toNat / 16) (by omega)
  · obtain rfl := List.mem_singleton.mp hb
    simpa using isAscii_hexDigit (n := b.toNat % 16) (by omega)

/-- A signature is ASCII, whatever the HMAC. -/
lemma isAscii_computeSignature (hmac : Hmac) (secret : Text) (body : Bytes) :
    isAscii (computeSignature hmac secret body) = true := by
  rw [computeSignature, isAscii_append, isAscii_hexdigest]
  decide

lemma computeSignature_ne_nil (hmac : Hmac) (secret : Text) (body : Bytes) :
    computeSignature hmac secret body ≠ [] := by
  simp [computeSignature, signaturePrefix]

/-- What `verify_signature` does on a present header. -/
lemma verifySignature_some (hmac : Hmac) (secret : Text) (body : Bytes) {header : Text}
    (hne : header ≠ []) :
    verifySignature hmac secret body (some header) =
      if isAscii header = true then
        if header = computeSignature hmac secret body then .ok ()
        else .error (.appError (signatureError "signature_mismatch"))
      else raiseBuiltin .typeError := by
  obtain ⟨c, t, rfl⟩ := List.exists_cons_of_ne_nil hne
  simp only [verifySignature, compareDigest, isAscii_computeSignature, Bool.true_and]
  by_cases ha : isAscii (c :: t) = true
  · by_cases hs : c :: t = computeSignature hmac secret body
    · simp only [hs, if_true, isAscii_computeSignature]
      rfl
    · simp only [ha, if_true, if_neg hs, decide_eq_false (Ne.symm hs)]
      rfl
  · simp only [ha]
    rfl

/-- A correct signature is accepted. -/
lemma verifySignature_computeSignature (hmac : Hmac) (secret : Text) (body : Bytes) :
    verifySignature hmac secret body (some (computeSignature hmac secret body)) = .ok () := by
  rw [verifySignature_some hmac secret body (computeSignature_ne_nil hmac secret body),
    if_pos (isAscii_computeSignature hmac secret body), if_pos rfl]

/-- Nothing else is. -/
lemma eq_computeSignature_of_verifySignature {hmac : Hmac} {secret : Text} {body : Bytes}
    {header : Option Text} (h : verifySignature hmac secret body header = .ok ()) :
    header = some (computeSignature hmac secret body) := by
  match header with
  | none => cases h
  | some [] => cases h
  | some (c :: t) =>
    rw [verifySignature_some hmac secret body (List.cons_ne_nil c t)] at h
    split_ifs at h with ha hs
    · rw [hs]
    · cases h

/-! ## Events and summaries -/

/-- `validate_event`. -/
def validateEvent (event : Option Text) : Except PyException Text :=
  match event with
  | none | some [] =>
    .error (.appError (ValidationError.new
      ("Missing ".toList ++ eventHeader.toList ++ " header.".toList)
      (.obj [(py "reason", .lit "event_header_absent")]) []))
  | some event =>
    if memberOf event supportedEvents then .ok event
    else
      .error (.appError (ValidationError.new
        ("Unsupported webhook event '".toList ++ event ++ "'.".toList)
        (.obj [(py "event", .text event), (py "supported", .arr (supportedEvents.map .lit))])
        []))

/-- `WebhookSummary`. -/
structure WebhookSummary where
  event : Text
  action : Option PyStr
  issueNumber : Option ℤ
  commentId : Option ℤ
  sender : Option PyStr
  deriving DecidableEq

/-- `value if isinstance(value, str) else None`. -/
def asStr : Option Json → Option PyStr
  | some (.str s) => some s
  | _ => none

/-- `value if isinstance(value, int) else None`: a `bool` is the `int` it equals. -/
def asInt : Option Json → Option ℤ
  | some (.int n) => some n
  | some (.bool b) => some (if b then 1 else 0)
  | _ => none

/-- `value.get(key) if isinstance(value, dict) else None`. -/
def getIfDict (value : Option Json) (key : String) : Option Json :=
  match value with
  | some (.obj fields) => dictGet fields key
  | _ => none

/-- The summary `summarize` builds once the action has been checked. -/
def summaryOf (event : Text) (payload : List (PyStr × Json)) : WebhookSummary where
  event := event
  action := asStr (dictGet payload "action")
  issueNumber := asInt (getIfDict (dictGet payload "issue") "number")
  commentId := asInt (getIfDict (dictGet payload "comment") "id")
  sender := asStr (getIfDict (dictGet payload "sender") "login")

/-- Whether the payload lacks the action its event requires. -/
def actionMissing (event : Text) (payload : List (PyStr × Json)) : Bool :=
  memberOf event actionRequiredEvents && (asStr (dictGet payload "action")).isNone

/-- `summarize`. -/
def summarize (event : Text) (payload : List (PyStr × Json)) :
    Except PyException WebhookSummary :=
  if actionMissing event payload then
    .error (.appError (ValidationError.new
      ("Event '".toList ++ event ++ "' requires an 'action' field.".toList)
      (.obj [(py "event", .text event), (py "reason", .lit "action_missing")]) []))
  else .ok (summaryOf event payload)

/-- What `validate_event` accepts. -/
lemma validateEvent_ok_iff {header : Option Text} {event : Text} :
    validateEvent header = .ok event ↔
      header = some event ∧ memberOf event supportedEvents = true := by
  match header with
  | none => simp [validateEvent]
  | some [] =>
    simp only [validateEvent, Option.some.injEq, reduceCtorEq, false_iff, not_and]
    rintro rfl
    decide
  | some (c :: t) =>
    by_cases h : memberOf (c :: t) supportedEvents = true
    · simp only [validateEvent, h, if_true, Except.ok.injEq, Option.some.injEq]
      constructor
      · rintro rfl; exact ⟨rfl, h⟩
      · rintro ⟨rfl, -⟩; rfl
    · simp only [validateEvent, h, Option.some.injEq, reduceCtorEq, false_iff, not_and,
        Bool.false_eq_true, if_false]
      rintro rfl
      exact h

end IssuesApi
