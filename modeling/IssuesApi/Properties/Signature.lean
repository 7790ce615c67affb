import IssuesApi.Reference
import IssuesApi.Routers.Webhooks

/-!
# Signature verification

What `verify_signature` decides, and what an unauthenticated caller of `/webhook` can observe.

`hmac.compare_digest` raises `TypeError` on a non-ASCII string, and nothing between it and the
header catches that: `decidesSignature_iff` says that verification is exact on the ASCII
headers and on no others.  Among the ASCII headers every failure reports the same message, but
the envelope's details still tell an absent header from a wrong one:
`postWebhook_rejected_eq_iff` says that this is the one thing a caller learns.
-/

namespace IssuesApi

/-! ## Verification -/

/-- The message of every failed verification. -/
def signatureMessage : Text := "Missing or invalid webhook signature.".toList

/-- Verification decides whether the header is the signature of the body: it returns exactly
then, and otherwise raises the one `UnauthorizedError`. -/
def DecidesSignature (hmac : Hmac) (secret : Text) (body : Bytes) (header : Option Text) :
    Prop :=
  (verifySignature hmac secret body header = .ok () ↔
      header = some (computeSignature hmac secret body)) ∧
    (header ≠ some (computeSignature hmac secret body) →
      ∃ e, verifySignature hmac secret body header = .error (.appError e) ∧
        e.statusCode = 401 ∧ e.code = "unauthorized" ∧ e.message = signatureMessage)

/-- What makes a header fail, as the details report it. -/
def rejectionReason (header : Option Text) : String :=
  match nonempty header with
  | none => "signature_header_absent"
  | some _ => "signature_mismatch"

/-- On ASCII headers verification either succeeds or raises its own error. -/
lemma verifySignature_of_ascii {hmac : Hmac} {secret : Text} {body : Bytes}
    {header : Option Text} (ha : ∀ t ∈ header, isAscii t = true)
    (hne : header ≠ some (computeSignature hmac secret body)) :
    verifySignature hmac secret body header =
      .error (.appError (signatureError (rejectionReason header))) := by
  match header with
  | none => rfl
  | some [] => rfl
  | some (c :: t) =>
    rw [verifySignature_some hmac secret body (List.cons_ne_nil c t), if_pos (ha _ rfl),
      if_neg fun h => hne (congrArg some h)]
    rfl

/-- A header outside ASCII is never rejected, it makes verification fail itself. -/
lemma verifySignature_of_not_ascii {hmac : Hmac} {secret : Text} {body : Bytes} {t : Text}
    (ha : isAscii t = false) :
    verifySignature hmac secret body (some t) = raiseBuiltin .typeError := by
  have hne : t ≠ [] := by
    rintro rfl
    simp [isAscii] at ha
  rw [verifySignature_some hmac secret body hne, if_neg (by simp [ha])]

/-- **Verification is exact on ASCII headers only.** -/
theorem decidesSignature_iff (hmac : Hmac) (secret : Text) (body : Bytes)
    (header : Option Text) :
    DecidesSignature hmac secret body header ↔ ∀ t ∈ header, isAscii t = true := by
  constructor
  · rintro ⟨-, h⟩ t rfl
    by_contra ha
    have hraise : verifySignature hmac secret body (some t) = raiseBuiltin .typeError :=
      verifySignature_of_not_ascii (by simpa using ha)
    have hne : some t ≠ some (computeSignature hmac secret body) := by
      rintro ⟨rfl⟩
      exact ha (isAscii_computeSignature hmac secret body)
    obtain ⟨e, he, -⟩ := h hne
    rw [hraise] at he
    cases he
  · intro ha
    refine ⟨⟨eq_computeSignature_of_verifySignature, ?_⟩, fun hne => ?_⟩
    · rintro rfl
      exact verifySignature_computeSignature hmac secret body
    · exact ⟨_, verifySignature_of_ascii ha hne, rfl, rfl, rfl⟩

/-- The header `sha256=é` is answered by a `TypeError`. -/
theorem not_decidesSignature :
    (∀ c ∈ "sha256=é".toList, c.toNat < 256) ∧
      verifySignature (fun _ _ => []) "secret".toList [] (some "sha256=é".toList) =
        raiseBuiltin .typeError ∧
      ¬ DecidesSignature (fun _ _ => []) "secret".toList [] (some "sha256=é".toList) := by
  have hraise : verifySignature (fun _ _ => []) "secret".toList [] (some "sha256=é".toList) =
      raiseBuiltin .typeError := by decide
  refine ⟨by decide, hraise, fun h => ?_⟩
  obtain ⟨e, he, -⟩ := h.2 (by decide)
  rw [hraise] at he
  cases he

/-! ## What a rejected caller sees -/

/-- The header is absent or ASCII, and it is not the signature of the body. -/
structure Rejected (hmac : Hmac) (secret : Text) (req : WebhookRequest) : Prop where
  ascii : ∀ t ∈ req.signature, isAscii t = true
  fails : verifySignature hmac secret req.body req.signature ≠ .ok ()

/-- The answer to a rejected request: it depends on the request id and on the reason. -/
def rejection (rt : Runtime) (requestId : Text) (reason : String) : WebhookResponse :=
  respond rt requestId (.error (.appError (signatureError reason)))

lemma signatureError_encodable (rt : Runtime) (reason : String) :
    rt.encodableDetails (signatureError reason).details = true :=
  encodableDetails_member rt "reason" (Json.strict_lit reason) rfl

/-- A rejected request gets its rejection, whatever else it and the store hold, and leaves
the store alone. -/
lemma postWebhook_of_rejected {hmac : Hmac} {settings : Settings} {req : WebhookRequest}
    (h : Rejected hmac settings.webhookSecret req) (rt : Runtime) (now : Civil)
    (requestId : Text) (db : Database) :
    postWebhook hmac rt settings now requestId req db =
      (rejection rt requestId (rejectionReason req.signature), db) := by
  have hne : req.signature ≠ some (computeSignature hmac settings.webhookSecret req.body) := by
    intro hs
    apply h.fails
    rw [hs]
    exact verifySignature_computeSignature hmac settings.webhookSecret req.body
  have hdel : verifiedDelivery hmac rt settings.webhookSecret req =
      .error (.appError (signatureError (rejectionReason req.signature))) := by
    rw [verifiedDelivery, verifySignature_of_ascii h.ascii hne, error_bind]
  simp only [postWebhook, receiveWebhook, hdel]
  rfl

/-- Two rejections are the same answer only for the same reason. -/
lemma rejection_injective {rt : Runtime} {requestId : Text} {r s : String}
    (h : rejection rt requestId r = rejection rt requestId s) : r = s := by
  simp only [rejection, respond_appError rt requestId (signatureError_encodable rt _)] at h
  have hbody := congrArg Response.body h
  simp only [Response.withHeader_body, signatureError, errorBody, ErrorClass.new, Body.json.injEq,
    Json.obj.injEq, List.cons.injEq, Prod.mk.injEq, Json.lit, Json.str.injEq, true_and,
    and_true] at hbody
  -- the code points of a string determine it
  exact String.toList_injective (List.map_injective_iff.mpr (fun _ _ => Char.toNat_inj.mp) hbody)

lemma rejectionReason_eq_iff {s t : Option Text} :
    rejectionReason s = rejectionReason t ↔ (nonempty s = none ↔ nonempty t = none) := by
  unfold rejectionReason
  cases nonempty s <;> cases nonempty t <;> simp

/-- **Rejections differ exactly by the presence of a signature.**  Two rejected requests with
the same request id get the same answer, whatever their bodies, event and delivery headers,
and whatever the secrets, the clocks and the stores, if and only if both or neither carry a
nonempty signature header. -/
theorem postWebhook_rejected_eq_iff {hmac : Hmac} {settings₁ settings₂ : Settings}
    {req₁ req₂ : WebhookRequest} (h₁ : Rejected hmac settings₁.webhookSecret req₁)
    (h₂ : Rejected hmac settings₂.webhookSecret req₂) (rt : Runtime) (now₁ now₂ : Civil)
    (requestId : Text) (db₁ db₂ : Database) :
    (postWebhook hmac rt settings₁ now₁ requestId req₁ db₁).1 =
        (postWebhook hmac rt settings₂ now₂ requestId req₂ db₂).1 ↔
      (nonempty req₁.signature = none ↔ nonempty req₂.signature = none) := by
  rw [postWebhook_of_rejected h₁, postWebhook_of_rejected h₂, ← rejectionReason_eq_iff]
  exact ⟨rejection_injective, fun h => congrArg (rejection rt requestId) h⟩

/-- A delivery without a signature. -/
def unsignedRequest : WebhookRequest := ⟨[], none, none, none⟩

/-- A delivery with a forged signature. -/
def forgedRequest : WebhookRequest := ⟨[], some "sha256=00".toList, none, none⟩

lemma rejected_unsignedRequest : Rejected (fun _ _ => []) "secret".toList unsignedRequest :=
  ⟨by decide, by decide⟩

lemma rejected_forgedRequest : Rejected (fun _ _ => []) "secret".toList forgedRequest :=
  ⟨by decide, by decide⟩

/-- The answers to the two requests, under one id. -/
theorem postWebhook_rejected_eq_iff_reference :
    Rejected (fun _ _ => []) "secret".toList unsignedRequest ∧
      Rejected (fun _ _ => []) "secret".toList forgedRequest ∧
      ((postWebhook (fun _ _ => []) .reference .reference epoch ['1'] unsignedRequest .empty).1 =
          (postWebhook (fun _ _ => []) .reference .reference epoch ['1'] forgedRequest .empty).1 ↔
        (nonempty unsignedRequest.signature = none ↔ nonempty forgedRequest.signature = none)) :=
  ⟨rejected_unsignedRequest, rejected_forgedRequest,
    @postWebhook_rejected_eq_iff _ .reference .reference _ _ rejected_unsignedRequest
      rejected_forgedRequest .reference epoch epoch ['1'] .empty .empty⟩

/-- An absent and a forged signature are told apart. -/
theorem rejections_differ :
    Rejected (fun _ _ => []) "secret".toList unsignedRequest ∧
      Rejected (fun _ _ => []) "secret".toList forgedRequest ∧
      (postWebhook (fun _ _ => []) .reference .reference epoch ['1'] unsignedRequest .empty).1 ≠
        (postWebhook (fun _ _ => []) .reference .reference epoch ['1'] forgedRequest .empty).1 := by
  refine ⟨rejected_unsignedRequest, rejected_forgedRequest, fun h => ?_⟩
  rw [postWebhook_of_rejected rejected_unsignedRequest,
    postWebhook_of_rejected rejected_forgedRequest] at h
  dsimp only at h
  have hreason : rejectionReason unsignedRequest.signature =
      rejectionReason forgedRequest.signature := rejection_injective h
  exact absurd hreason (by decide)

end IssuesApi
