import IssuesApi.Lib.Transition
import IssuesApi.Reference
import IssuesApi.Routers.Webhooks

/-!
# Deliveries and the store

Two results about `POST /webhook`.

`rows_verified` is about runs: starting from an empty store, every row was written by an
earlier request that was answered 204, carried the signature of its own body, named a
supported event and the row's delivery id, and whose body is the object the row's payload is
the dump of; a request answered otherwise changes nothing.

`documented_iff` is about one correctly signed request: it is answered by 204 or by 400 with
`validation_error` exactly when it is `Answerable`.  The handler catches `JSONDecodeError` and
nothing else, so a body that cannot be decoded, an integer too long to read, a nesting too
deep, and a value SQLite cannot bind all end in an internal error.
-/

namespace IssuesApi

variable {hmac : Hmac} {rt : Runtime} {settings : Settings}

/-! ## Runs -/

/-- A request to `/webhook` with its answer. -/
structure Exchange where
  now : Civil
  requestId : Text
  request : WebhookRequest
  response : WebhookResponse

/-- The store while requests are answered one after the other. -/
def webhookStep (hmac : Hmac) (rt : Runtime) (settings : Settings) (db : Database)
    (x : Exchange) (db' : Database) : Prop :=
  postWebhook hmac rt settings x.now x.requestId x.request db = (x.response, db')

/-- A request, its answer and the store after it make a step. -/
lemma webhookStep_postWebhook (hmac : Hmac) (rt : Runtime) (settings : Settings) (now : Civil)
    (requestId : Text) (req : WebhookRequest) (db : Database) :
    webhookStep hmac rt settings db
      ⟨now, requestId, req, (postWebhook hmac rt settings now requestId req db).1⟩
      (postWebhook hmac rt settings now requestId req db).2 := Prod.mk.eta.symm

/-- The row was written by this exchange. -/
structure StemsFrom (hmac : Hmac) (rt : Runtime) (secret : Text) (row : Row) (x : Exchange) :
    Prop where
  answered : x.response.status = 204
  signed : x.request.signature = some (computeSignature hmac secret x.request.body)
  event : x.request.event = some row.event
  supported : memberOf row.event supportedEvents = true
  deliveryId : x.request.deliveryId = some row.deliveryId
  payload : ∃ payload, rt.payloadOf x.request.body payload ∧
    rt.dumps (.obj payload) = some row.payload

/-- Recording a row adds at most that row. -/
lemma mem_recordRow {db : Database} {row r : Row} (h : r ∈ (db.recordRow row).2.rows) :
    r ∈ db.rows ∨ r = row := by
  rw [Database.recordRow, Database.commit_rows, Database.insertOrIgnore_rows] at h
  split at h
  · exact Or.inl h
  · simpa using h

/-- What one exchange does to the store. -/
lemma webhookStep_cases {db db' : Database} {x : Exchange}
    (h : webhookStep hmac rt settings db x db') :
    db' = db ∨ x.response.status = 204 ∧
      ∃ row, StemsFrom hmac rt settings.webhookSecret row x ∧ db' = (db.recordRow row).2 := by
  unfold webhookStep postWebhook at h
  rcases receiveWebhook_cases hmac rt settings x.now x.request db with
    ⟨e, he⟩ | ⟨d, row, hd, hrow, hok⟩
  · rw [he] at h
    exact Or.inl (congrArg Prod.snd h).symm
  · rw [hok] at h
    obtain ⟨hresponse, rfl⟩ := Prod.mk.inj h
    have hstatus : x.response.status = 204 := hresponse ▸ rfl
    obtain ⟨hsig, hev, hsup, hid, -, hpl, -, -⟩ := verifiedDelivery_ok_iff.mp hd
    have hholds := rowOf_holds hrow
    refine Or.inr ⟨hstatus, row, ?_, rfl⟩
    exact ⟨hstatus, hsig, hholds.event ▸ hev, hholds.event ▸ hsup, hholds.deliveryId ▸ hid,
      ⟨_, hpl, hholds.payload⟩⟩

/-- Every row of the store stems from an exchange of the history. -/
def RowsVerified (hmac : Hmac) (rt : Runtime) (secret : Text) (history : List Exchange)
    (db : Database) : Prop :=
  ∀ row ∈ db.rows, ∃ x ∈ history, StemsFrom hmac rt secret row x

/-- **Only verified bytes reach the store.**  In every run from an empty store, every row
stems from an earlier exchange, and an exchange answered with anything but 204 leaves the
store as it was. -/
theorem rows_verified (hmac : Hmac) (rt : Runtime) (settings : Settings)
    {history : List Exchange} {db : Database}
    (hrun : Run (webhookStep hmac rt settings) .empty history db) :
    RowsVerified hmac rt settings.webhookSecret history db ∧
      ∀ x db', webhookStep hmac rt settings db x db' → x.response.status ≠ 204 → db' = db := by
  constructor
  · refine hrun.invariant (by simp [RowsVerified, Database.empty, Database.rows]) ?_
    intro history s x t _ ih hstep row hrow
    rcases webhookStep_cases hstep with rfl | ⟨-, new, hnew, rfl⟩
    · obtain ⟨y, hy, hstem⟩ := ih row hrow
      exact ⟨y, by simp [hy], hstem⟩
    · rcases mem_recordRow hrow with hold | rfl
      · obtain ⟨y, hy, hstem⟩ := ih row hold
        exact ⟨y, by simp [hy], hstem⟩
      · exact ⟨x, by simp, hnew⟩
  · intro x db' hstep hstatus
    rcases webhookStep_cases hstep with h | ⟨h, -⟩
    · exact h
    · exact absurd h hstatus

/-- A signed ping with an empty body. -/
def pingRequest : WebhookRequest :=
  ⟨[], some (computeSignature (fun _ _ => []) "secret".toList []), some "ping".toList,
    some "1".toList⟩

/-- The exchange in which it is recorded. -/
def pingExchange : Exchange :=
  ⟨epoch, ['1'], pingRequest,
    (postWebhook (fun _ _ => []) .reference .reference epoch ['1'] pingRequest .empty).1⟩

/-- The store after it. -/
def pingStore : Database :=
  (postWebhook (fun _ _ => []) .reference .reference epoch ['1'] pingRequest .empty).2

/-- A signed delivery of an opened issue. -/
def openedRequest : WebhookRequest :=
  ⟨utf8Encode openedText.toList,
    some (computeSignature (fun _ _ => []) "secret".toList (utf8Encode openedText.toList)),
    some "issues".toList, some "2".toList⟩

/-- The exchange in which it is recorded, after the ping. -/
def openedExchange : Exchange :=
  ⟨epoch, ['2'], openedRequest,
    (postWebhook (fun _ _ => []) .reference .reference epoch ['2'] openedRequest pingStore).1⟩

/-- The store after both. -/
def openedStore : Database :=
  (postWebhook (fun _ _ => []) .reference .reference epoch ['2'] openedRequest pingStore).2

lemma openedStep : webhookStep (fun _ _ => []) .reference .reference pingStore openedExchange
    openedStore :=
  webhookStep_postWebhook _ _ _ epoch ['2'] openedRequest pingStore

/-- The run of both. -/
lemma openedRun : Run (webhookStep (fun _ _ => []) .reference .reference) .empty
    [pingExchange, openedExchange] openedStore :=
  (Run.start.next (a := pingExchange) (t := pingStore) rfl).next openedStep

/-- The store after the ping and the issue holds two rows, which stem from the two. -/
theorem rows_verified_opened :
    openedStore.rows.map Row.key = [(['1'], []), (['2'], "opened".toList)] ∧
      RowsVerified (fun _ _ => []) .reference "secret".toList [pingExchange, openedExchange]
        openedStore :=
  ⟨by decide +kernel, (rows_verified (fun _ _ => []) .reference .reference openedRun).1⟩

/-! ## One signed request -/

/-- The request GitHub sends for a body, an event and a delivery id. -/
def signedRequest (hmac : Hmac) (secret : Text) (body : Bytes) (event deliveryId : Option Text) :
    WebhookRequest :=
  ⟨body, some (computeSignature hmac secret body), event, deliveryId⟩

/-- The delivery's key is stored. -/
def Stored (rt : Runtime) (req : WebhookRequest) (db : Database) : Prop :=
  ∃ id payload action, req.deliveryId = some id ∧ rt.payloadOf req.body payload ∧
    PyStr.toText? ((asStr (dictGet payload "action")).getD []) = some action ∧
    db.has (id, action) = true

/-- The two documented answers: 204, with the key in the store, and 400. -/
def Documented (rt : Runtime) (req : WebhookRequest) (answer : WebhookResponse × Database) :
    Prop :=
  (answer.1.status = 204 ∧ Stored rt req answer.2) ∨
    (answer.1.status = 400 ∧ answer.1.errorCode = some (py "validation_error"))

/-- What `json.loads` makes of a body, the empty one counting as `{}`. -/
def Runtime.readBody (rt : Runtime) (body : Bytes) : Except LoadsError Json :=
  if body = [] then .ok (.obj []) else rt.loads body

/-- The body is one the handler can deal with: its only failure is a `JSONDecodeError`, and an
object with the required action fits into a row. -/
def Digestible (rt : Runtime) (event : Text) (body : Bytes) : Prop :=
  match rt.readBody body with
  | .error e => e = .jsonDecodeError
  | .ok (.obj payload) =>
    actionMissing event payload = true ∨ Storable rt (summaryOf event payload) payload
  | .ok _ => True

/-- The request is rejected by its headers, or its body is digestible. -/
def Answerable (rt : Runtime) (body : Bytes) (event deliveryId : Option Text) : Prop :=
  ∀ e id, event = some e → memberOf e supportedEvents = true → deliveryId = some id → id ≠ [] →
    Digestible rt e body

/-- A validation error whose details can be rendered. -/
def IsRejection {α : Type} (x : Except PyException α) : Prop :=
  ∃ e, x = .error (.appError e) ∧ e.statusCode = 400 ∧ e.code = "validation_error" ∧
    e.details.strict = true ∧ e.details.depth ≤ 14

lemma IsRejection.bind {α γ : Type} {x : Except PyException α} (h : IsRejection x)
    (f : α → Except PyException γ) : IsRejection (x >>= f) := by
  obtain ⟨e, rfl, h⟩ := h
  exact ⟨e, rfl, h⟩

/-- `ValidationError(message, details={"reason": reason})`. -/
lemma isRejection_reason {α : Type} (message : Text) (reason : String) :
    IsRejection (.error (.appError (ValidationError.new message
      (.obj [(py "reason", .lit reason)]) [])) : Except PyException α) := by
  refine ⟨_, rfl, rfl, rfl, ?_, ?_⟩
  · simp [Json.strict, Json.strictFields]
  · simp [Json.depth, Json.depthFields]

/-- Every event header is accepted or rejected. -/
lemma validateEvent_cases (header : Option Text) :
    IsRejection (validateEvent header) ∨
      ∃ e, header = some e ∧ memberOf e supportedEvents = true ∧ validateEvent header = .ok e := by
  match header with
  | none => exact Or.inl (isRejection_reason _ _)
  | some [] => exact Or.inl (isRejection_reason _ _)
  | some (c :: t) =>
    by_cases h : memberOf (c :: t) supportedEvents = true
    · exact Or.inr ⟨_, rfl, h, by simp [validateEvent, h]⟩
    · refine Or.inl ⟨_, by simp only [validateEvent, h]; rfl, rfl, rfl, ?_, ?_⟩
      · simp [Json.strict, Json.strictFields, Json.strictItems, supportedEvents]
      · simp [Json.depth, Json.depthFields, Json.depthItems, supportedEvents]

lemma requireDeliveryId_cases (header : Option Text) :
    IsRejection (requireDeliveryId header) ∨
      ∃ id, header = some id ∧ id ≠ [] ∧ requireDeliveryId header = .ok id := by
  match header with
  | none => exact Or.inl (isRejection_reason _ _)
  | some [] => exact Or.inl (isRejection_reason _ _)
  | some (c :: t) => exact Or.inr ⟨_, rfl, List.cons_ne_nil c t, rfl⟩

lemma requireObject_of_not_obj {value : Json} (h : ∀ fields, value ≠ .obj fields) :
    IsRejection (requireObject value) := by
  cases value with
  | obj fields => exact absurd rfl (h fields)
  | _ => exact isRejection_reason _ _

/-- The payload stage, by what `json.loads` makes of the body. -/
lemma payload_of_error {body : Bytes} {e : LoadsError} (h : rt.readBody body = .error e) :
    if e = .jsonDecodeError then IsRejection (parseBody rt body >>= requireObject)
    else ∃ b, (parseBody rt body >>= requireObject) = .error (.builtin b) := by
  unfold Runtime.readBody at h
  split at h
  · cases h
  · next hne =>
    have hparse : parseBody rt body = _ := if_neg hne
    rw [hparse, h]
    cases e with
    | jsonDecodeError => exact (isRejection_reason _ _).bind _
    | _ => exact ⟨_, rfl⟩

lemma payload_of_ok {body : Bytes} {value : Json} (h : rt.readBody body = .ok value) :
    (parseBody rt body >>= requireObject) = requireObject value := by
  have hparse : parseBody rt body = .ok value := by
    unfold Runtime.readBody at h
    unfold parseBody
    split at h
    · next hnil => rw [if_pos hnil, Except.ok.inj h]
    · next hne => rw [if_neg hne, h]
  rw [hparse, ok_bind]

lemma summarize_of_actionMissing {event : Text} {payload : List (PyStr × Json)}
    (h : actionMissing event payload = true) : IsRejection (summarize event payload) := by
  refine ⟨_, by simp only [summarize, h]; rfl, rfl, rfl, ?_, ?_⟩
  · simp [Json.strict, Json.strictFields]
  · simp [Json.depth, Json.depthFields]

/-! The three ways a request can end. -/

section

variable {now : Civil} {requestId : Text} {req : WebhookRequest} {db : Database}

lemma documented_of_rejection
    (h : IsRejection (verifiedDelivery hmac rt settings.webhookSecret req)) :
    Documented rt req (postWebhook hmac rt settings now requestId req db) := by
  obtain ⟨e, he, hstatus, hcode, hstrict, hdepth⟩ := h
  have henc := encodableDetails_of_shallow rt hstrict hdepth
  have hpost : (postWebhook hmac rt settings now requestId req db).1 =
      respond rt requestId (.error (.appError e)) := by
    simp only [postWebhook, receiveWebhook, he]
  refine Or.inr ⟨?_, ?_⟩
  · rw [hpost, respond_appError_status rt requestId henc, hstatus]
  · rw [hpost, respond_appError_errorCode rt requestId henc, hcode]

lemma not_documented_of_builtin {b : BuiltinError}
    (h : (receiveWebhook hmac rt settings now req db).1 = .error (.builtin b)) :
    ¬ Documented rt req (postWebhook hmac rt settings now requestId req db) := by
  have hpost : (postWebhook hmac rt settings now requestId req db).1 =
      unhandledHandler (some requestId) := by
    simp only [postWebhook, h, respond_builtin]
  rintro (⟨hstatus, -⟩ | ⟨hstatus, -⟩)
  · rw [hpost, unhandledHandler_status] at hstatus
    omega
  · rw [hpost, unhandledHandler_status] at hstatus
    omega

/-- A delivery that passes the checks gets its answer exactly when it fits into a row. -/
lemma documented_of_delivery {d : Delivery}
    (h : verifiedDelivery hmac rt settings.webhookSecret req = .ok d) :
    Documented rt req (postWebhook hmac rt settings now requestId req db) ↔
      Storable rt d.summary d.payload := by
  rw [← @exists_rowOf_ok_iff rt now d]
  constructor
  · intro hdoc
    cases hrow : rowOf rt now d with
    | ok row => exact ⟨row, rfl⟩
    | error e =>
      obtain ⟨b, rfl⟩ := rowOf_builtin rt now d e hrow
      refine absurd hdoc (not_documented_of_builtin (b := b) ?_)
      simp only [receiveWebhook, h, record, hrow]
  · rintro ⟨row, hrow⟩
    obtain ⟨-, -, -, hid, -, hpl, -, hsum⟩ := verifiedDelivery_ok_iff.mp h
    have hholds := rowOf_holds hrow
    have haction := hholds.toText?_action
    have hpost : postWebhook hmac rt settings now requestId req db =
        (respond rt requestId (.ok ⟨204, [], .empty⟩), (db.recordRow row).2) := by
      simp only [postWebhook, receiveWebhook, h, record, hrow]
    rw [hpost]
    refine Or.inl ⟨rfl, d.deliveryId, d.payload, row.action, hid, hpl, ?_, ?_⟩
    · rw [hsum] at haction
      exact haction
    · exact hholds.deliveryId ▸ db.has_recordRow row

/-- Once the event and the id are accepted, the body decides. -/
lemma documented_iff_digestible {e id : Text} {body : Bytes}
    (h : verifiedDelivery hmac rt settings.webhookSecret req = (do
      let payload ← parseBody rt body >>= requireObject
      let summary ← summarize e payload
      return { deliveryId := id, summary, payload })) :
    Documented rt req (postWebhook hmac rt settings now requestId req db) ↔
      Digestible rt e body := by
  rw [Digestible]
  cases hread : rt.readBody body with
  | error err =>
    have hstage := payload_of_error hread
    split_ifs at hstage with herr
    · exact iff_of_true (documented_of_rejection (h ▸ hstage.bind _)) herr
    · obtain ⟨b, hb⟩ := hstage
      rw [hb, error_bind] at h
      refine iff_of_false (not_documented_of_builtin (b := b) ?_) herr
      simp only [receiveWebhook, h]
  | ok value =>
    rw [payload_of_ok hread] at h
    by_cases hobj : ∃ fields, value = .obj fields
    · obtain ⟨payload, rfl⟩ := hobj
      rw [requireObject_ok_iff.mpr rfl, ok_bind] at h
      by_cases hact : actionMissing e payload = true
      · refine iff_of_true (documented_of_rejection ?_) (Or.inl hact)
        exact h ▸ (summarize_of_actionMissing hact).bind _
      · have hact' : actionMissing e payload = false := by simpa using hact
        rw [summarize_ok_iff.mpr ⟨hact', rfl⟩, ok_bind] at h
        rw [documented_of_delivery h]
        simp [hact']
    · have hrej := @requireObject_of_not_obj value fun f h => hobj ⟨f, h⟩
      refine iff_of_true (documented_of_rejection (h ▸ hrej.bind _)) ?_
      cases value with
      | obj fields => exact absurd ⟨fields, rfl⟩ hobj
      | _ => trivial

end

/-- **When a signed delivery gets a documented answer.** -/
theorem documented_iff (hmac : Hmac) (rt : Runtime) (settings : Settings) (now : Civil)
    (requestId : Text) (body : Bytes) (event deliveryId : Option Text) (db : Database) :
    let req := signedRequest hmac settings.webhookSecret body event deliveryId
    Documented rt req (postWebhook hmac rt settings now requestId req db) ↔
      Answerable rt body event deliveryId := by
  intro req
  have hsig : verifySignature hmac settings.webhookSecret req.body req.signature = .ok () :=
    verifySignature_computeSignature hmac settings.webhookSecret body
  have hdel : verifiedDelivery hmac rt settings.webhookSecret req = (do
      let event ← validateEvent event
      let deliveryId ← requireDeliveryId deliveryId
      let payload ← parseBody rt body >>= requireObject
      let summary ← summarize event payload
      return { deliveryId, summary, payload }) := by
    rw [verifiedDelivery, hsig, ok_bind]
    rfl
  rcases validateEvent_cases event with hrej | ⟨e, rfl, hsup, hev⟩
  · refine iff_of_true (documented_of_rejection (hdel ▸ hrej.bind _)) ?_
    rintro e id rfl hsup - -
    obtain ⟨_, he, -⟩ := hrej
    rw [validateEvent_ok_iff.mpr ⟨rfl, hsup⟩] at he
    cases he
  rw [hev, ok_bind] at hdel
  rcases requireDeliveryId_cases deliveryId with hrej | ⟨id, rfl, hne, hid⟩
  · refine iff_of_true (documented_of_rejection (hdel ▸ hrej.bind _)) ?_
    rintro e' id - - rfl hne
    obtain ⟨_, he, -⟩ := hrej
    rw [requireDeliveryId_ok_iff.mpr ⟨rfl, hne⟩] at he
    cases he
  rw [hid, ok_bind] at hdel
  have hans : Answerable rt body (some e) (some id) ↔ Digestible rt e body := by
    simp [Answerable, hsup, hne]
  rw [hans]
  exact documented_iff_digestible hdel

/-- A correctly signed ping whose body is the single byte `0xFF` is answered 500. -/
theorem undecodable_not_documented :
    let req := signedRequest (fun _ _ => []) "secret".toList [0xFF] (some "ping".toList)
      (some "1".toList)
    let answer := postWebhook (fun _ _ => []) .reference .reference epoch ['1'] req .empty
    answer.1.status = 500 ∧ ¬ Documented .reference req answer := by
  intro req answer
  have hstatus : answer.1.status = 500 := by decide +kernel
  refine ⟨hstatus, ?_⟩
  rintro (⟨h, -⟩ | ⟨h, -⟩)
  · rw [hstatus] at h
    omega
  · rw [hstatus] at h
    omega

end IssuesApi
