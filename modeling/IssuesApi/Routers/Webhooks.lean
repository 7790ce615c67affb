import IssuesApi.App
import IssuesApi.Config
import IssuesApi.Lib.Outcome
import IssuesApi.Schemas
import IssuesApi.Store

/-!
# The webhook route (`app/routers/webhooks.py`)

`receiveWebhook` runs its checks in the source's order, signature first, and writes only when
all of them have passed.  `verifiedDelivery` is everything before the write; it never sees
the store.  `listEvents` is the log of what was written.
-/

namespace IssuesApi

/-- What the handler reads of a `POST /webhook` request. -/
structure WebhookRequest where
  body : Bytes
  signature : Option Text
  event : Option Text
  deliveryId : Option Text
  deriving DecidableEq

/-- The route declares no model: a successful answer has no body. -/
abbrev WebhookResponse := Response Empty

/-- The check of `X-GitHub-Delivery`. -/
def requireDeliveryId (header : Option Text) : Except PyException Text :=
  match header with
  | none | some [] =>
    .error (.appError (ValidationError.new
      ("Missing ".toList ++ deliveryHeader.toList ++ " header.".toList)
      (.obj [(py "reason", .lit "delivery_header_absent")]) []))
  | some id => .ok id

/-- `json.loads(raw_body) if raw_body else {}`; only `JSONDecodeError` is caught. -/
def parseBody (rt : Runtime) (body : Bytes) : Except PyException Json :=
  if body = [] then .ok (.obj [])
  else
    match rt.loads body with
    | .ok value => .ok value
    | .error .jsonDecodeError =>
      .error (.appError (ValidationError.new "Webhook body is not valid JSON.".toList
        (.obj [(py "reason", .lit "invalid_json")]) []))
    | .error e => raiseBuiltin e.exception

/-- The `isinstance(payload, dict)` check. -/
def requireObject : Json → Except PyException (List (PyStr × Json))
  | .obj fields => .ok fields
  | _ =>
    .error (.appError (ValidationError.new "Webhook body must be a JSON object.".toList
      (.obj [(py "reason", .lit "payload_not_an_object")]) []))

/-- The handler up to the write. -/
def verifiedDelivery (hmac : Hmac) (rt : Runtime) (secret : Text) (req : WebhookRequest) :
    Except PyException Delivery := do
  verifySignature hmac secret req.body req.signature
  let event ← validateEvent req.event
  let deliveryId ← requireDeliveryId req.deliveryId
  let payload ← parseBody rt req.body >>= requireObject
  let summary ← summarize event payload
  return { deliveryId, summary, payload }

/-- `receive_webhook`. -/
def receiveWebhook (hmac : Hmac) (rt : Runtime) (settings : Settings) (now : Civil)
    (req : WebhookRequest) (db : Database) : Except PyException WebhookResponse × Database :=
  match verifiedDelivery hmac rt settings.webhookSecret req with
  | .error e => (.error e, db)
  | .ok delivery =>
    match record rt now delivery db with
    | (.error e, db) => (.error e, db)
    | (.ok _, db) => (.ok ⟨204, [], .empty⟩, db)

/-- `POST /webhook`, as the client sees it. -/
def postWebhook (hmac : Hmac) (rt : Runtime) (settings : Settings) (now : Civil)
    (requestId : Text) (req : WebhookRequest) (db : Database) : WebhookResponse × Database :=
  let (outcome, db) := receiveWebhook hmac rt settings now req db
  (respond rt requestId outcome, db)

/-- The validated parameter of `list_events`. -/
structure EventsParams where
  limit : ℤ
  limit_valid : 1 ≤ limit ∧ limit ≤ 500

/-- Its default. -/
def EventsParams.default : EventsParams := ⟨50, by decide⟩

/-- `EventRecord(…, timestamp=datetime.fromisoformat(event.timestamp))`. -/
def eventRecord (event : StoredEvent) : Except PyException EventRecord :=
  match fromIsoformat event.timestamp with
  | some timestamp =>
    .ok ⟨event.id, event.event, event.action, event.issueNumber, timestamp⟩
  | none => raiseBuiltin .valueError

/-- `list_events`. -/
def listEvents (settings : Settings) (p : EventsParams) (db : Database) :
    Except PyException (List EventRecord) := do
  let capped := min p.limit settings.eventsMaxLimit
  let events ← recent capped db
  events.mapM eventRecord

/-! ## What the checks accept -/

lemma requireDeliveryId_ok_iff {header : Option Text} {id : Text} :
    requireDeliveryId header = .ok id ↔ header = some id ∧ id ≠ [] := by
  match header with
  | none => simp [requireDeliveryId]
  | some [] =>
    simp only [requireDeliveryId, Option.some.injEq, reduceCtorEq, false_iff, not_and]
    exact fun h hne => hne h.symm
  | some (c :: t) =>
    simp only [requireDeliveryId, Except.ok.injEq, Option.some.injEq]
    exact ⟨fun h => ⟨h, h ▸ List.cons_ne_nil c t⟩, fun h => h.1⟩

/-- The object a body stands for; an empty body counts as `{}`. -/
def Runtime.payloadOf (rt : Runtime) (body : Bytes) (payload : List (PyStr × Json)) : Prop :=
  (body = [] ∧ payload = []) ∨ (body ≠ [] ∧ rt.loads body = .ok (.obj payload))

lemma requireObject_ok_iff {value : Json} {fields : List (PyStr × Json)} :
    requireObject value = .ok fields ↔ value = .obj fields := by
  cases value <;> simp [requireObject]

lemma parseBody_ok_iff {rt : Runtime} {body : Bytes} {value : Json} :
    parseBody rt body = .ok value ↔
      (body = [] ∧ value = .obj []) ∨ (body ≠ [] ∧ rt.loads body = .ok value) := by
  unfold parseBody
  split
  · next hnil =>
    constructor
    · exact fun h => Or.inl ⟨hnil, (Except.ok.inj h).symm⟩
    · rintro (⟨-, rfl⟩ | ⟨hne, -⟩)
      · rfl
      · exact absurd hnil hne
  · next hne =>
    simp only [hne, false_and, ne_eq, not_false_eq_true, true_and, false_or]
    cases rt.loads body with
    | ok v => simp only [Except.ok.injEq]
    | error e => cases e <;> simp only [raiseBuiltin, reduceCtorEq]

lemma parsePayload_ok_iff {rt : Runtime} {body : Bytes} {payload : List (PyStr × Json)} :
    (parseBody rt body >>= requireObject) = .ok payload ↔ rt.payloadOf body payload := by
  rw [bind_eq_ok, Runtime.payloadOf]
  simp only [requireObject_ok_iff, parseBody_ok_iff, exists_eq_right, Json.obj.injEq]

lemma summarize_ok_iff {event : Text} {payload : List (PyStr × Json)} {s : WebhookSummary} :
    summarize event payload = .ok s ↔
      actionMissing event payload = false ∧ s = summaryOf event payload := by
  unfold summarize
  split
  · next h => simp [h]
  · next h =>
    have hfalse : actionMissing event payload = false := by simpa using h
    exact ⟨fun hs => ⟨hfalse, (Except.ok.inj hs).symm⟩, fun hs => hs.2 ▸ rfl⟩

/-- **What reaches the store.**  A delivery passes the checks exactly when its signature is
the one of its body, its event is supported, it has an id, and its body is an object with the
action the event requires. -/
theorem verifiedDelivery_ok_iff {hmac : Hmac} {rt : Runtime} {secret : Text}
    {req : WebhookRequest} {d : Delivery} :
    verifiedDelivery hmac rt secret req = .ok d ↔
      req.signature = some (computeSignature hmac secret req.body) ∧
      req.event = some d.summary.event ∧ memberOf d.summary.event supportedEvents = true ∧
      req.deliveryId = some d.deliveryId ∧ d.deliveryId ≠ [] ∧
      rt.payloadOf req.body d.payload ∧ actionMissing d.summary.event d.payload = false ∧
      d.summary = summaryOf d.summary.event d.payload := by
  constructor
  · intro h
    obtain ⟨_, hsig, h⟩ := bind_eq_ok.mp h
    obtain ⟨event, hev, h⟩ := bind_eq_ok.mp h
    obtain ⟨id, hid, h⟩ := bind_eq_ok.mp h
    obtain ⟨payload, hpl, h⟩ := bind_eq_ok.mp h
    obtain ⟨s, hs, h⟩ := bind_eq_ok.mp h
    obtain rfl := Except.ok.inj h
    obtain ⟨hev, hsup⟩ := validateEvent_ok_iff.mp hev
    obtain ⟨hid, hne⟩ := requireDeliveryId_ok_iff.mp hid
    obtain ⟨hact, rfl⟩ := summarize_ok_iff.mp hs
    exact ⟨eq_computeSignature_of_verifySignature hsig, hev, hsup, hid, hne,
      parsePayload_ok_iff.mp hpl, hact, rfl⟩
  · rintro ⟨hsig, hev, hsup, hid, hne, hpl, hact, hs⟩
    have hverify : verifySignature hmac secret req.body req.signature = .ok () := by
      rw [hsig]
      exact verifySignature_computeSignature hmac secret req.body
    unfold verifiedDelivery
    rw [hverify, ok_bind, validateEvent_ok_iff.mpr ⟨hev, hsup⟩, ok_bind,
      requireDeliveryId_ok_iff.mpr ⟨hid, hne⟩, ok_bind, parsePayload_ok_iff.mpr hpl, ok_bind,
      summarize_ok_iff.mpr ⟨hact, hs⟩]
    rfl

/-- **The two things the route can do.**  It raises and leaves the store alone, or it answers
204 and records the row of a delivery that passed the checks. -/
lemma receiveWebhook_cases (hmac : Hmac) (rt : Runtime) (settings : Settings) (now : Civil)
    (req : WebhookRequest) (db : Database) :
    (∃ e, receiveWebhook hmac rt settings now req db = (.error e, db)) ∨
    (∃ d row, verifiedDelivery hmac rt settings.webhookSecret req = .ok d ∧
      rowOf rt now d = .ok row ∧
      receiveWebhook hmac rt settings now req db =
        (.ok ⟨204, [], .empty⟩, (db.recordRow row).2)) := by
  unfold receiveWebhook record
  cases hd : verifiedDelivery hmac rt settings.webhookSecret req with
  | error e => exact Or.inl ⟨e, rfl⟩
  | ok d =>
    dsimp only
    cases hrow : rowOf rt now d with
    | error e => exact Or.inl ⟨e, rfl⟩
    | ok row => exact Or.inr ⟨d, row, rfl, hrow, rfl⟩

/-! ## What the log shows -/

/-- The record of a row: its columns, with an empty action as none. -/
lemma eventRecord_ok_iff {row : Row} {r : EventRecord} :
    eventRecord (storedEvent row) = .ok r ↔
      ∃ timestamp, fromIsoformat row.receivedAt = some timestamp ∧
        r = ⟨row.deliveryId, row.event, nonempty (some row.action), row.issueNumber,
          timestamp⟩ := by
  unfold eventRecord storedEvent
  cases fromIsoformat row.receivedAt with
  | none => simp [raiseBuiltin]
  | some timestamp => simp [eq_comm]

/-- The rows a request asks for. -/
def listedRows (settings : Settings) (p : EventsParams) (db : Database) : List Row :=
  limitTo (min p.limit settings.eventsMaxLimit) db.newestFirst

/-- Of the capped limit only the cap can be out of SQLite's range. -/
lemma int64_capped_iff (p : EventsParams) (cap : ℤ) :
    int64 (min p.limit cap) = true ↔ -2 ^ 63 ≤ cap := by
  have hlimit := p.limit_valid
  simp only [int64, Bool.and_eq_true, decide_eq_true_eq]
  omega

/-- **What the log shows.**  A listing succeeds when the limit can be bound and every timestamp
read, and then has one record for each row asked for, in order. -/
theorem listEvents_ok_iff {settings : Settings} {p : EventsParams} {db : Database}
    {records : List EventRecord} :
    listEvents settings p db = .ok records ↔
      int64 (min p.limit settings.eventsMaxLimit) = true ∧
      List.Forall₂ (fun row r => eventRecord (storedEvent row) = .ok r)
        (listedRows settings p db) records := by
  rw [listEvents, bind_eq_ok]
  constructor
  · rintro ⟨events, hevents, h⟩
    obtain ⟨hlimit, rfl⟩ := recent_ok_iff.mp hevents
    exact ⟨hlimit, List.forall₂_map_left_iff.mp (mapM_eq_ok.mp h)⟩
  · rintro ⟨hlimit, h⟩
    exact ⟨_, recent_ok_iff.mpr ⟨hlimit, rfl⟩, mapM_eq_ok.mpr (List.forall₂_map_left_iff.mpr h)⟩

end IssuesApi
