import IssuesApi.Lib.JsonBytes
import IssuesApi.Properties.EventLog
import IssuesApi.Properties.StoredPayload
import IssuesApi.Scripts.ReplayWebhook

/-!
# What the replay script finds out

The script is run against the service while other deliveries arrive, and nobody else uses its
delivery id.  `replayExit_iff` says when it exits with 0, and that its count is never above one.
-/

namespace IssuesApi

variable {hmac : Hmac} {rt : Runtime} {settings : Settings}

/-! ## The payload -/

namespace Schema

lemma readable_object {members : List (String × Json)} :
    (object members).Readable ↔
      (members.map Prod.fst).Nodup ∧ ∀ m ∈ members, m.2.Readable := by
  have hkeys : (members.map fun m => (py m.1, m.2)).map Prod.fst =
      (members.map Prod.fst).map py := by simp
  rw [object, Json.Readable, hkeys, List.nodup_map_iff py_injective, Json.readableFields_iff,
    List.forall_mem_map]
  simp only [codePoints_py, true_and]

lemma noSplitPair_object {members : List (String × Json)} :
    (object members).NoSplitPair ↔ ∀ m ∈ members, m.2.NoSplitPair := by
  rw [object, Json.NoSplitPair, Json.noSplitPairFields_iff, List.forall_mem_map]
  simp only [noSplitPair_py, true_and]

end Schema

section Payload

variable (action : PyStr) (n : ℤ)

lemma buildPayload_ping : Json.obj (buildPayload .ping action n) =
    Schema.object [("zen", .lit "Non-blocking is better than blocking."), ("hook_id", .int 1)] :=
  rfl

lemma buildPayload_issues : Json.obj (buildPayload .issues action n) =
    Schema.object [("action", .str action),
      ("issue", Schema.object [("number", .int n),
        ("title", .lit "replayed by scripts/replay_webhook.py")]),
      ("sender", Schema.object [("login", .lit "replay-script")])] := rfl

lemma buildPayload_issueComment : Json.obj (buildPayload .issueComment action n) =
    Schema.object [("action", .str action),
      ("issue", Schema.object [("number", .int n),
        ("title", .lit "replayed by scripts/replay_webhook.py")]),
      ("sender", Schema.object [("login", .lit "replay-script")]),
      ("comment", Schema.object [("id", .int 1), ("body", .lit "replayed")])] := rfl

end Payload

namespace ReplayArgs

lemma id_ne_nil (args : ReplayArgs) : args.id ≠ [] := by
  unfold id
  cases h : nonempty args.deliveryId with
  | none => simp
  | some t => exact ne_nil_of_nonempty h

lemma readable_payload (args : ReplayArgs) : (Json.obj args.payload).Readable := by
  have hone : (decimal 1).length ≤ maxStrDigits := by decide
  unfold payload
  cases args.event with
  | ping =>
    rw [buildPayload_ping]
    simp [Schema.readable_object, Json.Readable, Json.lit, hone]
  | issues =>
    rw [buildPayload_issues]
    simp [Schema.readable_object, Json.Readable, Json.lit, args.issueNumber_valid,
      args.action_valid]
  | issueComment =>
    rw [buildPayload_issueComment]
    simp [Schema.readable_object, Json.Readable, Json.lit, args.issueNumber_valid,
      args.action_valid, hone]

lemma noSplitPair_payload (args : ReplayArgs) : (Json.obj args.payload).NoSplitPair := by
  unfold payload
  cases args.event with
  | ping =>
    rw [buildPayload_ping]
    simp [Schema.noSplitPair_object, Json.NoSplitPair, Json.lit]
  | issues =>
    rw [buildPayload_issues]
    simp [Schema.noSplitPair_object, Json.NoSplitPair, Json.lit, args.action_valid]
  | issueComment =>
    rw [buildPayload_issueComment]
    simp [Schema.noSplitPair_object, Json.NoSplitPair, Json.lit, args.action_valid]

lemma depth_payload (args : ReplayArgs) : (Json.obj args.payload).depth ≤ 2 := by
  unfold payload
  cases args.event with
  | ping =>
    rw [buildPayload_ping]
    simp [Schema.object, Json.depth, Json.depthFields]
  | issues =>
    rw [buildPayload_issues]
    simp [Schema.object, Json.depth, Json.depthFields]
  | issueComment =>
    rw [buildPayload_issueComment]
    simp [Schema.object, Json.depth, Json.depthFields]

/-- The service reads the payload that the script wrote. -/
lemma payloadOf_raw (hlimit : 2 ≤ rt.recursionLimit) (args : ReplayArgs) :
    rt.payloadOf args.raw args.payload := by
  have hread := @loads_dumpsWith .default _ reprReadsBack_exactRepr _ args.readable_payload _
    (args.depth_payload.trans hlimit)
  rw [(Json.rejoin_eq_self_iff args.readable_payload).mpr args.noSplitPair_payload] at hread
  refine Or.inr ⟨fun hnil => ?_, hread⟩
  have hempty := rt.loads_nil
  rw [← hnil, Runtime.loads, raw, hread] at hempty
  cases hempty

/-- SQLite can hold what an attempt brings. -/
def Fits (args : ReplayArgs) : Prop :=
  args.event = .ping ∨ (∃ t, args.action.toText? = some t) ∧ int64 args.issueNumber = true

lemma action_payload (args : ReplayArgs) : asStr (dictGet args.payload "action") =
    if args.event = .ping then none else some args.action := by
  unfold payload
  cases args.event <;> rfl

lemma issueNumber_payload (args : ReplayArgs) :
    asInt (getIfDict (dictGet args.payload "issue") "number") =
      if args.event = .ping then none else some args.issueNumber := by
  unfold payload
  cases args.event <;> rfl

lemma commentId_payload (args : ReplayArgs) :
    asInt (getIfDict (dictGet args.payload "comment") "id") =
      if args.event = .issueComment then some 1 else none := by
  unfold payload
  cases args.event <;> rfl

lemma sender_payload (args : ReplayArgs) :
    asStr (getIfDict (dictGet args.payload "sender") "login") =
      if args.event = .ping then none else some (py "replay-script") := by
  unfold payload
  cases args.event <;> rfl

lemma supported (args : ReplayArgs) : memberOf args.event.text supportedEvents = true := by
  cases args.event <;> decide

lemma actionMissing_payload (args : ReplayArgs) :
    actionMissing args.event.text args.payload = false := by
  rw [actionMissing, action_payload]
  cases args.event <;> rfl

/-- The delivery an attempt makes. -/
def delivery (args : ReplayArgs) : Delivery :=
  ⟨args.id, summaryOf args.event.text args.payload, args.payload⟩

/-- It has a row exactly when it fits. -/
lemma storable_delivery_iff (args : ReplayArgs) :
    Storable rt args.delivery.summary args.delivery.payload ↔ args.Fits := by
  have haction : args.delivery.summary.action = _ := args.action_payload
  have hissue : args.delivery.summary.issueNumber = _ := args.issueNumber_payload
  have hcomment : args.delivery.summary.commentId = _ := args.commentId_payload
  have hsender : args.delivery.summary.sender = _ := args.sender_payload
  constructor
  · intro h
    by_cases hping : args.event = .ping
    · exact Or.inl hping
    · rw [if_neg hping] at haction hissue
      have hstored := h.action
      have hnumber := h.issueNumber
      rw [haction] at hstored
      rw [hissue] at hnumber
      exact Or.inr ⟨hstored, hnumber _ rfl⟩
  · intro h
    have hlarge := rt.encodeLimit_large
    refine ⟨args.depth_payload.trans (by omega), ?_, ?_, ?_, ?_⟩
    · rw [haction]
      rcases h with hping | ⟨htext, -⟩
      · rw [if_pos hping]
        exact ⟨[], rfl⟩
      · split_ifs
        · exact ⟨[], rfl⟩
        · exact htext
    · rw [hissue]
      rcases h with hping | ⟨-, hnumber⟩
      · simp [hping]
      · split_ifs
        · simp
        · simpa using hnumber
    · rw [hcomment]
      split_ifs
      · simpa using (by decide : int64 1 = true)
      · simp
    · rw [hsender]
      split_ifs
      · simp
      · simpa using ⟨_, PyStr.toText?_py "replay-script"⟩

/-! ## One attempt -/

/-- The service takes the signature for its own, and can store what was signed. -/
def Accepted (hmac : Hmac) (settings : Settings) (secret : Text) (args : ReplayArgs) : Prop :=
  computeSignature hmac secret args.raw =
    computeSignature hmac settings.webhookSecret args.raw ∧ args.Fits

lemma verifiedDelivery_request (hlimit : 2 ≤ rt.recursionLimit) (args : ReplayArgs)
    (secret : Text) {d : Delivery} :
    verifiedDelivery hmac rt settings.webhookSecret (args.request hmac secret) = .ok d ↔
      computeSignature hmac secret args.raw =
        computeSignature hmac settings.webhookSecret args.raw ∧ d = args.delivery := by
  have hpayload := args.payloadOf_raw hlimit
  rw [verifiedDelivery_ok_iff]
  constructor
  · rintro ⟨hsignature, hevent, -, hid, -, hread, -, hsummary⟩
    obtain ⟨id, summary, payload⟩ := d
    obtain rfl := Option.some.inj hid
    obtain rfl := payloadOf_unique hpayload hread
    have hevent := Option.some.inj hevent
    rw [← hevent] at hsummary
    exact ⟨Option.some.inj hsignature,
      congrArg (fun summary => Delivery.mk args.id summary args.payload) hsummary⟩
  · rintro ⟨hsignature, rfl⟩
    exact ⟨congrArg some hsignature, rfl, args.supported, rfl, args.id_ne_nil, hpayload,
      args.actionMissing_payload, rfl⟩

/-- What an attempt offers to the store. -/
lemma row_isSome_iff (hlimit : 2 ≤ rt.recursionLimit) {args : ReplayArgs} {secret : Text}
    {x : Exchange} (hx : x.request = args.request hmac secret) :
    (x.row hmac rt settings).isSome ↔ args.Accepted hmac settings secret := by
  rw [Option.isSome_iff_exists, Accepted, ← @storable_delivery_iff rt,
    ← @exists_rowOf_ok_iff rt x.now args.delivery]
  simp only [Exchange.row_eq_some, hx, args.verifiedDelivery_request hlimit]
  constructor
  · rintro ⟨row, d, ⟨hsignature, rfl⟩, hrow⟩
    exact ⟨hsignature, row, hrow⟩
  · rintro ⟨hsignature, row, hrow⟩
    exact ⟨row, _, ⟨hsignature, rfl⟩, hrow⟩

/-- All of them offer a row with the same key. -/
lemma row_key {args : ReplayArgs} {secret : Text} {x : Exchange} {row : Row}
    (hlimit : 2 ≤ rt.recursionLimit) (hx : x.request = args.request hmac secret)
    (hrow : x.row hmac rt settings = some row) :
    row.key =
      (args.id, (PyStr.toText? (args.delivery.summary.action.getD [])).getD []) := by
  obtain ⟨d, hd, hrow⟩ := Exchange.row_eq_some.mp hrow
  rw [hx, args.verifiedDelivery_request hlimit] at hd
  obtain ⟨-, rfl⟩ := hd
  have hholds := rowOf_holds hrow
  rw [hholds.toText?_action]
  exact Prod.ext hholds.deliveryId rfl

end ReplayArgs

/-! ## A run -/

/-- The requests under the script's delivery id are its attempts. -/
def Replayed (hmac : Hmac) (secret : Option Text) (args : ReplayArgs) (history : List Exchange) :
    Prop :=
  (history.map Exchange.request).filter (fun r => r.deliveryId = some args.id) =
    args.attempts hmac secret

/-- Some attempt was made, and accepted. -/
def ReplayStored (hmac : Hmac) (settings : Settings) (secret : Option Text) (args : ReplayArgs) :
    Prop :=
  0 < args.times ∧ ∃ s ∈ secret, args.Accepted hmac settings s

lemma ReplayArgs.mem_attempts {secret : Option Text} {args : ReplayArgs} {r : WebhookRequest} :
    r ∈ args.attempts hmac secret ↔ 0 < args.times ∧ ∃ s ∈ secret, r = args.request hmac s := by
  cases secret with
  | none => simp [attempts]
  | some s =>
    have hpos : args.times.toNat ≠ 0 ↔ 0 < args.times := by omega
    simp [attempts, List.mem_replicate, hpos]

section Run

variable {secret : Option Text} {args : ReplayArgs} {history : List Exchange} {db : Database}

/-- A request under the id is an attempt. -/
lemma Replayed.attempt (h : Replayed hmac secret args history) {x : Exchange} (hx : x ∈ history)
    (hid : x.request.deliveryId = some args.id) :
    0 < args.times ∧ ∃ s ∈ secret, x.request = args.request hmac s := by
  rw [← ReplayArgs.mem_attempts, ← h, List.mem_filter]
  exact ⟨List.mem_map_of_mem hx, by simpa using hid⟩

/-- A row under the id stems from an attempt that was accepted. -/
lemma Replayed.row (h : Replayed hmac secret args history) (hlimit : 2 ≤ rt.recursionLimit)
    (hrun : Run (webhookStep hmac rt settings) .empty history db) {row : Row}
    (hrow : row ∈ db.rows) (hid : row.deliveryId = args.id) :
    ReplayStored hmac settings secret args ∧ row.key =
      (args.id, (PyStr.toText? (args.delivery.summary.action.getD [])).getD []) := by
  obtain ⟨before, x, after, rfl, hoffer, -⟩ := (mem_rows_iff hrun).mp hrow
  obtain ⟨d, hd, hd'⟩ := Exchange.row_eq_some.mp hoffer
  obtain ⟨-, -, -, hheader, -⟩ := verifiedDelivery_ok_iff.mp hd
  rw [← (rowOf_holds hd').deliveryId, hid] at hheader
  obtain ⟨htimes, s, hs, hrequest⟩ := h.attempt (by simp) hheader
  refine ⟨⟨htimes, s, hs, ?_⟩, ReplayArgs.row_key hlimit hrequest hoffer⟩
  rw [← ReplayArgs.row_isSome_iff hlimit hrequest, hoffer]
  rfl

/-- An attempt that was accepted has a row. -/
lemma Replayed.exists_row (h : Replayed hmac secret args history)
    (hlimit : 2 ≤ rt.recursionLimit)
    (hrun : Run (webhookStep hmac rt settings) .empty history db)
    (hstored : ReplayStored hmac settings secret args) :
    ∃ row ∈ db.rows, row.deliveryId = args.id := by
  obtain ⟨htimes, s, hs, haccepted⟩ := hstored
  have hattempt : args.request hmac s ∈ args.attempts hmac secret :=
    ReplayArgs.mem_attempts.mpr ⟨htimes, s, hs, rfl⟩
  rw [← h, List.mem_filter, List.mem_map] at hattempt
  obtain ⟨⟨x, hx, hrequest⟩, -⟩ := hattempt
  obtain ⟨row, hoffer⟩ := Option.isSome_iff_exists.mp
    ((ReplayArgs.row_isSome_iff hlimit hrequest).mpr haccepted)
  have hkey : row.key ∈ db.rows.map Row.key := by
    rw [(rows_eq_winners hrun).1, mem_map_winners]
    exact ⟨by simp, List.mem_map_of_mem (List.mem_filterMap.mpr ⟨x, hx, hoffer⟩)⟩
  obtain ⟨stored, hmem, hsame⟩ := List.mem_map.mp hkey
  rw [ReplayArgs.row_key hlimit hrequest hoffer] at hsame
  exact ⟨stored, hmem, congrArg Prod.fst hsame⟩

/-- There is at most one row under the id. -/
lemma Replayed.countP_rows_le (h : Replayed hmac secret args history)
    (hlimit : 2 ≤ rt.recursionLimit)
    (hrun : Run (webhookStep hmac rt settings) .empty history db) :
    db.rows.countP (fun row => row.deliveryId = args.id) ≤ 1 := by
  rw [List.countP_eq_length_filter]
  have hnodup : ((db.rows.filter fun row => row.deliveryId = args.id).map Row.key).Nodup :=
    db.primaryKey.sublist (List.filter_sublist.map _)
  have hsame : ∀ key ∈ (db.rows.filter fun row => row.deliveryId = args.id).map Row.key,
      key = (args.id, (PyStr.toText? (args.delivery.summary.action.getD [])).getD []) := by
    intro key hkey
    obtain ⟨row, hrow, rfl⟩ := List.mem_map.mp hkey
    obtain ⟨hmem, hid⟩ := List.mem_filter.mp hrow
    exact (h.row hlimit hrun hmem (by simpa using hid)).2
  rw [List.eq_replicate_of_mem hsame, List.nodup_replicate, List.length_map] at hnodup
  exact hnodup

end Run

/-! ## The listing -/

lemma recordId_toJson (iso : DateTime → Text) (r : EventRecord) :
    recordId (r.toJson iso) = some (.text r.id) := by
  show dictGet _ "id" = _
  rw [Schema.dictGet_map_py]
  rfl

/-- The script counts the records with its id. -/
lemma countMatching_eventsToJson (iso : DateTime → Text) (deliveryId : Text)
    (records : List EventRecord) :
    countMatching deliveryId (eventsToJson iso records) =
      some ((records.map EventRecord.id).countP (· = deliveryId)) := by
  have hids : (records.map (EventRecord.toJson iso)).mapM recordId =
      some ((records.map EventRecord.id).map .text) := by
    rw [List.mapM_map, List.map_map]
    have hpure : recordId ∘ EventRecord.toJson iso = fun r => pure (Json.text r.id) :=
      funext (recordId_toJson iso)
    rw [hpure, List.mapM_pure]
    rfl
  have htext : ∀ t : Text, Json.text t = .text deliveryId ↔ t = deliveryId := fun t =>
    ⟨fun h => Text.toPyStr_injective (Json.str.inj h), congrArg Json.text⟩
  rw [eventsToJson, countMatching, hids, Option.map_some, List.countP_map]
  simp only [Function.comp_def, htext]

lemma mem_rows_of_mem_listedRows {p : EventsParams} {db : Database} {row : Row}
    (h : row ∈ listedRows settings p db) : row ∈ db.rows :=
  Database.mem_newestFirst.mp (mem_of_mem_limitTo h)

lemma countP_listedRows_le (p : EventsParams) (db : Database) (f : Row → Bool) :
    (listedRows settings p db).countP f ≤ db.rows.countP f := by
  have hsublist : (listedRows settings p db).Sublist db.newestFirst := by
    unfold listedRows limitTo
    split
    · exact List.Sublist.refl _
    · exact List.take_sublist ..
  exact hsublist.countP_le.trans ((orderByDesc_perm _ _).countP_eq f).le

/-- The body of an answered `GET /events`, as the script reads it. -/
lemma countMatching_getEvents {iso : DateTime → Text} {db : Database}
    (hstamps : Timestamped db) (p : EventsParams) (requestId deliveryId : Text) :
    ((getEvents rt settings requestId p db).body.content (eventsToJson iso)).bind
        (countMatching deliveryId) =
      if int64 (min p.limit settings.eventsMaxLimit) = true then
        some ((listedRows settings p db).countP fun row => row.deliveryId = deliveryId)
      else none := by
  unfold getEvents
  split_ifs with hlimit
  · obtain ⟨records, hrecords⟩ := hstamps.exists_records
      fun row (hrow : row ∈ listedRows settings p db) => mem_rows_of_mem_listedRows hrow
    have hids : (listedRows settings p db).map Row.deliveryId = records.map EventRecord.id := by
      rw [← List.forall₂_eq_eq_eq, List.forall₂_map_left_iff, List.forall₂_map_right_iff]
      refine hrecords.imp fun row r hr => ?_
      obtain ⟨_, -, rfl⟩ := eventRecord_ok_iff.mp hr
      rfl
    rw [listEvents_ok_iff.mpr ⟨hlimit, hrecords⟩]
    show countMatching deliveryId (eventsToJson iso records) = _
    rw [countMatching_eventsToJson, ← hids, List.countP_map]
    rfl
  · cases hlist : listEvents settings p db with
    | error e =>
      obtain ⟨b, rfl⟩ := listEvents_builtin settings p db e hlist
      rfl
    | ok records => exact absurd (listEvents_ok_iff.mp hlist).1 hlimit

/-- How many rows a listing shows before the row with a rowid. -/
def Database.shownBefore (db : Database) (r : Row × ℕ) : ℕ :=
  db.rows.zipIdx.countP fun s => Precedes (fun row => bytewise row.receivedAt) s r

/-- The first page of the log has room for a row under the id. -/
def Database.Shows (db : Database) (settings : Settings) (deliveryId : Text) : Prop :=
  ∃ r ∈ db.rows.zipIdx, r.1.deliveryId = deliveryId ∧
    (settings.eventsMaxLimit < 0 ∨ (db.shownBefore r : ℤ) < min 200 settings.eventsMaxLimit)

lemma exists_mem_listedRows_iff {db : Database} {deliveryId : Text} :
    (∃ row ∈ listedRows settings replayLimit db, row.deliveryId = deliveryId) ↔
      db.Shows settings deliveryId := by
  have hneg : min (200 : ℤ) settings.eventsMaxLimit < 0 ↔ settings.eventsMaxLimit < 0 := by
    omega
  simp only [listedRows, Database.newestFirst, mem_limitTo_orderByDesc_iff, Database.Shows,
    Prod.exists, replayLimit, hneg]
  constructor
  · rintro ⟨row, ⟨i, hi, hroom⟩, hid⟩
    exact ⟨row, i, hi, hid, hroom⟩
  · rintro ⟨row, i, hi, hid, hroom⟩
    exact ⟨row, ⟨i, hi, hroom⟩, hid⟩

lemma replayExit_eq_zero_iff {secret : Option Text} {health : ℕ} {deliveryId : Text}
    {events : Option Json} :
    replayExit secret health deliveryId events = 0 ↔
      secret.isSome ∧ 200 ≤ health ∧ health < 300 ∧
        events.bind (countMatching deliveryId) = some 1 := by
  unfold replayExit
  split_ifs with h <;> simp [h]

/-- **What the script finds out.**  Let it run against the service, with nobody else using its
delivery id.  Its attempts are answered 204 exactly when the service takes its signature for its
own and can store the payload.  There is then one row under the id, and otherwise none.  The
script exits with 0 exactly when there is a row, the configured cap is one that SQLite can bind,
and the row is on the page that the script asks for. -/
theorem replayExit_iff {environ envFile : Option Text} {args : ReplayArgs}
    {history : List Exchange} {db : Database} (hlimit : 2 ≤ rt.recursionLimit)
    (hrun : Run (webhookStep hmac rt settings) .empty history db)
    (hreplayed : Replayed hmac (loadSecret environ envFile) args history)
    (iso : DateTime → Text) (healthId eventsId : Text) :
    (∀ x ∈ history, x.request.deliveryId = some args.id →
      (x.response.status = 204 ↔
        ReplayStored hmac settings (loadSecret environ envFile) args)) ∧
    db.rows.countP (fun row => row.deliveryId = args.id) ≤ 1 ∧
    ((∃ row ∈ db.rows, row.deliveryId = args.id) ↔
      ReplayStored hmac settings (loadSecret environ envFile) args) ∧
    (replayExit (loadSecret environ envFile) (getHealthz rt settings healthId).status args.id
        ((getEvents rt settings eventsId replayLimit db).body.content (eventsToJson iso)) = 0 ↔
      ReplayStored hmac settings (loadSecret environ envFile) args ∧
        -2 ^ 63 ≤ settings.eventsMaxLimit ∧ db.Shows settings args.id) := by
  have hcount := hreplayed.countP_rows_le hlimit hrun
  have hexists : (∃ row ∈ db.rows, row.deliveryId = args.id) ↔
      ReplayStored hmac settings (loadSecret environ envFile) args :=
    ⟨fun ⟨row, hrow, hid⟩ => (hreplayed.row hlimit hrun hrow hid).1,
      hreplayed.exists_row hlimit hrun⟩
  refine ⟨fun x hx hid => ?_, hcount, hexists, ?_⟩
  · obtain ⟨htimes, s, hs, hrequest⟩ := hreplayed.attempt hx hid
    rw [(rows_eq_winners hrun).2 x hx, ReplayArgs.row_isSome_iff hlimit hrequest]
    constructor
    · exact fun haccepted => ⟨htimes, s, hs, haccepted⟩
    · rintro ⟨-, t, ht, haccepted⟩
      obtain rfl := Option.some.inj (hs.symm.trans ht)
      exact haccepted
  · have hstamps : Timestamped db := timestamped_run hrun
    have hone : (listedRows settings replayLimit db).countP
        (fun row => row.deliveryId = args.id) = 1 ↔ db.Shows settings args.id := by
      have hle := (@countP_listedRows_le settings replayLimit db
        fun row => row.deliveryId = args.id).trans hcount
      rw [← exists_mem_listedRows_iff]
      constructor
      · intro h
        obtain ⟨row, hrow, hid⟩ := List.countP_pos_iff.mp (h ▸ Nat.one_pos)
        exact ⟨row, hrow, by simpa using hid⟩
      · rintro ⟨row, hrow, hid⟩
        exact le_antisymm hle (List.countP_pos_iff.mpr ⟨row, hrow, by simpa using hid⟩)
    have hhealth : (getHealthz rt settings healthId).status = 200 := rfl
    rw [replayExit_eq_zero_iff, hhealth, countMatching_getEvents hstamps]
    simp only [int64_capped_iff, Option.ite_none_right_eq_some, Option.some.injEq, hone]
    constructor
    · rintro ⟨-, -, -, hbound, hshown⟩
      obtain ⟨row, hrow, hid⟩ := exists_mem_listedRows_iff.mpr hshown
      exact ⟨hexists.mp ⟨row, mem_rows_of_mem_listedRows hrow, hid⟩, hbound, hshown⟩
    · rintro ⟨⟨htimes, s, hs, haccepted⟩, hbound, hshown⟩
      exact ⟨Option.isSome_of_mem hs, by decide, by decide, hbound, hshown⟩

/-- The script without arguments. -/
def replayDefault : ReplayArgs := .default ['1']

/-- The service's answer to an attempt, and the store after it. -/
def replayAttempt (db : Database) : WebhookResponse × Database :=
  postWebhook (fun _ _ => []) .reference .reference epoch ['1']
    (replayDefault.request (fun _ _ => []) "secret".toList) db

/-- The exchange of an attempt. -/
def replayExchange (db : Database) : Exchange :=
  ⟨epoch, ['1'], replayDefault.request (fun _ _ => []) "secret".toList, (replayAttempt db).1⟩

/-- The store after the first attempt. -/
def replayStore : Database := (replayAttempt .empty).2

/-- The second and the third attempt change nothing, and the script exits with 0. -/
theorem replayExit_default :
    replayStore.rows.countP (fun row => row.deliveryId = replayDefault.id) ≤ 1 ∧
      replayExit (loadSecret none (some "WEBHOOK_SECRET=secret\n".toList))
        (getHealthz .reference .reference ['2']).status replayDefault.id
        ((getEvents .reference .reference ['3'] replayLimit replayStore).body.content
          (eventsToJson fun _ => [])) = 0 := by
  have hagain : (replayAttempt replayStore).2 = replayStore := by
    ext1 <;> decide +kernel
  have hfirst : Run (webhookStep (fun _ _ => []) .reference .reference) .empty
      [replayExchange .empty] replayStore := Run.start.next (webhookStep_postWebhook ..)
  have hnext : webhookStep (fun _ _ => []) .reference .reference replayStore
      (replayExchange replayStore) (replayAttempt replayStore).2 := webhookStep_postWebhook ..
  rw [hagain] at hnext
  have hreplayed : Replayed (fun _ _ => [])
      (loadSecret none (some "WEBHOOK_SECRET=secret\n".toList)) replayDefault
      ([replayExchange .empty] ++ [replayExchange replayStore] ++
        [replayExchange replayStore]) := by
    unfold Replayed
    decide +kernel
  obtain ⟨-, hcount, -, hexit⟩ := replayExit_iff (by decide) ((hfirst.next hnext).next hnext)
    hreplayed (fun _ => []) ['2'] ['3']
  refine ⟨hcount, hexit.mpr ⟨⟨by decide, "secret".toList, by decide, rfl, Or.inr ⟨?_, ?_⟩⟩, ?_, ?_⟩⟩
  · exact ⟨_, PyStr.toText?_py "opened"⟩
  · decide
  · decide
  · unfold Database.Shows
    decide +kernel

end IssuesApi
