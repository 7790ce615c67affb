import IssuesApi.Properties.Deliveries

/-!
# What the log shows of a delivery, and how much of the log

Two results about `GET /events`.

`events_capped_iff` is about one request: it lists the newest rows, as many as the limit and the
configured cap allow, exactly when the cap is not negative.  A negative cap becomes a negative
`LIMIT`, which SQLite reads as none; only an empty store hides that.

`event_faithful_iff` is about runs: the record shown for an accepted delivery has the delivery's
id, event, action and issue number, in every later listing, exactly when the action is not the
empty string and the issue number is no boolean.  On its way to the log an empty action is
folded into the column's default and unfolded as null, and a boolean counts as an integer.
-/

namespace IssuesApi

variable {hmac : Hmac} {rt : Runtime} {settings : Settings}

/-! ## Timestamps -/

/-- Every timestamp in the store was written by `record`. -/
def Timestamped (db : Database) : Prop :=
  ∀ row ∈ db.rows, ∃ c : Civil, row.receivedAt = c.isoformatUtc

/-- A timestamped row can be shown. -/
lemma Timestamped.exists_record {db : Database} (h : Timestamped db) {row : Row}
    (hrow : row ∈ db.rows) : ∃ r, eventRecord (storedEvent row) = .ok r := by
  obtain ⟨c, hc⟩ := h row hrow
  exact ⟨_, eventRecord_ok_iff.mpr ⟨_, hc ▸ fromIsoformat_isoformatUtc c, rfl⟩⟩

/-- So can any list of them. -/
lemma Timestamped.exists_records {db : Database} (h : Timestamped db) {rows : List Row}
    (hrows : ∀ row ∈ rows, row ∈ db.rows) :
    ∃ records, List.Forall₂ (fun row r => eventRecord (storedEvent row) = .ok r) rows records := by
  induction rows with
  | nil => exact ⟨[], .nil⟩
  | cons row rows ih =>
    obtain ⟨r, hr⟩ := h.exists_record (hrows row (by simp))
    obtain ⟨records, hrecords⟩ := ih fun row hrow => hrows row (by simp [hrow])
    exact ⟨r :: records, .cons hr hrecords⟩

lemma timestamped_empty : Timestamped .empty := by
  simp [Timestamped, Database.empty, Database.rows]

/-- Requests keep the store timestamped. -/
lemma timestamped_step {db db' : Database} {x : Exchange} (h : Timestamped db)
    (hstep : webhookStep hmac rt settings db x db') : Timestamped db' := by
  unfold webhookStep postWebhook at hstep
  rcases receiveWebhook_cases hmac rt settings x.now x.request db with
    ⟨e, he⟩ | ⟨d, row, -, hrow, hok⟩
  · rw [he] at hstep
    obtain ⟨-, rfl⟩ := Prod.mk.inj hstep
    exact h
  · rw [hok] at hstep
    obtain ⟨-, rfl⟩ := Prod.mk.inj hstep
    intro r hr
    rcases mem_recordRow hr with hold | rfl
    · exact h r hold
    · exact ⟨x.now, (rowOf_holds hrow).receivedAt⟩

/-- Every store reached is timestamped. -/
lemma timestamped_run {history : List Exchange} {db : Database}
    (hrun : Run (webhookStep hmac rt settings) .empty history db) : Timestamped db := by
  apply hrun.invariant
  · exact timestamped_empty
  · intro _ _ _ _ _ h hstep
    exact timestamped_step h hstep

/-! ## The cap -/

/-- The answer is the records of the first `n` rows of the newest-first order. -/
def ListsNewest (n : ℕ) (db : Database) (outcome : Except PyException (List EventRecord)) : Prop :=
  ∃ records, outcome = .ok records ∧
    List.Forall₂ (fun row r => eventRecord (storedEvent row) = .ok r) (db.newestFirst.take n)
      records

/-- How many rows the documentation promises. -/
def promisedCount (settings : Settings) (p : EventsParams) (db : Database) : ℕ :=
  min (min p.limit (max 0 settings.eventsMaxLimit)).toNat db.count

/-- A cap that is not negative is what it says. -/
lemma listedRows_of_nonneg {p : EventsParams} {db : Database}
    (h : 0 ≤ settings.eventsMaxLimit) :
    listedRows settings p db = db.newestFirst.take (promisedCount settings p db) := by
  have hlimit := p.limit_valid
  rw [listedRows, limitTo_of_nonneg (by omega), promisedCount, max_eq_right h,
    ← db.length_newestFirst, ← List.take_eq_take_min]

/-- A negative one is no cap at all. -/
lemma listedRows_of_neg {p : EventsParams} {db : Database} (h : settings.eventsMaxLimit < 0) :
    listedRows settings p db = db.newestFirst := by
  rw [listedRows, limitTo_of_neg (by omega)]

lemma promisedCount_of_neg {p : EventsParams} {db : Database}
    (h : settings.eventsMaxLimit < 0) : promisedCount settings p db = 0 := by
  have hlimit := p.limit_valid
  rw [promisedCount, max_eq_left h.le]
  omega

/-- **When the cap is a hard cap.** -/
theorem events_capped_iff (settings : Settings) (p : EventsParams) {db : Database}
    (hstamps : Timestamped db) :
    ListsNewest (promisedCount settings p db) db (listEvents settings p db) ↔
      0 ≤ settings.eventsMaxLimit ∨ (-2 ^ 63 ≤ settings.eventsMaxLimit ∧ db.rows = []) := by
  have hlimit := p.limit_valid
  rcases le_or_gt 0 settings.eventsMaxLimit with hcap | hcap
  · refine iff_of_true ?_ (Or.inl hcap)
    have hrows : ∀ row ∈ db.newestFirst.take (promisedCount settings p db), row ∈ db.rows :=
      fun row hrow => Database.mem_newestFirst.mp (List.mem_of_mem_take hrow)
    obtain ⟨records, hrecords⟩ := hstamps.exists_records hrows
    refine ⟨records, listEvents_ok_iff.mpr ⟨?_, ?_⟩, hrecords⟩
    · simp only [int64, Bool.and_eq_true, decide_eq_true_eq]
      omega
    · rwa [listedRows_of_nonneg hcap]
  · have hmin : min p.limit settings.eventsMaxLimit = settings.eventsMaxLimit := by omega
    have hint : int64 settings.eventsMaxLimit = true ↔ -2 ^ 63 ≤ settings.eventsMaxLimit := by
      simp only [int64, Bool.and_eq_true, decide_eq_true_eq]
      omega
    rw [ListsNewest, promisedCount_of_neg hcap, List.take_zero]
    simp only [listEvents_ok_iff, hmin, hint, listedRows_of_neg hcap, List.forall₂_nil_left_iff]
    -- the answer would have to be empty, but it has a record for every row
    constructor
    · rintro ⟨records, ⟨hbound, hall⟩, rfl⟩
      refine Or.inr ⟨hbound, List.length_eq_zero_iff.mp ?_⟩
      rw [← Database.count, ← db.length_newestFirst, hall.length_eq, List.length_nil]
    · rintro (hnonneg | ⟨hbound, hempty⟩)
      · omega
      · refine ⟨[], ⟨hbound, ?_⟩, rfl⟩
        rw [List.forall₂_nil_right_iff, ← List.length_eq_zero_iff, db.length_newestFirst,
          Database.count, hempty, List.length_nil]

/-- The configuration with `EVENTS_MAX_LIMIT=1`. -/
def Settings.capped : Settings := { Settings.reference with eventsMaxLimit := 1 }

/-- Of the two deliveries of `openedStore` a cap of 1 shows the newer. -/
theorem events_capped_opened :
    promisedCount .capped .default openedStore = 1 ∧
      ListsNewest 1 openedStore (listEvents .capped .default openedStore) := by
  have hstamps : Timestamped openedStore := timestamped_run openedRun
  have hcount : promisedCount .capped .default openedStore = 1 := by decide +kernel
  refine ⟨hcount, ?_⟩
  have hlists := (events_capped_iff .capped .default hstamps).mpr (Or.inl (by decide))
  rwa [hcount] at hlists

/-- The configuration with `EVENTS_MAX_LIMIT=-1`. -/
def Settings.uncapped : Settings := { Settings.reference with eventsMaxLimit := -1 }

/-- A cap of -1 promises no row, and both stored deliveries are listed. -/
theorem events_not_capped :
    promisedCount .uncapped .default openedStore = 0 ∧
      ¬ ListsNewest 0 openedStore (listEvents .uncapped .default openedStore) := by
  refine ⟨by decide +kernel, ?_⟩
  rintro ⟨records, hlist, hall⟩
  obtain rfl : records = [] := List.forall₂_nil_left_iff.mp hall
  have hlength : (listEvents .uncapped .default openedStore).toOption.map List.length = some 2 := by
    decide +kernel
  rw [hlist] at hlength
  cases hlength

/-! ## The record of a delivery -/

/-- A JSON integer; a boolean is none. -/
def jsonInt : Option Json → Option ℤ
  | some (.int n) => some n
  | _ => none

/-- The record shows what was delivered. -/
structure Faithful (id event : Text) (payload : List (PyStr × Json)) (r : EventRecord) :
    Prop where
  id : r.id = id
  event : r.event = event
  action : r.action.map Text.toPyStr = asStr (dictGet payload "action")
  issueNumber : r.issueNumber = jsonInt (getIfDict (dictGet payload "issue") "number")

/-- The payload has nothing that is stored as something else. -/
def Unambiguous (payload : List (PyStr × Json)) : Prop :=
  dictGet payload "action" ≠ some (.str []) ∧
    ∀ b, getIfDict (dictGet payload "issue") "number" ≠ some (.bool b)

/-- A request that was answered 204 and added a row. -/
structure AcceptedAsNew (hmac : Hmac) (rt : Runtime) (settings : Settings) (db : Database)
    (x : Exchange) (db' : Database) (id event : Text) (payload : List (PyStr × Json)) :
    Prop where
  step : webhookStep hmac rt settings db x db'
  answered : x.response.status = 204
  new : db'.rows ≠ db.rows
  deliveryId : x.request.deliveryId = some id
  event : x.request.event = some event
  payload : rt.payloadOf x.request.body payload

/-- Two deliveries agree in what the log shows of a delivery. -/
def SameFields (id₁ event₁ : Text) (payload₁ : List (PyStr × Json)) (id₂ event₂ : Text)
    (payload₂ : List (PyStr × Json)) : Prop :=
  id₁ = id₂ ∧ event₁ = event₂ ∧
    asStr (dictGet payload₁ "action") = asStr (dictGet payload₂ "action") ∧
    jsonInt (getIfDict (dictGet payload₁ "issue") "number") =
      jsonInt (getIfDict (dictGet payload₂ "issue") "number")

/-- Faithful records that differ in the timestamp only are of deliveries that agree. -/
lemma Faithful.sameFields {id₁ id₂ event₁ event₂ : Text} {payload₁ payload₂ : List (PyStr × Json)}
    {r₁ r₂ : EventRecord} (h₁ : Faithful id₁ event₁ payload₁ r₁)
    (h₂ : Faithful id₂ event₂ payload₂ r₂)
    (hsame : { r₁ with timestamp := r₂.timestamp } = r₂) :
    SameFields id₁ event₁ payload₁ id₂ event₂ payload₂ := by
  rw [← hsame] at h₂
  exact ⟨h₁.id.symm.trans h₂.id, h₁.event.symm.trans h₂.event, h₁.action.symm.trans h₂.action,
    h₁.issueNumber.symm.trans h₂.issueNumber⟩

/-- The column's default and an empty action look alike. -/
lemma shown_action_iff {value : Option Json} {action : Text}
    (h : PyStr.toText? ((asStr value).getD []) = some action) :
    (nonempty (some action)).map Text.toPyStr = asStr value ↔ value ≠ some (.str []) := by
  rw [PyStr.toText?_eq_some] at h
  have hstr : value ≠ some (.str []) ↔ asStr value ≠ some [] := by
    rcases value with - | (_ | _ | _ | _ | s | _ | _) <;> simp [asStr]
  rw [hstr]
  cases hvalue : asStr value with
  | none =>
    rw [hvalue] at h
    obtain rfl : action = [] := by simpa [Text.toPyStr] using h.symm
    simp [nonempty]
  | some s =>
    rw [hvalue] at h
    obtain rfl : s = action.toPyStr := h
    cases action with
    | nil => simp [nonempty, Text.toPyStr]
    | cons c t => simp [nonempty, Text.toPyStr]

/-- A boolean looks like the integer it equals. -/
lemma shown_issueNumber_iff {value : Option Json} :
    asInt value = jsonInt value ↔ ∀ b, value ≠ some (.bool b) := by
  rcases value with - | (_ | _ | _ | _ | _ | _ | _) <;> simp [asInt, jsonInt]

lemma payloadOf_unique {body : Bytes} {payload payload' : List (PyStr × Json)}
    (h : rt.payloadOf body payload) (h' : rt.payloadOf body payload') : payload = payload' := by
  rcases h with ⟨hnil, rfl⟩ | ⟨hne, h⟩
  · rcases h' with ⟨-, rfl⟩ | ⟨hne, -⟩
    · rfl
    · exact absurd hnil hne
  · rcases h' with ⟨hnil, -⟩ | ⟨-, h'⟩
    · exact absurd hnil hne
    · rw [h] at h'
      exact Json.obj.inj (Except.ok.inj h')

/-- The row an accepted delivery adds. -/
lemma AcceptedAsNew.exists_row {db db' : Database} {x : Exchange} {id event : Text}
    {payload : List (PyStr × Json)}
    (h : AcceptedAsNew hmac rt settings db x db' id event payload) :
    ∃ row, db'.rows = db.rows ++ [row] ∧ row.deliveryId = id ∧ row.event = event ∧
      PyStr.toText? ((asStr (dictGet payload "action")).getD []) = some row.action ∧
      row.issueNumber = asInt (getIfDict (dictGet payload "issue") "number") := by
  have hstep := h.step
  unfold webhookStep postWebhook at hstep
  rcases receiveWebhook_cases hmac rt settings x.now x.request db with
    ⟨e, he⟩ | ⟨d, row, hd, hrow, hok⟩
  · rw [he] at hstep
    obtain ⟨-, rfl⟩ := Prod.mk.inj hstep
    exact absurd rfl h.new
  · rw [hok] at hstep
    obtain ⟨-, rfl⟩ := Prod.mk.inj hstep
    obtain ⟨-, hevent, -, hid, -, hpayload, -, hsummary⟩ := verifiedDelivery_ok_iff.mp hd
    have hholds := rowOf_holds hrow
    have haction := hholds.toText?_action
    have hnumber := hholds.issueNumber
    obtain rfl := payloadOf_unique hpayload h.payload
    rw [hsummary] at haction hnumber
    refine ⟨row, ?_, ?_, ?_, haction, hnumber⟩
    · have hrows : (db.recordRow row).2.rows =
          if db.has row.key then db.rows else db.rows ++ [row] := by
        rw [Database.recordRow, Database.commit_rows, Database.insertOrIgnore_rows]
      by_cases hhas : db.has row.key = true
      · rw [if_pos hhas] at hrows
        exact absurd hrows h.new
      · rw [hrows, if_neg hhas]
    · exact hholds.deliveryId.trans (Option.some.inj (hid.symm.trans h.deliveryId))
    · exact hholds.event.trans (Option.some.inj (hevent.symm.trans h.event))

/-- Requests keep rows. -/
lemma webhookStep_keepsRows {db db' : Database} {x : Exchange}
    (h : webhookStep hmac rt settings db x db') : db.rows <+: db'.rows := by
  rcases webhookStep_cases h with rfl | ⟨-, row, -, rfl⟩
  · exact List.prefix_rfl
  · rw [Database.recordRow, Database.commit_rows, Database.insertOrIgnore_rows]
    split
    · exact List.prefix_rfl
    · exact List.prefix_append _ _

/-- In a listing, what is shown for a delivery's row is faithful exactly when the payload is
unambiguous. -/
lemma faithful_iff {row : Row} {r : EventRecord} {payload : List (PyStr × Json)}
    (hr : eventRecord (storedEvent row) = .ok r)
    (haction : PyStr.toText? ((asStr (dictGet payload "action")).getD []) = some row.action)
    (hnumber : row.issueNumber = asInt (getIfDict (dictGet payload "issue") "number")) :
    Faithful row.deliveryId row.event payload r ↔ Unambiguous payload := by
  obtain ⟨timestamp, -, rfl⟩ := eventRecord_ok_iff.mp hr
  constructor
  · intro h
    exact ⟨(shown_action_iff haction).mp h.action,
      shown_issueNumber_iff.mp (hnumber.symm.trans h.issueNumber)⟩
  · rintro ⟨hact, hnum⟩
    exact ⟨rfl, rfl, (shown_action_iff haction).mpr hact,
      hnumber.trans (shown_issueNumber_iff.mpr hnum)⟩

/-- **When the log shows what was delivered.**  A request accepted as new adds a row, which
every later store holds; and in every later listing the record of that row shows the delivery
exactly when its payload is unambiguous.  Deliveries that are shown as they were sent, and with
the same values, agree in all of them. -/
theorem event_faithful_iff {db db' : Database} {x : Exchange} {id event : Text}
    {payload : List (PyStr × Json)}
    (h : AcceptedAsNew hmac rt settings db x db' id event payload) :
    (∃ row, db'.rows = db.rows ++ [row] ∧
      ∀ history later, Run (webhookStep hmac rt settings) db' history later →
        row ∈ later.rows ∧
        ∀ settings' p records, listEvents settings' p later = .ok records →
          List.Forall₂ (fun shown r =>
            shown = row → (Faithful id event payload r ↔ Unambiguous payload))
            (listedRows settings' p later) records) ∧
    ∀ id₂ event₂ payload₂ r r₂, Faithful id event payload r →
      Faithful id₂ event₂ payload₂ r₂ → { r with timestamp := r₂.timestamp } = r₂ →
      SameFields id event payload id₂ event₂ payload₂ := by
  refine ⟨?_, fun id₂ event₂ payload₂ r r₂ => Faithful.sameFields⟩
  obtain ⟨row, hrows, rfl, rfl, haction, hnumber⟩ := h.exists_row
  refine ⟨row, hrows, fun history later hrun => ⟨?_, fun settings' p records hlist => ?_⟩⟩
  · have hprefix : db'.rows <+: later.rows := by
      apply hrun.invariant (I := fun _ later => db'.rows <+: later.rows) List.prefix_rfl
      intro _ _ _ _ _ ih hstep
      exact ih.trans (webhookStep_keepsRows hstep)
    exact hprefix.subset (by simp [hrows])
  · refine (listEvents_ok_iff.mp hlist).2.imp ?_
    rintro shown r hr rfl
    exact faithful_iff hr haction hnumber

/-! The opened issue of `openedExchange`, and a delivery whose action is the empty string. -/

lemma openedAccepted :
    AcceptedAsNew (fun _ _ => []) .reference .reference pingStore openedExchange openedStore ['2']
      "issues".toList openedPayload where
  step := openedStep
  answered := by decide +kernel
  new := by decide +kernel
  deliveryId := rfl
  event := rfl
  payload := Or.inr ⟨by decide +kernel, Runtime.loads_of_toOption (by decide +kernel)⟩

/-- The records of the ping and of the issue. -/
def pingRecord : EventRecord := ⟨['1'], "ping".toList, none, none, ⟨epoch, some 0⟩⟩

def openedRecord : EventRecord :=
  ⟨['2'], "issues".toList, some "opened".toList, some 7, ⟨epoch, some 0⟩⟩

/-- The issue is shown as it was sent. -/
theorem event_faithful_opened :
    listEvents .reference .default openedStore = .ok [openedRecord, pingRecord] ∧
      Faithful ['2'] "issues".toList openedPayload openedRecord := by
  have hlist : listEvents .reference .default openedStore = .ok [openedRecord, pingRecord] := by
    decide +kernel
  obtain ⟨⟨row, hrows, hlater⟩, -⟩ := event_faithful_iff openedAccepted
  have hshown := (hlater [] openedStore Run.start).2 .reference .default _ hlist
  obtain ⟨shown, rest, hr, -, hlisted⟩ := List.forall₂_cons_right_iff.mp hshown
  refine ⟨hlist, (hr ?_).mpr ⟨by decide, by decide⟩⟩
  -- the first row listed is the newer one
  have hfirst : (listedRows .reference .default openedStore).head? = openedStore.rows.getLast? := by
    decide +kernel
  rw [hlisted, hrows] at hfirst
  simpa using hfirst

/-- A signed `issues` delivery whose action is the empty string. -/
def emptyActionRequest : WebhookRequest :=
  signedRequest (fun _ _ => []) "secret".toList (utf8Encode "\x7b\"action\":\"\"\x7d".toList)
    (some "issues".toList) (some ['1'])

/-- Its answer and the store after it. -/
def emptyActionAnswer : WebhookResponse × Database :=
  postWebhook (fun _ _ => []) .reference .reference epoch ['1'] emptyActionRequest .empty

/-- How it is shown: with a null action. -/
def emptyActionRecord : EventRecord :=
  ⟨['1'], "issues".toList, none, none, ⟨epoch, some 0⟩⟩

/-- It is accepted as new, and shown without its action. -/
theorem empty_action_not_faithful :
    AcceptedAsNew (fun _ _ => []) .reference .reference .empty
      ⟨epoch, ['1'], emptyActionRequest, emptyActionAnswer.1⟩ emptyActionAnswer.2 ['1']
      "issues".toList [(py "action", .str [])] ∧
    listEvents .reference .default emptyActionAnswer.2 = .ok [emptyActionRecord] ∧
    ¬ Faithful ['1'] "issues".toList [(py "action", .str [])] emptyActionRecord := by
  refine ⟨⟨webhookStep_postWebhook .., by decide +kernel, by decide +kernel, rfl, rfl, ?_⟩,
    by decide +kernel, fun h => ?_⟩
  · exact Or.inr ⟨by decide +kernel, Runtime.loads_of_toOption (by decide +kernel)⟩
  · have haction := h.action
    revert haction
    decide

end IssuesApi
