import IssuesApi.EventStore
import IssuesApi.Lib.Simulation
import IssuesApi.Properties.StoredPayload

/-!
# The event store is a delivery log

What the store is for, without tables, keys in columns, texts of timestamps or JSON: a log of
deliveries with the instants they were received at, which takes every delivery once, lists them
newest first, and is there again in the next session.  `DeliveryLog` is that log, with the
deliveries that would be lost with the connection apart from the others.

`eventStore_isDeliveryLog` says that the two cannot be told apart: whatever sequence of
sessions, calls and crashes, an `EventStore` gives answers exactly when the log gives them.
-/

namespace IssuesApi

variable {rt : Runtime}

/-! ## The log -/

/-- A delivery and when it was received. -/
structure LogEntry where
  receivedAt : Civil
  delivery : Delivery

/-- The exception of the first value that cannot be stored. -/
def Delivery.refusal (rt : Runtime) (d : Delivery) : Option BuiltinError :=
  if rt.encodeLimit < (Json.obj d.payload).depth then some .recursionError
  else if PyStr.toText? (d.summary.action.getD []) = none then some .unicodeEncodeError
  else if ∃ n ∈ d.summary.issueNumber, int64 n = false then some .overflowError
  else if ∃ n ∈ d.summary.commentId, int64 n = false then some .overflowError
  else if ∃ s ∈ d.summary.sender, PyStr.toText? s = none then some .unicodeEncodeError
  else none

/-- How a listing shows an entry. -/
def LogEntry.shown (e : LogEntry) : StoredEvent where
  id := e.delivery.deliveryId
  event := e.delivery.summary.event
  action := nonempty (e.delivery.summary.action.bind PyStr.toText?)
  issueNumber := e.delivery.summary.issueNumber
  timestamp := e.receivedAt.isoformatUtc

/-- A log: whether it is kept between sessions, whether a session is on, and the entries that
outlive it and those that do not. -/
structure DeliveryLog where
  kept : Bool
  online : Bool
  saved : List LogEntry
  unsaved : List LogEntry

namespace DeliveryLog

def new (kept : Bool) : DeliveryLog := ⟨kept, false, [], []⟩

def entries (l : DeliveryLog) : List LogEntry := l.saved ++ l.unsaved

/-- Whether the log has no such delivery. -/
def isNew (l : DeliveryLog) (d : Delivery) : Bool := d.key ∉ l.entries.map (·.delivery.key)

/-- Take in a delivery, unless it is there. -/
def take (now : Civil) (d : Delivery) (l : DeliveryLog) : DeliveryLog :=
  if l.isNew d then { l with unsaved := l.unsaved ++ [⟨now, d⟩] } else l

def save (l : DeliveryLog) : DeliveryLog := { l with saved := l.entries, unsaved := [] }

/-- The end of a session. -/
def leave (l : DeliveryLog) : DeliveryLog :=
  ⟨l.kept, false, if l.kept then l.saved else [], []⟩

/-- What a log that is online answers. -/
def ask {α : Type} (l : DeliveryLog) (answer : Except BuiltinError α) : Except StoreError α :=
  if l.online then answer.mapError fun b => .raised (.builtin b) else .error .notConnected

def newestFirst (l : DeliveryLog) : List LogEntry :=
  orderByDesc (fun e => e.receivedAt.instant) l.entries

/-- The payloads under an id. -/
def payloads (l : DeliveryLog) (id : Text) : List (Option Json) :=
  if id ∈ l.entries.map (·.delivery.deliveryId) then
    (l.entries.filter fun e => e.delivery.deliveryId = id).map fun e =>
      some (Json.obj e.delivery.payload).rejoin
  else [none]

/-- Whether the log can be used so, with that result. -/
def allows (rt : Runtime) (l : DeliveryLog) : StoreCall → Prop
  | .connect => l.online = false
  | .close | .exit | .recordCut _ _ => True
  | .record _ d result => result = l.ask ((d.refusal rt).elim (.ok (l.isNew d)) .error)
  | .recent limit result => result = l.ask
      (if int64 limit then .ok ((limitTo limit l.newestFirst).map LogEntry.shown)
        else .error .overflowError)
  | .count result => result = l.ask (.ok l.entries.length)
  | .payloadFor id result => ∃ payload ∈ l.payloads id, result = l.ask (.ok payload)

/-- The log after a call. -/
def after (rt : Runtime) (l : DeliveryLog) : StoreCall → DeliveryLog
  | .connect => { l with online := true }
  | .close => if l.online then l.leave else l
  | .exit => l.leave
  | .record now d _ =>
    if l.online = true ∧ d.refusal rt = none then (l.take now d).save else l
  | .recordCut now d => if l.online = true ∧ d.refusal rt = none then l.take now d else l
  | .recent _ _ | .count _ | .payloadFor _ _ => l

lemma after_record (rt : Runtime) (l : DeliveryLog) (now : Civil) (d : Delivery)
    (result : Except StoreError Bool) :
    l.after rt (.record now d result) =
      if l.online = true ∧ d.refusal rt = none then (l.take now d).save else l := rfl

lemma after_recordCut (rt : Runtime) (l : DeliveryLog) (now : Civil) (d : Delivery) :
    l.after rt (.recordCut now d) =
      if l.online = true ∧ d.refusal rt = none then l.take now d else l := rfl

end DeliveryLog

/-- The log under its calls. -/
def logStep (rt : Runtime) (l : DeliveryLog) (call : StoreCall) (l' : DeliveryLog) : Prop :=
  l.allows rt call ∧ l' = l.after rt call

lemma DeliveryLog.mem_payloads {l : DeliveryLog} {id : Text} {payload : Option Json} :
    payload ∈ l.payloads id ↔
      (payload = none ∧ ∀ e ∈ l.entries, e.delivery.deliveryId ≠ id) ∨
      ∃ e ∈ l.entries, e.delivery.deliveryId = id ∧
        payload = some (Json.obj e.delivery.payload).rejoin := by
  unfold payloads
  split
  · next h =>
    obtain ⟨e, he, hid⟩ := List.mem_map.mp h
    have hnot : ¬ ∀ e ∈ l.entries, e.delivery.deliveryId ≠ id := fun hall => hall e he hid
    simp only [List.mem_map, List.mem_filter, decide_eq_true_eq, hnot, and_false, false_or,
      and_assoc, eq_comm (a := payload)]
  · next h =>
    have hall : ∀ e ∈ l.entries, e.delivery.deliveryId ≠ id := fun e he hid =>
      h (List.mem_map.mpr ⟨e, he, hid⟩)
    rw [List.mem_singleton]
    constructor
    · exact fun hpayload => Or.inl ⟨hpayload, hall⟩
    · rintro (⟨hpayload, -⟩ | ⟨e, he, hid, -⟩)
      · exact hpayload
      · exact absurd hid (hall e he)

/-- There is always an answer. -/
lemma DeliveryLog.exists_mem_payloads (l : DeliveryLog) (id : Text) :
    ∃ payload, payload ∈ l.payloads id := by
  by_cases h : ∀ e ∈ l.entries, e.delivery.deliveryId ≠ id
  · exact ⟨none, mem_payloads.mpr (Or.inl ⟨rfl, h⟩)⟩
  · push Not at h
    obtain ⟨e, he, hid⟩ := h
    exact ⟨_, mem_payloads.mpr (Or.inr ⟨e, he, hid, rfl⟩)⟩

/-! ## Entries as rows -/

/-- The row that holds an entry. -/
def LogEntry.row (rt : Runtime) (e : LogEntry) : Row where
  deliveryId := e.delivery.deliveryId
  action := (PyStr.toText? (e.delivery.summary.action.getD [])).getD []
  event := e.delivery.summary.event
  issueNumber := e.delivery.summary.issueNumber
  commentId := e.delivery.summary.commentId
  sender := e.delivery.summary.sender.bind PyStr.toText?
  receivedAt := e.receivedAt.isoformatUtc
  payload := dumpsWith .compact rt.floatRepr (.obj e.delivery.payload)

lemma bindNullable_int (n : Option ℤ) :
    bindNullable bindInt n =
      if ∃ m ∈ n, int64 m = false then .error (.builtin .overflowError) else .ok n := by
  cases n with
  | none => simp [bindNullable]
  | some m => cases h : int64 m <;> simp [bindNullable, bindInt, raiseBuiltin, Except.map, h]

lemma bindNullable_text (s : Option PyStr) :
    bindNullable bindText s =
      if ∃ t ∈ s, PyStr.toText? t = none then .error (.builtin .unicodeEncodeError)
      else .ok (s.bind PyStr.toText?) := by
  cases s with
  | none => simp [bindNullable]
  | some t =>
    cases h : PyStr.toText? t <;> simp [bindNullable, bindText, raiseBuiltin, Except.map, h]

/-- An entry has a row exactly when nothing in it is refused. -/
lemma rowOf_eq (e : LogEntry) :
    rowOf rt e.receivedAt e.delivery =
      (e.delivery.refusal rt).elim (.ok (e.row rt)) fun b => .error (.builtin b) := by
  unfold rowOf Delivery.refusal
  rw [bindNullable_int, bindNullable_int, bindNullable_text]
  by_cases hdepth : rt.encodeLimit < (Json.obj e.delivery.payload).depth
  · rw [if_pos hdepth, dumpPayload, Runtime.dumps, if_neg (by omega)]
    rfl
  · rw [if_neg hdepth, dumpPayload, Runtime.dumps, if_pos (by omega), dumps_eq_dumpsWith]
    cases haction : PyStr.toText? (e.delivery.summary.action.getD []) with
    | none =>
      rw [if_pos rfl, bindText, haction]
      rfl
    | some action =>
      simp only [bindText, haction, ok_bind, reduceCtorEq, if_false]
      split_ifs <;> simp [LogEntry.row, haction, pure, Except.pure]

/-- What can be stored has a text for its action. -/
lemma toText?_action {d : Delivery} (h : d.refusal rt = none) :
    ∃ action, PyStr.toText? (d.summary.action.getD []) = some action := by
  unfold Delivery.refusal at h
  split_ifs at h with _ haction
  exact Option.ne_none_iff_exists'.mp haction

/-- Rows have the same primary key when their deliveries are the same. -/
lemma row_key_eq_iff {e e' : LogEntry} (h : e.delivery.refusal rt = none)
    (h' : e'.delivery.refusal rt = none) :
    (e.row rt).key = (e'.row rt).key ↔ e.delivery.key = e'.delivery.key := by
  obtain ⟨action, haction⟩ := toText?_action h
  obtain ⟨action', haction'⟩ := toText?_action h'
  rw [Row.key, Row.key, Delivery.key, Delivery.key, Prod.mk.injEq, Prod.mk.injEq, LogEntry.row,
    LogEntry.row]
  refine and_congr_right' ?_
  rw [haction, haction', PyStr.toText?_eq_some.mp haction, PyStr.toText?_eq_some.mp haction',
    Option.getD_some, Option.getD_some]
  exact Text.toPyStr_injective.eq_iff.symm

/-- A row is listed as its entry is shown. -/
lemma storedEvent_row (rt : Runtime) (e : LogEntry) : storedEvent (e.row rt) = e.shown := by
  have haction : nonempty (some ((PyStr.toText? (e.delivery.summary.action.getD [])).getD [])) =
      nonempty (e.delivery.summary.action.bind PyStr.toText?) := by
    cases e.delivery.summary.action with
    | none => rfl
    | some s =>
      simp only [Option.getD_some, Option.bind_some]
      cases PyStr.toText? s <;> rfl
  simp only [storedEvent, LogEntry.shown, LogEntry.row, haction]

/-- Rows are sorted by their timestamps as entries are by their instants. -/
lemma orderByDesc_row (rt : Runtime) (entries : List LogEntry) :
    orderByDesc (fun row => bytewise row.receivedAt) (entries.map (LogEntry.row rt)) =
      (orderByDesc (fun e => e.receivedAt.instant) entries).map (LogEntry.row rt) := by
  have hcongr : ranked (fun e : LogEntry => bytewise (e.row rt).receivedAt) entries =
      ranked (fun e => e.receivedAt.instant) entries :=
    ranked_congr fun a _ b _ => bytewise_isoformatUtc_lt_iff a.receivedAt b.receivedAt
  rw [orderByDesc, ranked_map, hcongr, orderByDesc, List.map_map, List.map_map]
  rfl

/-! ## The store holds the log -/

/-- The delivery's payload was read from a body. -/
def Delivery.Parsed (rt : Runtime) (d : Delivery) : Prop := ∃ body, rt.payloadOf body d.payload

/-- The store holds the entries of the log, row by row. -/
structure StoresLog (rt : Runtime) (s : EventStore) (l : DeliveryLog) : Prop where
  kept : l.kept = !s.isPrivate
  online : l.online = s.connected
  saved : s.database.durable = l.saved.map (LogEntry.row rt)
  unsaved : s.database.pending = l.unsaved.map (LogEntry.row rt)
  accepted : ∀ e ∈ l.entries, e.delivery.refusal rt = none
  parsed : ∀ e ∈ l.entries, e.delivery.Parsed rt

namespace StoresLog

variable {s : EventStore} {l : DeliveryLog}

lemma rows (h : StoresLog rt s l) : s.database.rows = l.entries.map (LogEntry.row rt) := by
  rw [Database.rows, h.saved, h.unsaved, DeliveryLog.entries, List.map_append]

/-- A key is in the table when the delivery is in the log. -/
lemma has_eq (h : StoresLog rt s l) {now : Civil} {d : Delivery} (hd : d.refusal rt = none) :
    s.database.has (LogEntry.row rt ⟨now, d⟩).key = !l.isNew d := by
  rw [Bool.eq_iff_iff, Database.has_iff, h.rows]
  simp only [DeliveryLog.isNew, Bool.not_eq_true', decide_eq_false_iff_not, not_not, List.mem_map,
    exists_exists_and_eq_and]
  refine exists_congr fun e => and_congr_right fun he => ?_
  exact @row_key_eq_iff rt e ⟨now, d⟩ (h.accepted e he) hd

/-- `INSERT OR IGNORE` takes in the delivery. -/
lemma take (h : StoresLog rt s l) {now : Civil} {d : Delivery} (hd : d.refusal rt = none)
    (hparsed : d.Parsed rt) :
    StoresLog rt { s with database := (s.database.insertOrIgnore (LogEntry.row rt ⟨now, d⟩)).2 }
      (l.take now d) := by
  unfold DeliveryLog.take
  cases hnew : l.isNew d with
  | false =>
    have hhas : s.database.has (LogEntry.row rt ⟨now, d⟩).key = true := by
      rw [h.has_eq hd, hnew]
      rfl
    rw [if_neg Bool.false_ne_true]
    refine ⟨h.kept, h.online, ?_, ?_, h.accepted, h.parsed⟩
    · exact (Database.insertOrIgnore_durable ..).trans h.saved
    · rw [Database.insertOrIgnore_pending, if_pos hhas, h.unsaved]
  | true =>
    have hhas : s.database.has (LogEntry.row rt ⟨now, d⟩).key = false := by
      rw [h.has_eq hd, hnew]
      rfl
    rw [if_pos rfl]
    refine ⟨h.kept, h.online, ?_, ?_, ?_, ?_⟩
    · exact (Database.insertOrIgnore_durable ..).trans h.saved
    · rw [Database.insertOrIgnore_pending, hhas, if_neg Bool.false_ne_true, h.unsaved,
        List.map_append]
      rfl
    · rw [DeliveryLog.entries, ← List.append_assoc, List.forall_mem_append,
        List.forall_mem_singleton]
      exact ⟨h.accepted, hd⟩
    · rw [DeliveryLog.entries, ← List.append_assoc, List.forall_mem_append,
        List.forall_mem_singleton]
      exact ⟨h.parsed, hparsed⟩

/-- A commit saves what was taken in. -/
lemma save (h : StoresLog rt s l) :
    StoresLog rt { s with database := s.database.commit } l.save := by
  refine ⟨h.kept, h.online, h.rows, rfl, ?_, ?_⟩
  · simpa [DeliveryLog.save, DeliveryLog.entries] using h.accepted
  · simpa [DeliveryLog.save, DeliveryLog.entries] using h.parsed

/-- Without a connection the store has what the log keeps. -/
lemma leave (h : StoresLog rt s l) : StoresLog rt s.disconnect l.leave := by
  have hsaved : ∀ {p : LogEntry → Prop}, (∀ e ∈ l.entries, p e) →
      ∀ e ∈ l.leave.entries, p e := by
    intro p hall e he
    simp only [DeliveryLog.leave, DeliveryLog.entries, List.append_nil] at he
    split at he
    · exact hall e (List.mem_append_left _ he)
    · cases he
  refine ⟨h.kept, rfl, ?_, ?_, hsaved h.accepted, hsaved h.parsed⟩
  · simp only [EventStore.disconnect, DeliveryLog.leave, h.kept]
    cases s.isPrivate with
    | false => exact h.saved
    | true => rfl
  · simp only [EventStore.disconnect]
    cases s.isPrivate <;> rfl

/-! ## Answers -/

/-- A query is answered by the log. -/
lemma query_eq (h : StoresLog rt s l) {α : Type} {f : Database → Except PyException α}
    {answer : Except BuiltinError α} (hf : f s.database = answer.mapError .builtin) :
    s.query f = l.ask answer := by
  unfold EventStore.query EventStore.connection DeliveryLog.ask
  rw [h.online]
  cases s.connected with
  | false => rfl
  | true =>
    rw [if_pos rfl, if_pos rfl, ok_bind, hf]
    cases answer <;> rfl

lemma recent_eq (h : StoresLog rt s l) (limit : ℤ) :
    s.recent limit = l.ask
      (if int64 limit then .ok ((limitTo limit l.newestFirst).map LogEntry.shown)
        else .error .overflowError) := by
  apply h.query_eq
  rw [recent, bindInt]
  cases int64 limit with
  | false => rfl
  | true =>
    have hrows : s.database.newestFirst = l.newestFirst.map (LogEntry.row rt) := by
      rw [Database.newestFirst, h.rows, orderByDesc_row]
      rfl
    have hlimit : limitTo limit (l.newestFirst.map (LogEntry.row rt)) =
        (limitTo limit l.newestFirst).map (LogEntry.row rt) := by
      unfold limitTo
      split
      · rfl
      · rw [List.map_take]
    rw [if_pos rfl, if_pos rfl, ok_bind, hrows, hlimit, List.map_map]
    exact congrArg Except.ok (List.map_congr_left fun e _ => storedEvent_row rt e)

lemma count_eq (h : StoresLog rt s l) : s.count = l.ask (.ok l.entries.length) := by
  apply h.query_eq
  rw [Database.count, h.rows, List.length_map]
  rfl

/-- The payload of a stored entry is read back. -/
lemma loadPayload_row (hrepr : ReprReadsBack rt.floatRepr) (hlimit : 0 < rt.recursionLimit)
    {e : LogEntry} (haccepted : e.delivery.refusal rt = none) (hparsed : e.delivery.Parsed rt) :
    loadPayload rt (e.row rt) = .ok (some (Json.obj e.delivery.payload).rejoin) := by
  obtain ⟨body, hbody⟩ := hparsed
  apply loadPayload_of_dumps hrepr hlimit hbody
  unfold Delivery.refusal at haccepted
  split_ifs at haccepted with hdepth
  rw [Runtime.dumps, if_pos (not_lt.mp hdepth), dumps_eq_dumpsWith]
  rfl

lemma mem_payloadFor_iff (h : StoresLog rt s l) (hrepr : ReprReadsBack rt.floatRepr)
    (hlimit : 0 < rt.recursionLimit) {id : Text} {result : Except StoreError (Option Json)} :
    result ∈ s.payloadFor rt id ↔ ∃ payload ∈ l.payloads id, result = l.ask (.ok payload) := by
  unfold EventStore.payloadFor EventStore.connection DeliveryLog.ask
  rw [h.online]
  cases s.connected with
  | false =>
    rw [if_neg Bool.false_ne_true, List.mem_singleton]
    constructor
    · intro hresult
      exact (l.exists_mem_payloads id).imp fun _ hmem => ⟨hmem, hresult⟩
    · rintro ⟨_, -, hresult⟩
      exact hresult
  | true =>
    simp only [if_true, List.mem_map, mem_payloadFor, DeliveryLog.mem_payloads, h.rows]
    have hload : ∀ e ∈ l.entries, loadPayload rt (e.row rt) =
        .ok (some (Json.obj e.delivery.payload).rejoin) := fun e he =>
      loadPayload_row hrepr hlimit (h.accepted e he) (h.parsed e he)
    constructor
    · rintro ⟨answer, ⟨rfl, hnone⟩ | ⟨_, ⟨e, he, rfl⟩, hid, rfl⟩, rfl⟩
      · exact ⟨none, Or.inl ⟨rfl, fun e he => hnone _ ⟨e, he, rfl⟩⟩, rfl⟩
      · exact ⟨_, Or.inr ⟨e, he, hid, rfl⟩, by rw [hload e he]; rfl⟩
    · rintro ⟨payload, ⟨rfl, hnone⟩ | ⟨e, he, hid, rfl⟩, rfl⟩
      · refine ⟨_, Or.inl ⟨rfl, ?_⟩, rfl⟩
        rintro _ ⟨e, he, rfl⟩
        exact hnone e he
      · exact ⟨_, Or.inr ⟨_, ⟨e, he, rfl⟩, hid, rfl⟩, by rw [hload e he]; rfl⟩

/-! ## The refinement -/

lemma record_fst (h : StoresLog rt s l) (now : Civil) (d : Delivery) :
    (s.record rt now d).1 = l.ask ((d.refusal rt).elim (.ok (l.isNew d)) .error) := by
  have hrow := @rowOf_eq rt ⟨now, d⟩
  rw [DeliveryLog.ask, h.online]
  cases hon : s.connected with
  | false => rw [EventStore.record_offline hon, if_neg Bool.false_ne_true]
  | true =>
    rw [if_pos rfl]
    cases hd : d.refusal rt with
    | some b =>
      rw [hd] at hrow
      rw [EventStore.record_refused hon hrow]
      rfl
    | none =>
      rw [hd] at hrow
      rw [EventStore.record_row hon hrow, h.has_eq hd, Bool.not_not]
      rfl

lemma record_snd (h : StoresLog rt s l) (now : Civil) {d : Delivery} (hparsed : d.Parsed rt)
    (result : Except StoreError Bool) :
    StoresLog rt (s.record rt now d).2 (l.after rt (.record now d result)) := by
  have hrow := @rowOf_eq rt ⟨now, d⟩
  rw [DeliveryLog.after_record, h.online]
  cases hd : d.refusal rt with
  | some b =>
    rw [hd] at hrow
    rw [if_neg (by simp)]
    cases hon : s.connected with
    | false => rwa [EventStore.record_offline hon]
    | true => rwa [EventStore.record_refused hon hrow]
  | none =>
    rw [hd] at hrow
    cases hon : s.connected with
    | false => rwa [EventStore.record_offline hon, if_neg (by simp)]
    | true =>
      rw [EventStore.record_row hon hrow, if_pos ⟨rfl, rfl⟩]
      exact (h.take hd hparsed).save

lemma recordCut (h : StoresLog rt s l) (now : Civil) {d : Delivery} (hparsed : d.Parsed rt) :
    StoresLog rt (s.recordCut rt now d) (l.after rt (.recordCut now d)) := by
  have hrow := @rowOf_eq rt ⟨now, d⟩
  rw [DeliveryLog.after_recordCut, h.online]
  cases hd : d.refusal rt with
  | some b =>
    rw [hd] at hrow
    rwa [EventStore.recordCut_refused hrow, if_neg (by simp)]
  | none =>
    rw [hd] at hrow
    cases hon : s.connected with
    | false => rwa [EventStore.recordCut_offline hon, if_neg (by simp)]
    | true =>
      rw [EventStore.recordCut_row hon hrow, if_pos ⟨rfl, rfl⟩]
      exact h.take hd hparsed

end StoresLog

/-- A call of `record` brings a payload that was read from a body. -/
def StoreCall.Parsed (rt : Runtime) : StoreCall → Prop
  | .record _ d _ | .recordCut _ d => d.Parsed rt
  | _ => True

namespace StoresLog

variable {s : EventStore} {l : DeliveryLog}

/-- The store and the log give the same answers. -/
lemma allows_iff (h : StoresLog rt s l) (hrepr : ReprReadsBack rt.floatRepr)
    (hlimit : 0 < rt.recursionLimit) (call : StoreCall) :
    s.allows rt call ↔ l.allows rt call := by
  cases call with
  | connect => rw [EventStore.allows, DeliveryLog.allows, h.online]
  | close | exit | recordCut now d => exact Iff.rfl
  | record now d result =>
    rw [EventStore.allows, DeliveryLog.allows, h.record_fst, eq_comm]
  | recent limit result => rw [EventStore.allows, DeliveryLog.allows, h.recent_eq, eq_comm]
  | count result => rw [EventStore.allows, DeliveryLog.allows, h.count_eq, eq_comm]
  | payloadFor id result => exact h.mem_payloadFor_iff hrepr hlimit

/-- A call leaves the store with the log it leaves. -/
lemma after (h : StoresLog rt s l) {call : StoreCall} (hparsed : call.Parsed rt) :
    StoresLog rt (s.after rt call) (l.after rt call) := by
  cases call with
  | connect => exact ⟨h.kept, rfl, h.saved, h.unsaved, h.accepted, h.parsed⟩
  | close =>
    rw [EventStore.after, EventStore.close, DeliveryLog.after, h.online]
    split
    · exact h.leave
    · exact h
  | exit => exact h.leave
  | record now d result => exact h.record_snd now hparsed result
  | recordCut now d => exact h.recordCut now hparsed
  | recent _ _ | count _ | payloadFor _ _ => exact h

lemma new (rt : Runtime) (path : Text) :
    StoresLog rt (.new path) (.new !(EventStore.new path).isPrivate) :=
  ⟨rfl, rfl, rfl, rfl, by simp [DeliveryLog.new, DeliveryLog.entries],
    by simp [DeliveryLog.new, DeliveryLog.entries]⟩

end StoresLog

/-- **The event store is a delivery log.**  For every path, and every sequence of calls, ends of
sessions and crashes with their answers: the store can behave so exactly when a log can, which
is kept between sessions when the path names a file. -/
theorem eventStore_isDeliveryLog (hrepr : ReprReadsBack rt.floatRepr)
    (hlimit : 0 < rt.recursionLimit) (path : Text) {history : List StoreCall}
    (hparsed : ∀ call ∈ history, call.Parsed rt) :
    (∃ s, Run (storeStep rt) (.new path) history s) ↔
      ∃ l, Run (logStep rt) (.new !(EventStore.new path).isPrivate) history l := by
  refine histories_iff (R := StoresLog rt) ?_ ?_ (StoresLog.new rt path) hparsed
  · rintro s l call _ h hcall ⟨hallows, rfl⟩
    exact ⟨_, ⟨(h.allows_iff hrepr hlimit call).mp hallows, rfl⟩, h.after hcall⟩
  · rintro l s call _ h hcall ⟨hallows, rfl⟩
    exact ⟨_, ⟨(h.allows_iff hrepr hlimit call).mpr hallows, rfl⟩, h.after hcall⟩

/-- A ping and an opened issue are recorded, the process ends, and the next one knows both. -/
theorem eventStore_restart :
    ∃ l, Run (logStep .exact) (.new true)
      [.connect, .record epoch pingDelivery (.ok true), .record epoch openedDelivery (.ok true),
        .exit, .connect, .record epoch openedDelivery (.ok false),
        .recent 1 (.ok [⟨['2'], "issues".toList, some "opened".toList, some 7,
          epoch.isoformatUtc⟩]),
        .payloadFor ['2'] (.ok (some (.obj openedPayload))), .count (.ok 2)] l := by
  have hping : pingDelivery.Parsed .exact := ⟨[], Or.inl ⟨rfl, rfl⟩⟩
  have hopened : openedDelivery.Parsed .exact :=
    ⟨utf8Encode openedText.toList, Or.inr ⟨by decide +kernel,
      Runtime.loads_of_toOption (by decide +kernel)⟩⟩
  refine (eventStore_isDeliveryLog reprReadsBack_exactRepr (by decide) "events.db".toList ?_).mp
    ⟨_, ((((((((Run.start.next ⟨rfl, rfl⟩).next ⟨?_, rfl⟩).next ⟨?_, rfl⟩).next
      ⟨trivial, rfl⟩).next ⟨rfl, rfl⟩).next ⟨?_, rfl⟩).next ⟨?_, rfl⟩).next ⟨?_, rfl⟩).next
      ⟨?_, rfl⟩⟩
  · simp [StoreCall.Parsed, hping, hopened]
  all_goals simp only [EventStore.allows]; decide +kernel

/-! ## Once over all sessions -/

/-- The call ends the connection. -/
def StoreCall.Ends : StoreCall → Prop
  | .close | .exit => True
  | _ => False

/-- Nothing durable is lost, unless SQLite gives the database up with the connection. -/
lemma EventStore.durable_after {s : EventStore} {call : StoreCall}
    (h : s.isPrivate = true → ¬ call.Ends) :
    s.database.durable <+: (s.after rt call).database.durable := by
  have hinsert : ∀ row, s.database.durable <+: (s.database.insertOrIgnore row).2.rows := by
    intro row
    rw [Database.rows, Database.insertOrIgnore_durable]
    exact List.prefix_append _ _
  have hends : call.Ends → s.database.durable <+: s.disconnect.database.durable := by
    intro hcall
    have hfile : s.isPrivate = false := by
      cases hprivate : s.isPrivate with
      | false => rfl
      | true => exact absurd hcall (h hprivate)
    rw [disconnect, hfile]
    exact List.prefix_rfl
  cases call with
  | connect | recent _ _ | count _ | payloadFor _ _ => exact List.prefix_rfl
  | close =>
    rw [after, close]
    split
    · exact hends trivial
    · exact List.prefix_rfl
  | exit => exact hends trivial
  | record now d result =>
    rw [after]
    cases hon : s.connected with
    | false => rw [record_offline hon]
    | true =>
      cases hrow : rowOf rt now d with
      | error e => rw [record_refused hon hrow]
      | ok row =>
        rw [record_row hon hrow]
        exact hinsert row
  | recordCut now d =>
    rw [after]
    cases hon : s.connected with
    | false => rw [recordCut_offline hon]
    | true =>
      cases hrow : rowOf rt now d with
      | error e => rw [recordCut_refused hrow]
      | ok row =>
        rw [recordCut_row hon hrow]
        exact (Database.insertOrIgnore_durable ..).symm ▸ List.prefix_rfl

/-- A call of `record` that returns says whether the row is new, and the row is durable. -/
lemma EventStore.record_returns {s : EventStore} {now : Civil} {d : Delivery} {b : Bool}
    (h : (s.record rt now d).1 = .ok b) :
    ∃ row, rowOf rt now d = .ok row ∧ b = !s.database.has row.key ∧
      ∃ stored ∈ (s.record rt now d).2.database.durable, stored.key = row.key := by
  cases hon : s.connected with
  | false =>
    rw [record_offline hon] at h
    cases h
  | true =>
    cases hrow : rowOf rt now d with
    | error e =>
      rw [record_refused hon hrow] at h
      cases h
    | ok row =>
      rw [record_row hon hrow] at h ⊢
      refine ⟨row, rfl, (Except.ok.inj h).symm, ?_⟩
      obtain ⟨stored, hmem, hkey⟩ := Database.has_iff.mp (s.database.has_recordRow row)
      rw [Database.recordRow, Database.commit_rows] at hmem
      exact ⟨stored, hmem, hkey⟩

/-- The path does not change. -/
lemma EventStore.path_after (s : EventStore) (call : StoreCall) :
    (s.after rt call).path = s.path := by
  cases call with
  | connect | exit | recent _ _ | count _ | payloadFor _ _ => rfl
  | close =>
    rw [after, close]
    split <;> rfl
  | record now d result =>
    rw [after, record]
    split <;> rfl
  | recordCut now d =>
    rw [after, recordCut]
    split <;> rfl

/-- The rows of the same delivery have the same primary key. -/
lemma rowOf_key {now now' : Civil} {d d' : Delivery} {row row' : Row}
    (hrow : rowOf rt now d = .ok row) (hrow' : rowOf rt now' d' = .ok row')
    (hkey : d.key = d'.key) : row.key = row'.key := by
  rw [← Row.deliveryKey_eq_iff, (rowOf_holds hrow).deliveryKey, (rowOf_holds hrow').deliveryKey,
    hkey]

/-- What `record` returned for is durable, while it cannot have been lost. -/
lemma durable_of_returned {path : Text} {history : List StoreCall} {s : EventStore}
    (hrun : Run (storeStep rt) (.new path) history s) :
    s.path = path ∧ ∀ before now d b after, history = before ++ .record now d (.ok b) :: after →
      ((EventStore.new path).isPrivate = true → ∀ call ∈ after, ¬ call.Ends) →
      ∃ row, rowOf rt now d = .ok row ∧ ∃ stored ∈ s.database.durable, stored.key = row.key := by
  apply hrun.invariant
  · exact ⟨rfl, fun before now d b after h => by simp at h⟩
  · rintro history s call _ _ ⟨hpath, ih⟩ ⟨hallows, rfl⟩
    refine ⟨(s.path_after call).trans hpath, fun before now d b after hhistory hlost => ?_⟩
    have hsame : s.isPrivate = (EventStore.new path).isPrivate := by
      rw [EventStore.isPrivate, hpath]
      rfl
    rcases List.eq_nil_or_concat' after with rfl | ⟨after, last, rfl⟩
    · -- the call itself
      obtain ⟨-, rfl⟩ := List.append_singleton_inj.mp hhistory
      obtain ⟨row, hrow, -, hstored⟩ := EventStore.record_returns hallows
      exact ⟨row, hrow, hstored⟩
    · rw [← List.cons_append, ← List.append_assoc] at hhistory
      obtain ⟨hbefore, rfl⟩ := List.append_singleton_inj.mp hhistory
      obtain ⟨row, hrow, stored, hstored, hkey⟩ := ih before now d b after hbefore
        fun hprivate c hc => hlost hprivate c (List.mem_append_left _ hc)
      have hkeeps : s.database.durable <+: (s.after rt call).database.durable :=
        EventStore.durable_after fun hprivate => hlost (hsame ▸ hprivate) call (by simp)
      exact ⟨row, hrow, stored, hkeeps.subset hstored, hkey⟩

/-- **Once over all sessions.**  After any sequence of sessions, calls and crashes, `record`
reports a delivery as new only when it has not returned for that delivery before; or when SQLite
kept the database in the connection, and that has ended since. -/
theorem recorded_once {path : Text} {history : List StoreCall} {s : EventStore}
    (hrun : Run (storeStep rt) (.new path) history s) {now : Civil} {d : Delivery}
    (hnew : (s.record rt now d).1 = .ok true) :
    ∀ before now' d' b after, history = before ++ .record now' d' (.ok b) :: after →
      d'.key = d.key → (EventStore.new path).isPrivate = true ∧ ∃ call ∈ after, call.Ends := by
  intro before now' d' b after hhistory hkey
  by_contra hcon
  obtain ⟨row', hrow', stored, hstored, hsame⟩ := (durable_of_returned hrun).2 before now' d' b
    after hhistory fun hprivate call hcall hends => hcon ⟨hprivate, call, hcall, hends⟩
  obtain ⟨row, hrow, hfresh, -⟩ := EventStore.record_returns hnew
  have hhas : s.database.has row.key = true :=
    Database.has_iff.mpr ⟨stored, List.mem_append_left _ hstored,
      hsame.trans (rowOf_key hrow' hrow hkey)⟩
  simp [hhas] at hfresh

/-- In memory, a delivery is new again in the next session. -/
theorem recorded_once_memory :
    (EventStore.new ":memory:".toList).isPrivate = true ∧
      ∃ call ∈ [StoreCall.close, .connect], call.Ends := by
  have hrun : Run (storeStep .exact) (.new ":memory:".toList)
      [.connect, .record epoch pingDelivery (.ok true), .close, .connect]
      ((EventStore.new ":memory:".toList).connect.record .exact epoch
        pingDelivery).2.close.connect := by
    refine (((Run.start.next ⟨?_, rfl⟩).next ⟨?_, rfl⟩).next ⟨trivial, rfl⟩).next ⟨?_, rfl⟩
    all_goals rfl
  exact @recorded_once _ _ _ _ hrun epoch pingDelivery rfl [.connect] epoch pingDelivery
    true [.close, .connect] rfl rfl

end IssuesApi
