import IssuesApi.Lib.OrderBy
import IssuesApi.Lib.Outcome
import IssuesApi.Lib.Timestamp
import IssuesApi.Webhooks

/-!
# The delivery store (`app/store.py`)

A table is the list of its rows in rowid order.  The store has one connection, so a
`Database` is the durable table together with the rows of the open transaction, and every
statement of the connection sees both.  The primary key is a field: no database value
breaks it.

`EventStore.record` is two statements, an `INSERT OR IGNORE` and a commit, with an await
between them.  `insertOrIgnore` and `commit` are the two, and `record` is their sequence.
`recent` sorts by the text of the timestamp, bytewise, and by the rowid.
-/

namespace IssuesApi

/-! ## Rows -/

/-- A row of `webhook_events`. -/
structure Row where
  deliveryId : Text
  action : Text
  event : Text
  issueNumber : Option ℤ
  commentId : Option ℤ
  sender : Option Text
  receivedAt : Text
  payload : Text
  deriving DecidableEq

/-- `(delivery_id, action)`. -/
abbrev RowKey := Text × Text

/-- The primary key of a row. -/
def Row.key (row : Row) : RowKey := (row.deliveryId, row.action)

/-- The arguments of `record`. -/
structure Delivery where
  deliveryId : Text
  summary : WebhookSummary
  payload : List (PyStr × Json)

/-- What makes two deliveries the same: the id, and the action with a null one as `''`. -/
def Delivery.key (d : Delivery) : Text × PyStr := (d.deliveryId, d.summary.action.getD [])

/-- The key of the delivery that a row holds. -/
def Row.deliveryKey (row : Row) : Text × PyStr := (row.deliveryId, row.action.toPyStr)

/-- Binding a string; a lone surrogate raises `UnicodeEncodeError`. -/
def bindText (s : PyStr) : Except PyException Text :=
  match s.toText? with
  | some t => .ok t
  | none => raiseBuiltin .unicodeEncodeError

/-- Whether an integer is in SQLite's range. -/
def int64 (n : ℤ) : Bool := -2 ^ 63 ≤ n && n < 2 ^ 63

/-- Binding an integer; one beyond 64 bits raises `OverflowError`. -/
def bindInt (n : ℤ) : Except PyException ℤ :=
  if int64 n then .ok n else raiseBuiltin .overflowError

/-- Binding a nullable column. -/
def bindNullable {α β : Type} (bind : α → Except PyException β) :
    Option α → Except PyException (Option β)
  | none => .ok none
  | some value => (bind value).map some

/-- `json.dumps(payload, separators=(",", ":"))`. -/
def dumpPayload (rt : Runtime) (payload : List (PyStr × Json)) : Except PyException Text :=
  match rt.dumps (.obj payload) with
  | some t => .ok t
  | none => raiseBuiltin .recursionError

/-- The parameters of the `INSERT`, built and bound. -/
def rowOf (rt : Runtime) (now : Civil) (d : Delivery) : Except PyException Row := do
  let payload ← dumpPayload rt d.payload
  -- `action or ""`
  let action ← bindText (d.summary.action.getD [])
  let issueNumber ← bindNullable bindInt d.summary.issueNumber
  let commentId ← bindNullable bindInt d.summary.commentId
  let sender ← bindNullable bindText d.summary.sender
  return { deliveryId := d.deliveryId, action, event := d.summary.event, issueNumber, commentId,
           sender, receivedAt := now.isoformatUtc, payload }

lemma bindText_ok_iff {s : PyStr} {t : Text} : bindText s = .ok t ↔ s.toText? = some t := by
  unfold bindText
  cases s.toText? <;> simp [raiseBuiltin]

lemma bindInt_ok_iff {n m : ℤ} : bindInt n = .ok m ↔ int64 n = true ∧ m = n := by
  unfold bindInt
  split
  · next h => simp [h, eq_comm (a := m)]
  · next h => simp [h, raiseBuiltin]

/-- Binding a nullable column succeeds when binding its value does. -/
lemma exists_bindNullable_ok_iff {α β : Type} {bind : α → Except PyException β}
    {value : Option α} :
    (∃ bound, bindNullable bind value = .ok bound) ↔ ∀ v ∈ value, ∃ b, bind v = .ok b := by
  cases value with
  | none => simp [bindNullable]
  | some v =>
    simp only [bindNullable, Option.mem_def, Option.some.injEq, forall_eq']
    cases bind v with
    | ok b => simp [Except.map]
    | error e => simp [Except.map]

/-- What a summary and a payload need to fit into a row. -/
structure Storable (rt : Runtime) (summary : WebhookSummary) (payload : List (PyStr × Json)) :
    Prop where
  depth : (Json.obj payload).depth ≤ rt.encodeLimit
  action : ∃ t, PyStr.toText? (summary.action.getD []) = some t
  issueNumber : ∀ n ∈ summary.issueNumber, int64 n = true
  commentId : ∀ n ∈ summary.commentId, int64 n = true
  sender : ∀ s ∈ summary.sender, ∃ t, PyStr.toText? s = some t

lemma dumpPayload_ok_iff {rt : Runtime} {payload : List (PyStr × Json)} {t : Text} :
    dumpPayload rt payload = .ok t ↔ rt.dumps (.obj payload) = some t := by
  unfold dumpPayload
  cases rt.dumps (.obj payload) <;> simp [raiseBuiltin]

lemma exists_dumps_iff {rt : Runtime} {value : Json} :
    (∃ t, rt.dumps value = some t) ↔ value.depth ≤ rt.encodeLimit := by
  unfold Runtime.dumps
  split <;> simp_all

/-- The row holds the delivery received at `now`, column by column. -/
structure Row.Holds (rt : Runtime) (now : Civil) (d : Delivery) (row : Row) : Prop where
  deliveryId : row.deliveryId = d.deliveryId
  action : row.action.toPyStr = d.summary.action.getD []
  event : row.event = d.summary.event
  issueNumber : row.issueNumber = d.summary.issueNumber
  commentId : row.commentId = d.summary.commentId
  sender : row.sender.map Text.toPyStr = d.summary.sender
  receivedAt : row.receivedAt = now.isoformatUtc
  payload : rt.dumps (.obj d.payload) = some row.payload

lemma bindNullable_bindInt_ok {n m : Option ℤ} (h : bindNullable bindInt n = .ok m) : m = n := by
  cases n with
  | none => exact (Except.ok.inj h).symm
  | some k =>
    obtain ⟨j, hj, rfl⟩ := map_eq_ok.mp h
    rw [(bindInt_ok_iff.mp hj).2]

lemma bindNullable_bindText_ok {s : Option PyStr} {t : Option Text}
    (h : bindNullable bindText s = .ok t) : t.map Text.toPyStr = s := by
  cases s with
  | none => rw [← Except.ok.inj h]; rfl
  | some u =>
    obtain ⟨v, hv, rfl⟩ := map_eq_ok.mp h
    rw [PyStr.toText?_eq_some.mp (bindText_ok_iff.mp hv)]
    rfl

/-- The row that is built holds its delivery. -/
lemma rowOf_holds {rt : Runtime} {now : Civil} {d : Delivery} {row : Row}
    (h : rowOf rt now d = .ok row) : row.Holds rt now d := by
  obtain ⟨payload, hpayload, h⟩ := bind_eq_ok.mp h
  obtain ⟨action, haction, h⟩ := bind_eq_ok.mp h
  obtain ⟨issueNumber, hissue, h⟩ := bind_eq_ok.mp h
  obtain ⟨commentId, hcomment, h⟩ := bind_eq_ok.mp h
  obtain ⟨sender, hsender, h⟩ := bind_eq_ok.mp h
  obtain rfl := Except.ok.inj h
  exact ⟨rfl, (PyStr.toText?_eq_some.mp (bindText_ok_iff.mp haction)).symm, rfl,
    bindNullable_bindInt_ok hissue, bindNullable_bindInt_ok hcomment,
    bindNullable_bindText_ok hsender, rfl, dumpPayload_ok_iff.mp hpayload⟩

/-- The action as SQLite was given it. -/
lemma Row.Holds.toText?_action {rt : Runtime} {now : Civil} {d : Delivery} {row : Row}
    (h : row.Holds rt now d) : PyStr.toText? (d.summary.action.getD []) = some row.action :=
  PyStr.toText?_eq_some.mpr h.action.symm

/-- A row has the key of the delivery it holds. -/
lemma Row.Holds.deliveryKey {rt : Runtime} {now : Civil} {d : Delivery} {row : Row}
    (h : row.Holds rt now d) : row.deliveryKey = d.key :=
  Prod.ext h.deliveryId h.action

/-- Rows with one primary key are rows of one delivery. -/
lemma Row.deliveryKey_eq_iff {row row' : Row} :
    row.deliveryKey = row'.deliveryKey ↔ row.key = row'.key := by
  simp only [deliveryKey, key, Prod.mk.injEq, Text.toPyStr_injective.eq_iff]

/-- A row can be built exactly when every value fits. -/
lemma exists_rowOf_ok_iff {rt : Runtime} {now : Civil} {d : Delivery} :
    (∃ row, rowOf rt now d = .ok row) ↔ Storable rt d.summary d.payload := by
  constructor
  · rintro ⟨row, h⟩
    obtain ⟨payload, hpayload, h⟩ := bind_eq_ok.mp h
    obtain ⟨action, haction, h⟩ := bind_eq_ok.mp h
    obtain ⟨issueNumber, hissue, h⟩ := bind_eq_ok.mp h
    obtain ⟨commentId, hcomment, h⟩ := bind_eq_ok.mp h
    obtain ⟨sender, hsender, -⟩ := bind_eq_ok.mp h
    refine ⟨exists_dumps_iff.mp ⟨payload, dumpPayload_ok_iff.mp hpayload⟩,
      ⟨action, bindText_ok_iff.mp haction⟩, fun n hn => ?_, fun n hn => ?_, fun s hs => ?_⟩
    · obtain ⟨m, hm⟩ := exists_bindNullable_ok_iff.mp ⟨_, hissue⟩ n hn
      exact (bindInt_ok_iff.mp hm).1
    · obtain ⟨m, hm⟩ := exists_bindNullable_ok_iff.mp ⟨_, hcomment⟩ n hn
      exact (bindInt_ok_iff.mp hm).1
    · obtain ⟨t, ht⟩ := exists_bindNullable_ok_iff.mp ⟨_, hsender⟩ s hs
      exact ⟨t, bindText_ok_iff.mp ht⟩
  · intro h
    obtain ⟨payload, hpayload⟩ := exists_dumps_iff.mpr h.depth
    obtain ⟨action, haction⟩ := h.action
    obtain ⟨issueNumber, hissue⟩ := exists_bindNullable_ok_iff.mpr fun n hn =>
      ⟨n, bindInt_ok_iff.mpr ⟨h.issueNumber n hn, rfl⟩⟩
    obtain ⟨commentId, hcomment⟩ := exists_bindNullable_ok_iff.mpr fun n hn =>
      ⟨n, bindInt_ok_iff.mpr ⟨h.commentId n hn, rfl⟩⟩
    obtain ⟨sender, hsender⟩ := exists_bindNullable_ok_iff.mpr fun s hs =>
      (h.sender s hs).imp fun t ht => bindText_ok_iff.mpr ht
    refine ⟨⟨d.deliveryId, action, d.summary.event, issueNumber, commentId, sender,
      now.isoformatUtc, payload⟩, ?_⟩
    rw [rowOf, dumpPayload_ok_iff.mpr hpayload, ok_bind, bindText_ok_iff.mpr haction, ok_bind,
      hissue, ok_bind, hcomment, ok_bind, hsender]
    rfl

lemma bindText_builtin (s : PyStr) : OnlyBuiltin (bindText s) := by
  unfold bindText
  split
  · exact OnlyBuiltin.ok _
  · exact OnlyBuiltin.raise _

lemma bindInt_builtin (n : ℤ) : OnlyBuiltin (bindInt n) := by
  unfold bindInt
  split
  · exact OnlyBuiltin.ok _
  · exact OnlyBuiltin.raise _

lemma bindNullable_builtin {α β : Type} {bind : α → Except PyException β}
    (h : ∀ a, OnlyBuiltin (bind a)) : ∀ value, OnlyBuiltin (bindNullable bind value)
  | none => OnlyBuiltin.ok _
  | some a => (h a).map some

/-- A delivery that does not fit raises a built-in exception. -/
lemma rowOf_builtin (rt : Runtime) (now : Civil) (d : Delivery) :
    OnlyBuiltin (rowOf rt now d) := by
  have hdump : OnlyBuiltin (dumpPayload rt d.payload) := by
    unfold dumpPayload
    split
    · exact OnlyBuiltin.ok _
    · exact OnlyBuiltin.raise _
  refine hdump.bind fun _ => (bindText_builtin _).bind fun _ => ?_
  refine (bindNullable_builtin bindInt_builtin _).bind fun _ => ?_
  refine (bindNullable_builtin bindInt_builtin _).bind fun _ => ?_
  exact (bindNullable_builtin bindText_builtin _).bind fun _ => OnlyBuiltin.ok _

/-! ## The connection -/

/-- What the connection sees: the durable rows and those of its open transaction. -/
structure Database where
  durable : List Row
  pending : List Row
  primaryKey : ((durable ++ pending).map Row.key).Nodup

namespace Database

@[ext] lemma ext {db db' : Database} (hd : db.durable = db'.durable)
    (hp : db.pending = db'.pending) : db = db' := by
  cases db; cases db'; cases hd; cases hp; rfl

/-- The rows a statement of the connection reads. -/
def rows (db : Database) : List Row := db.durable ++ db.pending

/-- A freshly created file. -/
def empty : Database := ⟨[], [], by simp⟩

/-- Whether a row with the key is visible. -/
def has (db : Database) (key : RowKey) : Bool := db.rows.any (fun row => row.key = key)

lemma has_iff {db : Database} {key : RowKey} :
    db.has key = true ↔ ∃ row ∈ db.rows, row.key = key := by
  simp [has]

/-- A row whose key is new can be added to the open transaction. -/
lemma primaryKey_insert (db : Database) {row : Row} (h : db.has row.key = false) :
    ((db.durable ++ (db.pending ++ [row])).map Row.key).Nodup := by
  rw [← List.append_assoc, List.map_append, List.nodup_append]
  refine ⟨db.primaryKey, by simp, ?_⟩
  rintro key hkey key' hkey' rfl
  obtain ⟨row', hrow', rfl⟩ := List.mem_map.mp hkey
  have hnew : row'.key = row.key := by simpa using hkey'
  have : db.has row.key = true := has_iff.mpr ⟨row', hrow', hnew⟩
  simp [h] at this

/-- `INSERT OR IGNORE`; the result is `cursor.rowcount > 0`. -/
def insertOrIgnore (db : Database) (row : Row) : Bool × Database :=
  if h : db.has row.key then (false, db)
  else (true, ⟨db.durable, db.pending ++ [row], db.primaryKey_insert (by simpa using h)⟩)

/-- `commit`. -/
def commit (db : Database) : Database :=
  ⟨db.rows, [], by simpa [rows] using db.primaryKey⟩

/-- `close` and `connect` on the same file: an open transaction is lost. -/
def reconnect (db : Database) : Database :=
  ⟨db.durable, [], by
    have h := db.primaryKey
    rw [List.map_append, List.nodup_append] at h
    simpa using h.1⟩

/-! What each statement does to the two lists. -/

lemma insertOrIgnore_fst (db : Database) (row : Row) :
    (db.insertOrIgnore row).1 = !db.has row.key := by
  unfold insertOrIgnore
  split <;> simp_all

lemma insertOrIgnore_durable (db : Database) (row : Row) :
    (db.insertOrIgnore row).2.durable = db.durable := by
  unfold insertOrIgnore
  split <;> rfl

lemma insertOrIgnore_pending (db : Database) (row : Row) :
    (db.insertOrIgnore row).2.pending =
      if db.has row.key then db.pending else db.pending ++ [row] := by
  unfold insertOrIgnore
  split <;> simp_all

lemma insertOrIgnore_rows (db : Database) (row : Row) :
    (db.insertOrIgnore row).2.rows = if db.has row.key then db.rows else db.rows ++ [row] := by
  rw [rows, insertOrIgnore_durable, insertOrIgnore_pending]
  split <;> simp [rows]

@[simp] lemma commit_durable (db : Database) : db.commit.durable = db.rows := rfl

@[simp] lemma commit_pending (db : Database) : db.commit.pending = [] := rfl

@[simp] lemma commit_rows (db : Database) : db.commit.rows = db.rows := by
  simp [rows, commit]

/-- Reconnecting when no transaction is open changes nothing. -/
lemma reconnect_eq_self {db : Database} (h : db.pending = []) : db.reconnect = db := by
  ext1
  · rfl
  · simp [reconnect, h]

end Database

/-- `record` on values already bound. -/
def Database.recordRow (db : Database) (row : Row) : Bool × Database :=
  ((db.insertOrIgnore row).1, (db.insertOrIgnore row).2.commit)

/-- `EventStore.record`. -/
def record (rt : Runtime) (now : Civil) (d : Delivery) (db : Database) :
    Except PyException Bool × Database :=
  match rowOf rt now d with
  | .error e => (.error e, db)
  | .ok row => (.ok (db.recordRow row).1, (db.recordRow row).2)

/-- After recording a row its key is stored. -/
lemma Database.has_recordRow (db : Database) (row : Row) :
    (db.recordRow row).2.has row.key = true := by
  rw [has_iff, recordRow, commit_rows, insertOrIgnore_rows]
  split
  · next h => exact has_iff.mp h
  · exact ⟨row, by simp, rfl⟩

/-! ## The delivery log -/

/-- `StoredEvent`. -/
structure StoredEvent where
  id : Text
  event : Text
  action : Option Text
  issueNumber : Option ℤ
  timestamp : Text
  deriving DecidableEq

/-- What `recent` makes of a row. -/
def storedEvent (row : Row) : StoredEvent where
  id := row.deliveryId
  event := row.event
  -- `row["action"] or None`
  action := nonempty (some row.action)
  issueNumber := row.issueNumber
  timestamp := row.receivedAt

/-- `ORDER BY received_at DESC, rowid DESC`. -/
def Database.newestFirst (db : Database) : List Row :=
  orderByDesc (fun row => bytewise row.receivedAt) db.rows

/-- `EventStore.recent`. -/
def recent (limit : ℤ) (db : Database) : Except PyException (List StoredEvent) := do
  let limit ← bindInt limit
  return (limitTo limit db.newestFirst).map storedEvent

/-- `EventStore.count`. -/
def Database.count (db : Database) : ℕ := db.rows.length

@[simp] lemma Database.length_newestFirst (db : Database) :
    db.newestFirst.length = db.count := length_orderByDesc ..

lemma Database.mem_newestFirst {db : Database} {row : Row} :
    row ∈ db.newestFirst ↔ row ∈ db.rows := (orderByDesc_perm _ _).mem_iff

/-- `recent` succeeds exactly when SQLite can bind the limit. -/
lemma recent_ok_iff {limit : ℤ} {db : Database} {events : List StoredEvent} :
    recent limit db = .ok events ↔
      int64 limit = true ∧ events = (limitTo limit db.newestFirst).map storedEvent := by
  rw [recent, bind_eq_ok]
  constructor
  · rintro ⟨bound, hbound, h⟩
    obtain ⟨hlimit, rfl⟩ := bindInt_ok_iff.mp hbound
    exact ⟨hlimit, (Except.ok.inj h).symm⟩
  · rintro ⟨hlimit, rfl⟩
    exact ⟨limit, bindInt_ok_iff.mpr ⟨hlimit, rfl⟩, rfl⟩

/-- `json.loads(row["payload"])`. -/
def loadPayload (rt : Runtime) (row : Row) : Except PyException (Option Json) :=
  match loadsStr rt.recursionLimit row.payload.toPyStr with
  | .ok value => .ok (some value)
  | .error e => raiseBuiltin e.exception

/-- `EventStore.payload_for`, as the results it may have: `LIMIT 1` without an order may return
any row of the delivery. -/
def payloadFor (rt : Runtime) (deliveryId : Text) (db : Database) :
    List (Except PyException (Option Json)) :=
  if db.rows.any (fun row => row.deliveryId = deliveryId) then
    (db.rows.filter fun row => row.deliveryId = deliveryId).map (loadPayload rt)
  else [.ok none]

lemma mem_payloadFor {rt : Runtime} {deliveryId : Text} {db : Database}
    {answer : Except PyException (Option Json)} :
    answer ∈ payloadFor rt deliveryId db ↔
      (answer = .ok none ∧ ∀ row ∈ db.rows, row.deliveryId ≠ deliveryId) ∨
      ∃ row ∈ db.rows, row.deliveryId = deliveryId ∧ answer = loadPayload rt row := by
  unfold payloadFor
  split
  · next h =>
    obtain ⟨row, hrow, hid⟩ := List.any_eq_true.mp h
    have hnot : ¬ ∀ row ∈ db.rows, row.deliveryId ≠ deliveryId :=
      fun hall => hall row hrow (by simpa using hid)
    simp only [List.mem_map, List.mem_filter, decide_eq_true_eq, hnot, and_false, false_or,
      and_assoc, eq_comm (a := answer)]
  · next h =>
    have hall : ∀ row ∈ db.rows, row.deliveryId ≠ deliveryId := fun row hrow hid =>
      h (List.any_eq_true.mpr ⟨row, hrow, by simpa using hid⟩)
    rw [List.mem_singleton]
    constructor
    · exact fun hanswer => Or.inl ⟨hanswer, hall⟩
    · rintro (⟨hanswer, -⟩ | ⟨row, hrow, hid, -⟩)
      · exact hanswer
      · exact absurd hid (hall row hrow)

end IssuesApi
