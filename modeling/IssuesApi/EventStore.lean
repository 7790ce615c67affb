import IssuesApi.Lib.Transition
import IssuesApi.Store

/-!
# The life of an event store (`app/store.py`, `app/main.py`)

An `EventStore` is built for a path, connected, used, and closed.  Its methods go through the
property `connection`, which raises before the first connection and after the last.  What the
path holds outlives a connection when it names a file, and nothing of it does when SQLite makes
the database private to the connection.

A call of `record` can also be cut short between its two statements, when its task is
cancelled; the row is then part of an open transaction.  The process can end at any time.
-/

namespace IssuesApi

/-- What a method of the store can raise. -/
inductive StoreError where
  /-- `RuntimeError("EventStore.connect() must be awaited before use")`. -/
  | notConnected
  | raised (e : PyException)
  deriving DecidableEq

/-- An `EventStore`.  The database is what a connection to the path sees; without a connection
it has no open transaction. -/
structure EventStore where
  path : Text
  connected : Bool
  database : Database

namespace EventStore

/-- `EventStore(path)`, where the path holds no table yet. -/
def new (path : Text) : EventStore := ⟨path, false, .empty⟩

/-- SQLite keeps the database of these paths in the connection. -/
def isPrivate (s : EventStore) : Bool := s.path = ":memory:".toList || s.path = []

/-- The property `connection`. -/
def connection (s : EventStore) : Except StoreError Database :=
  if s.connected then .ok s.database else .error .notConnected

/-- `connect`, which `__aenter__` calls. -/
def connect (s : EventStore) : EventStore := { s with connected := true }

/-- The connection ends, and with it its open transaction. -/
def disconnect (s : EventStore) : EventStore :=
  { s with connected := false, database := if s.isPrivate then .empty else s.database.reconnect }

/-- `close`, which `__aexit__` calls. -/
def close (s : EventStore) : EventStore := if s.connected then s.disconnect else s

/-- A query on the connection. -/
def query {α : Type} (s : EventStore) (f : Database → Except PyException α) :
    Except StoreError α := do
  let db ← s.connection
  (f db).mapError .raised

/-- `record`. -/
def record (rt : Runtime) (now : Civil) (d : Delivery) (s : EventStore) :
    Except StoreError Bool × EventStore :=
  match s.connection with
  | .error e => (.error e, s)
  | .ok db =>
    let answer := IssuesApi.record rt now d db
    (answer.1.mapError .raised, { s with database := answer.2 })

/-- `record`, cut short between its two statements. -/
def recordCut (rt : Runtime) (now : Civil) (d : Delivery) (s : EventStore) : EventStore :=
  match s.connection, rowOf rt now d with
  | .ok db, .ok row => { s with database := (db.insertOrIgnore row).2 }
  | _, _ => s

/-! What a call of `record` does, case by case. -/

section Record

variable {rt : Runtime} {now : Civil} {d : Delivery} {s : EventStore} {row : Row}

lemma record_offline (h : s.connected = false) :
    s.record rt now d = (.error .notConnected, s) := by
  simp [record, connection, h]

lemma record_refused (h : s.connected = true) {e : PyException}
    (hrow : rowOf rt now d = .error e) : s.record rt now d = (.error (.raised e), s) := by
  rw [record, connection, if_pos h]
  simp only [IssuesApi.record, hrow]
  rfl

lemma record_row (h : s.connected = true) (hrow : rowOf rt now d = .ok row) :
    s.record rt now d = (.ok (!s.database.has row.key),
      { s with database := (s.database.insertOrIgnore row).2.commit }) := by
  rw [record, connection, if_pos h]
  simp only [IssuesApi.record, hrow, Database.recordRow, Database.insertOrIgnore_fst]
  rfl

lemma recordCut_offline (h : s.connected = false) : s.recordCut rt now d = s := by
  simp [recordCut, connection, h]

lemma recordCut_refused {e : PyException} (hrow : rowOf rt now d = .error e) :
    s.recordCut rt now d = s := by
  simp [recordCut, hrow]

lemma recordCut_row (h : s.connected = true) (hrow : rowOf rt now d = .ok row) :
    s.recordCut rt now d = { s with database := (s.database.insertOrIgnore row).2 } := by
  rw [recordCut, connection, if_pos h]
  simp only [hrow]

end Record

/-- `recent`. -/
def recent (limit : ℤ) (s : EventStore) : Except StoreError (List StoredEvent) :=
  s.query (IssuesApi.recent limit)

/-- `count`. -/
def count (s : EventStore) : Except StoreError ℕ := s.query fun db => .ok db.count

/-- `payload_for`, as the results it may have. -/
def payloadFor (rt : Runtime) (deliveryId : Text) (s : EventStore) :
    List (Except StoreError (Option Json)) :=
  match s.connection with
  | .error e => [.error e]
  | .ok db => (IssuesApi.payloadFor rt deliveryId db).map fun answer => answer.mapError .raised

end EventStore

/-! ## Sessions -/

/-- A use of the store, with what it returned or raised. -/
inductive StoreCall where
  | connect
  | close
  | exit
  | record (now : Civil) (delivery : Delivery) (result : Except StoreError Bool)
  | recordCut (now : Civil) (delivery : Delivery)
  | recent (limit : ℤ) (result : Except StoreError (List StoredEvent))
  | count (result : Except StoreError ℕ)
  | payloadFor (deliveryId : Text) (result : Except StoreError (Option Json))

namespace EventStore

/-- Whether the store can be used so, with that result.  It is connected when it has no
connection, as the lifespan handler does. -/
def allows (rt : Runtime) (s : EventStore) : StoreCall → Prop
  | .connect => s.connected = false
  | .close | .exit | .recordCut _ _ => True
  | .record now d result => (s.record rt now d).1 = result
  | .recent limit result => s.recent limit = result
  | .count result => s.count = result
  | .payloadFor id result => result ∈ s.payloadFor rt id

/-- The store after a call.  When the process ends, the next one has the same path. -/
def after (rt : Runtime) (s : EventStore) : StoreCall → EventStore
  | .connect => s.connect
  | .close => s.close
  | .exit => s.disconnect
  | .record now d _ => (s.record rt now d).2
  | .recordCut now d => s.recordCut rt now d
  | .recent _ _ | .count _ | .payloadFor _ _ => s

end EventStore

/-- The store under its calls, one after the other. -/
def storeStep (rt : Runtime) (s : EventStore) (call : StoreCall) (t : EventStore) : Prop :=
  s.allows rt call ∧ t = s.after rt call

end IssuesApi
