import IssuesApi.Lib.Transition
import IssuesApi.Reference
import IssuesApi.Routers.Webhooks

/-!
# The log is newest first

`recent` sorts by the text of the timestamp.  `recent_newest` lifts `bytewise_isoformatUtc_lt_iff`
to whole stores: after any sequence of `record` calls, at whatever instants, the rows come by
decreasing instant of recording, those of one instant in reverse order of insertion, and
`GET /events` renders the instant itself.

The limit has to be one SQLite can bind; the handler never asks for more than 500.
-/

namespace IssuesApi

variable {rt : Runtime}

/-! ## Sequences of calls -/

/-- A call of `record` with what it returned or raised. -/
structure Recording where
  now : Civil
  delivery : Delivery
  outcome : Except PyException Bool

/-- The store while calls are made one after the other. -/
def recordingStep (rt : Runtime) (db : Database) (x : Recording) (db' : Database) : Prop :=
  record rt x.now x.delivery db = (x.outcome, db')

/-- The row a call wrote, with the instant of the call. -/
def Recording.arrival (rt : Runtime) (x : Recording) : Option (Civil × Row) :=
  match x.outcome, rowOf rt x.now x.delivery with
  | .ok true, .ok row => some (x.now, row)
  | _, _ => none

/-- The rows written, in the order of their insertion. -/
def arrivals (rt : Runtime) (history : List Recording) : List (Civil × Row) :=
  history.filterMap (Recording.arrival rt)

/-- The store holds the rows of the arrivals, each with the timestamp of its instant. -/
structure HoldsArrivals (rt : Runtime) (history : List Recording) (db : Database) : Prop where
  rows : db.rows = (arrivals rt history).map Prod.snd
  receivedAt : ∀ a ∈ arrivals rt history, a.2.receivedAt = a.1.isoformatUtc

lemma arrivals_append_singleton (history : List Recording) (x : Recording) :
    arrivals rt (history ++ [x]) = arrivals rt history ++ (x.arrival rt).toList := by
  rw [arrivals, List.filterMap_append, arrivals]
  cases h : x.arrival rt <;> simp [h]

/-- A call that is no arrival and leaves the rows alone. -/
lemma HoldsArrivals.skip {history : List Recording} {db db' : Database} {x : Recording}
    (h : HoldsArrivals rt history db) (harrival : x.arrival rt = none)
    (hrows : db'.rows = db.rows) : HoldsArrivals rt (history ++ [x]) db' := by
  have harrivals : arrivals rt (history ++ [x]) = arrivals rt history := by
    rw [arrivals_append_singleton, harrival]
    exact List.append_nil _
  exact ⟨by rw [hrows, harrivals, h.rows], harrivals ▸ h.receivedAt⟩

/-- A call that arrives and appends its row. -/
lemma HoldsArrivals.append {history : List Recording} {db db' : Database} {x : Recording}
    {now : Civil} {row : Row} (h : HoldsArrivals rt history db)
    (harrival : x.arrival rt = some (now, row)) (hreceived : row.receivedAt = now.isoformatUtc)
    (hrows : db'.rows = db.rows ++ [row]) : HoldsArrivals rt (history ++ [x]) db' := by
  have harrivals : arrivals rt (history ++ [x]) = arrivals rt history ++ [(now, row)] := by
    rw [arrivals_append_singleton, harrival]
    rfl
  refine ⟨?_, fun a ha => ?_⟩
  · rw [hrows, harrivals, List.map_append, h.rows]
    rfl
  · rw [harrivals, List.mem_append, List.mem_singleton] at ha
    rcases ha with hold | rfl
    · exact h.receivedAt a hold
    · exact hreceived

/-- A call that does not return `True` leaves the rows alone; one that does appends its own. -/
lemma holdsArrivals_step {history : List Recording} {db db' : Database} {x : Recording}
    (h : HoldsArrivals rt history db) (hstep : recordingStep rt db x db') :
    HoldsArrivals rt (history ++ [x]) db' := by
  unfold recordingStep record at hstep
  cases hrow : rowOf rt x.now x.delivery with
  | error e =>
    rw [hrow] at hstep
    obtain ⟨houtcome, rfl⟩ := Prod.mk.inj hstep
    refine h.skip ?_ rfl
    rw [Recording.arrival, ← houtcome]
  | ok row =>
    rw [hrow] at hstep
    obtain ⟨houtcome, rfl⟩ := Prod.mk.inj hstep
    have hresult : x.outcome = .ok (!db.has row.key) := by
      rw [← houtcome, Database.recordRow, Database.insertOrIgnore_fst]
    have hrows : (db.recordRow row).2.rows =
        if db.has row.key then db.rows else db.rows ++ [row] := by
      rw [Database.recordRow, Database.commit_rows, Database.insertOrIgnore_rows]
    cases hhas : db.has row.key with
    | true =>
      refine h.skip ?_ (by rw [hrows, if_pos hhas])
      rw [Recording.arrival, hresult, hhas]
      rfl
    | false =>
      have happended : (db.recordRow row).2.rows = db.rows ++ [row] := by
        rw [hrows, hhas, if_neg Bool.false_ne_true]
      refine h.append ?_ (rowOf_holds hrow).receivedAt happended
      rw [Recording.arrival, hresult, hhas, hrow]
      rfl

lemma holdsArrivals_run {history : List Recording} {db : Database}
    (hrun : Run (recordingStep rt) .empty history db) : HoldsArrivals rt history db := by
  apply hrun.invariant
  · exact ⟨rfl, by simp [arrivals]⟩
  · intro _ _ _ _ _ h hstep
    exact holdsArrivals_step h hstep

/-! ## The order of the log -/

/-- The order of the log: later instants first, and later insertions first at one instant. -/
abbrev Newer : (Civil × Row) × ℕ → (Civil × Row) × ℕ → Prop :=
  Precedes fun a : Civil × Row => a.1.instant

/-- The arrivals with their positions, newest first. -/
def newestArrivals (rt : Runtime) (history : List Recording) : List ((Civil × Row) × ℕ) :=
  ranked (fun a => a.1.instant) (arrivals rt history)

/-- Sorting the timestamps is sorting the instants. -/
lemma HoldsArrivals.newestFirst_eq {history : List Recording} {db : Database}
    (h : HoldsArrivals rt history db) :
    db.newestFirst = (newestArrivals rt history).map fun a => a.1.2 := by
  have hcongr : ranked (fun a : Civil × Row => bytewise a.2.receivedAt) (arrivals rt history) =
      newestArrivals rt history := by
    apply ranked_congr
    intro a ha b hb
    rw [h.receivedAt a ha, h.receivedAt b hb]
    exact bytewise_isoformatUtc_lt_iff a.1 b.1
  rw [Database.newestFirst, orderByDesc, h.rows, ranked_map, hcongr, List.map_map]
  rfl

/-- What a listing of the log shows. -/
structure ShowsNewest (arrived : List (Civil × Row)) (limit : ℕ) (events : List StoredEvent) :
    Prop where
  /-- It lists the head of an arrangement of all arrivals by `Newer`. -/
  order : ∃ order : List ((Civil × Row) × ℕ), order.Perm arrived.zipIdx ∧
    order.Pairwise Newer ∧ events = (order.take limit).map (fun a => storedEvent a.1.2) ∧
    ∀ shown ∈ order.take limit, ∀ omitted ∈ order.drop limit,
      omitted.1.1.instant ≤ shown.1.1.instant
  length : events.length = min limit arrived.length
  /-- With a clock that never goes backwards it is the end of the table, read backwards. -/
  monotone : arrived.Pairwise (fun a b => a.1.instant ≤ b.1.instant) →
    events = (arrived.reverse.take limit).map fun a => storedEvent a.2

lemma showsNewest (rt : Runtime) (history : List Recording) (limit : ℕ) :
    ShowsNewest (arrivals rt history) limit
      (((newestArrivals rt history).take limit).map fun a => storedEvent a.1.2) where
  order := by
    have hsorted := ranked_pairwise (fun a => a.1.instant) (arrivals rt history)
    refine ⟨_, ranked_perm _ _, hsorted, rfl, ?_⟩
    intro shown hshown omitted homitted
    rw [← List.take_append_drop limit (ranked _ _), List.pairwise_append] at hsorted
    rcases hsorted.2.2 shown hshown omitted homitted with hlt | ⟨heq, -⟩
    · exact hlt.le
    · exact heq.ge
  length := by
    rw [List.length_map, List.length_take, newestArrivals, (ranked_perm _ _).length_eq,
      List.length_zipIdx]
  monotone hclock := by
    have hreverse : (newestArrivals rt history).map Prod.fst = (arrivals rt history).reverse := by
      rw [newestArrivals, ranked_of_monotone hclock, List.map_reverse, List.zipIdx_map_fst]
    rw [← hreverse, List.map_take, List.map_take, List.map_map]
    rfl

/-- **The log is newest first.**  After any sequence of `record` calls, and for every limit that
SQLite can bind, `recent` lists the newest arrivals, and every arrival is rendered with the
instant at which it was recorded. -/
theorem recent_newest {history : List Recording} {db : Database}
    (hrun : Run (recordingStep rt) .empty history db) {limit : ℤ} (hnonneg : 0 ≤ limit)
    (hbound : limit < 2 ^ 63) :
    (∃ events, recent limit db = .ok events ∧
      ShowsNewest (arrivals rt history) limit.toNat events) ∧
    db.count = (arrivals rt history).length ∧
    ∀ a ∈ arrivals rt history, ∃ r, eventRecord (storedEvent a.2) = .ok r ∧
      r.timestamp = ⟨a.1, some 0⟩ := by
  have h := holdsArrivals_run hrun
  refine ⟨⟨_, ?_, showsNewest rt history limit.toNat⟩, ?_, fun a ha => ?_⟩
  · have hint : int64 limit = true := by
      simp only [int64, Bool.and_eq_true, decide_eq_true_eq]
      omega
    rw [recent_ok_iff, limitTo_of_nonneg hnonneg, h.newestFirst_eq, ← List.map_take,
      List.map_map]
    exact ⟨hint, rfl⟩
  · rw [Database.count, h.rows, List.length_map]
  · refine ⟨_, eventRecord_ok_iff.mpr ⟨⟨a.1, some 0⟩, ?_, rfl⟩, rfl⟩
    rw [h.receivedAt a ha]
    exact fromIsoformat_isoformatUtc a.1

/-! Two pings, the second recorded at an earlier instant, on a whole second. -/

/-- Half a second after the epoch. -/
def halfSecond : Civil := { epoch with microsecond := 500000, microsecond_valid := by decide }

/-- A ping with the given id, recorded at the given instant. -/
def pingRecording (id : Text) (now : Civil) : Recording :=
  ⟨now, ⟨id, ⟨"ping".toList, none, none, none, none⟩, []⟩, .ok true⟩

/-- The store after a recording. -/
def Recording.store (x : Recording) (db : Database) : Database :=
  (record .reference x.now x.delivery db).2

/-- The store after both. -/
def halfSecondStore : Database :=
  (pingRecording ['2'] epoch).store ((pingRecording ['1'] halfSecond).store .empty)

/-- Half a second comes before the whole second it follows. -/
theorem recent_newest_halfSecond :
    ∃ db history, Run (recordingStep .reference) .empty history db ∧ db.count = 2 ∧
      ∃ events, recent 1 db = .ok events ∧ events.map StoredEvent.id = [['1']] ∧
        ShowsNewest (arrivals .reference history) 1 events := by
  have h₀ : Run (recordingStep .reference) .empty [] .empty := Run.start
  have h₁ := h₀.next (t := (pingRecording ['1'] halfSecond).store .empty)
    (show recordingStep .reference _ (pingRecording ['1'] halfSecond) _ from
      Prod.ext (by decide +kernel) rfl)
  have hrun := h₁.next (t := halfSecondStore)
    (show recordingStep .reference _ (pingRecording ['2'] epoch) _ from
      Prod.ext (by decide +kernel) rfl)
  obtain ⟨⟨events, hevents, hshows⟩, -⟩ :=
    recent_newest hrun (show (0 : ℤ) ≤ 1 by decide) (by decide)
  refine ⟨_, _, hrun, by decide +kernel, events, hevents, ?_, hshows⟩
  have hids : (recent 1 halfSecondStore).toOption.map (fun es => es.map StoredEvent.id) =
      some [['1']] := by
    decide +kernel
  rw [hevents] at hids
  exact Option.some.inj hids

/-- A limit of `2^63` is no integer SQLite can bind. -/
theorem recent_overflow :
    Run (recordingStep .reference) .empty [] .empty ∧ (0 : ℤ) ≤ 2 ^ 63 ∧
      recent (2 ^ 63) .empty = raiseBuiltin .overflowError :=
  ⟨Run.start, by decide, rfl⟩

end IssuesApi
