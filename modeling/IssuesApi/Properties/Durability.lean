import IssuesApi.Properties.Idempotency

/-!
# Durability of acknowledged deliveries when database steps fail

Concurrent calls of `EventStore.record` share one connection and therefore one implicit
transaction.  A step that fails raises, and SQLite may leave the open transaction in place or
roll it back whole.  Nothing in `record` tells the two apart: a call whose insert was rolled
back by another call's failure goes on to commit an empty transaction, and returns.

`acknowledged_durable` is about the runs in which no failing step rolls back the pending insert
of another call: there every call that has returned left a durable row with its key, and the
process may die at any moment.  The second half says that the restriction is the right one: from
any state, a step that breaks it can be followed by a commit that acknowledges a lost delivery.
-/

namespace IssuesApi

/-! ## Steps that can fail -/

/-- `ROLLBACK`: what a new connection would find. -/
def Database.rollback (db : Database) : Database := db.reconnect

/-- What a failing statement leaves of the open transaction. -/
def Database.afterFailure (db : Database) (rollsBack : Bool) : Database :=
  if rollsBack then db.rollback else db

/-- How far a call has come.  A call that raised, or whose process died, sends no 204. -/
inductive CallPhase where
  | idle
  | inserted (new : Bool)
  | returned (new : Bool)
  | raised
  deriving DecidableEq

/-- The database and the calls on it. -/
structure CallState (ι : Type) where
  db : Database
  phase : ι → CallPhase

/-- The steps of the calls, successful or not, and of the process. -/
inductive CallLabel (ι : Type) where
  | insert (i : ι)
  | commit (i : ι)
  | insertFails (i : ι) (rollsBack : Bool)
  | commitFails (i : ι) (rollsBack : Bool)
  /-- The process dies and another one opens the file. -/
  | crash
  deriving DecidableEq

/-- The process takes the calls in flight with it. -/
def CallPhase.afterCrash : CallPhase → CallPhase
  | .inserted _ => .raised
  | phase => phase

section

variable {ι : Type} [DecidableEq ι] {rt : Runtime} (calls : ι → RecordCall rt)

/-- One step. -/
def callStep (s : CallState ι) : CallLabel ι → CallState ι → Prop
  | .insert i, t => s.phase i = .idle ∧
      t = ⟨(s.db.insertOrIgnore (calls i).row).2, Function.update s.phase i
        (.inserted (s.db.insertOrIgnore (calls i).row).1)⟩
  | .commit i, t => ∃ new, s.phase i = .inserted new ∧
      t = ⟨s.db.commit, Function.update s.phase i (.returned new)⟩
  | .insertFails i rollsBack, t => s.phase i = .idle ∧
      t = ⟨s.db.afterFailure rollsBack, Function.update s.phase i .raised⟩
  | .commitFails i rollsBack, t => (∃ new, s.phase i = .inserted new) ∧
      t = ⟨s.db.afterFailure rollsBack, Function.update s.phase i .raised⟩
  | .crash, t => t = ⟨s.db.reconnect, fun i => (s.phase i).afterCrash⟩

omit [DecidableEq ι] in
lemma nodup_nothingPending {table : List Row} (h : (table.map Row.key).Nodup) :
    ((table ++ []).map Row.key).Nodup := by simpa using h

/-- A table, before any call. -/
def callStart (table : List Row) (h : (table.map Row.key).Nodup) : CallState ι :=
  ⟨⟨table, [], nodup_nothingPending h⟩, fun _ => .idle⟩

/-- Some call other than `i` is between its two steps with its row in the open transaction. -/
def OthersPending (s : CallState ι) (i : ι) : Prop :=
  ∃ j ≠ i, (∃ new, s.phase j = .inserted new) ∧ (calls j).key ∈ s.db.pending.map Row.key

/-- The step does not roll back another call's insert. -/
def SparesOthers (s : CallState ι) : CallLabel ι → Prop
  | .insertFails i true | .commitFails i true => ¬ OthersPending calls s i
  | _ => True

/-- The runs in which no failing step rolls back another call's insert. -/
def sparingStep (s : CallState ι) (a : CallLabel ι) (t : CallState ι) : Prop :=
  callStep calls s a t ∧ SparesOthers calls s a

/-- **Every acknowledged delivery is durable**: what a crash would leave holds its key. -/
def AcknowledgedDurable (s : CallState ι) : Prop :=
  ∀ i new, s.phase i = .returned new → s.db.reconnect.has (calls i).key = true

/-! ## The invariant -/

/-- What holds at any moment of such a run. -/
structure DurabilityInvariant (s : CallState ι) : Prop where
  /-- A call between its steps finds its key, in its own row or in another's. -/
  visible : ∀ i new, s.phase i = .inserted new → s.db.has (calls i).key = true
  durable : AcknowledgedDurable calls s

omit [DecidableEq ι] in
lemma durabilityInvariant_start {table : List Row} (h : (table.map Row.key).Nodup) :
    DurabilityInvariant calls (callStart table h) where
  visible := by simp [callStart]
  durable := by simp [AcknowledgedDurable, callStart]

end

/-! What the connection sees after each statement. -/

namespace Database

variable {db : Database} {key : RowKey}

lemma has_iff_mem : db.has key = true ↔ key ∈ db.rows.map Row.key := by
  rw [has_iff, List.mem_map]

lemma reconnect_has_iff : db.reconnect.has key = true ↔ key ∈ db.durable.map Row.key := by
  rw [has_iff_mem]
  simp [rows, reconnect]

/-- A durable row is visible. -/
lemma has_of_reconnect (h : db.reconnect.has key = true) : db.has key = true := by
  rw [reconnect_has_iff] at h
  rw [has_iff_mem, rows, List.map_append]
  exact List.mem_append_left _ h

/-- A visible row that is not pending is durable. -/
lemma reconnect_has_of_not_pending (h : db.has key = true)
    (hp : key ∉ db.pending.map Row.key) : db.reconnect.has key = true := by
  rw [has_iff_mem, rows, List.map_append, List.mem_append] at h
  exact reconnect_has_iff.mpr (h.resolve_right hp)

/-- A pending row is not durable: its key would occur twice. -/
lemma not_reconnect_has_of_pending (h : key ∈ db.pending.map Row.key) :
    db.reconnect.has key = false := by
  rw [Bool.eq_false_iff, ne_eq, reconnect_has_iff]
  intro hd
  have hkeys := db.primaryKey
  rw [List.map_append, List.nodup_append] at hkeys
  exact hkeys.2.2 key hd key h rfl

lemma has_insertOrIgnore {row : Row} (h : db.has key = true) :
    (db.insertOrIgnore row).2.has key = true := by
  rw [has_iff_mem] at h ⊢
  rw [insertOrIgnore_rows]
  split_ifs
  · exact h
  · rw [List.map_append]
    exact List.mem_append_left _ h

/-- After its insert a call finds its key, whoever wrote the row. -/
lemma has_insertOrIgnore_self {row : Row} : (db.insertOrIgnore row).2.has row.key = true := by
  rw [has_iff_mem, insertOrIgnore_rows]
  split_ifs with h
  · exact has_iff_mem.mp h
  · simp

@[simp] lemma reconnect_insertOrIgnore {row : Row} :
    (db.insertOrIgnore row).2.reconnect = db.reconnect := by
  ext1
  · exact insertOrIgnore_durable db row
  · rfl

lemma reconnect_commit_has : db.commit.reconnect.has key = db.has key := by
  rw [Bool.eq_iff_iff, reconnect_has_iff, has_iff_mem, commit_durable]

@[simp] lemma reconnect_reconnect : db.reconnect.reconnect = db.reconnect := rfl

@[simp] lemma reconnect_afterFailure (rollsBack : Bool) :
    (db.afterFailure rollsBack).reconnect = db.reconnect := by
  cases rollsBack <;> rfl

end Database

section

variable {ι : Type} [DecidableEq ι] {rt : Runtime} {calls : ι → RecordCall rt}
  {s t : CallState ι}

/-- A call that did not move is where it was. -/
lemma phase_of_update {phase : ι → CallPhase} {i j : ι} {p q : CallPhase}
    (h : Function.update phase i p j = q) (hpq : p ≠ q) : phase j = q := by
  by_cases hji : j = i
  · subst hji
    exact absurd (by simpa using h) hpq
  · rwa [Function.update_of_ne hji] at h

/-- A failing step keeps the invariant when the rows of the other calls stay visible. -/
lemma DurabilityInvariant.failure (h : DurabilityInvariant calls s) {i : ι} {rollsBack : Bool}
    (hothers : rollsBack = true → ¬ OthersPending calls s i) :
    DurabilityInvariant calls
      ⟨s.db.afterFailure rollsBack, Function.update s.phase i .raised⟩ where
  visible j new hj := by
    have hne : j ≠ i := by
      rintro rfl
      simp at hj
    have hphase := phase_of_update hj (by simp)
    cases rollsBack with
    | false => exact h.visible j new hphase
    | true =>
      refine Database.reconnect_has_of_not_pending (h.visible j new hphase) fun hpending => ?_
      exact hothers rfl ⟨j, hne, ⟨new, hphase⟩, hpending⟩
  durable j new hj := by
    rw [Database.reconnect_afterFailure]
    exact h.durable j new (phase_of_update hj (by simp))

lemma durabilityInvariant_step (h : DurabilityInvariant calls s) {a : CallLabel ι}
    (hstep : sparingStep calls s a t) : DurabilityInvariant calls t := by
  obtain ⟨hstep, hspares⟩ := hstep
  cases a with
  | insert i =>
    obtain ⟨-, rfl⟩ := hstep
    refine ⟨fun j new hj => ?_, fun j new hj => ?_⟩
    · by_cases hji : j = i
      · subst hji
        exact Database.has_insertOrIgnore_self
      · have hphase : s.phase j = .inserted new := by
          simpa [Function.update_of_ne hji] using hj
        exact Database.has_insertOrIgnore (h.visible j new hphase)
    · rw [Database.reconnect_insertOrIgnore]
      exact h.durable j new (phase_of_update hj (by simp))
  | commit i =>
    obtain ⟨b, hi, rfl⟩ := hstep
    refine ⟨fun j new hj => ?_, fun j new hj => ?_⟩
    · rw [Database.has_iff_mem, Database.commit_rows, ← Database.has_iff_mem]
      exact h.visible j new (phase_of_update hj (by simp))
    · -- a commit publishes the mover's key, and keeps what was durable
      rw [Database.reconnect_commit_has]
      by_cases hji : j = i
      · subst hji
        exact h.visible j b hi
      · have hphase : s.phase j = .returned new := by
          simpa [Function.update_of_ne hji] using hj
        exact Database.has_of_reconnect (h.durable j new hphase)
  | insertFails i rollsBack =>
    obtain ⟨-, rfl⟩ := hstep
    refine h.failure fun hb => ?_
    subst hb
    exact hspares
  | commitFails i rollsBack =>
    obtain ⟨-, rfl⟩ := hstep
    refine h.failure fun hb => ?_
    subst hb
    exact hspares
  | crash =>
    obtain rfl := hstep
    refine ⟨fun j new hj => ?_, fun j new hj => ?_⟩
    · cases hp : s.phase j <;> simp [hp, CallPhase.afterCrash] at hj
    · refine h.durable j new ?_
      cases hp : s.phase j <;> simp_all [CallPhase.afterCrash]

/-- A failing step that rolls back another insert lets that call acknowledge a lost delivery. -/
lemma lost_of_not_sparesOthers {a : CallLabel ι} (hstep : callStep calls s a t)
    (hspares : ¬ SparesOthers calls s a) :
    ∃ j u, callStep calls t (.commit j) u ∧ ¬ AcknowledgedDurable calls u := by
  have hlost : ∀ i, OthersPending calls s i →
      t = ⟨s.db.rollback, Function.update s.phase i .raised⟩ →
      ∃ j u, callStep calls t (.commit j) u ∧ ¬ AcknowledgedDurable calls u := by
    rintro i ⟨j, hji, ⟨new, hj⟩, hpending⟩ rfl
    have hphase : Function.update s.phase i .raised j = .inserted new := by
      rw [Function.update_of_ne hji, hj]
    refine ⟨j, _, ⟨new, hphase, rfl⟩, fun hdurable => ?_⟩
    have hkey := hdurable j new (Function.update_self ..)
    rw [Database.reconnect_commit_has, Database.rollback,
      Database.not_reconnect_has_of_pending hpending] at hkey
    cases hkey
  cases a with
  | insertFails i rollsBack =>
    cases rollsBack with
    | false => exact absurd trivial hspares
    | true => exact hlost i (not_not.mp hspares) hstep.2
  | commitFails i rollsBack =>
    cases rollsBack with
    | false => exact absurd trivial hspares
    | true => exact hlost i (not_not.mp hspares) hstep.2
  | _ => exact absurd trivial hspares

/-- **When acknowledged deliveries are durable.**  In every run from a table with distinct
keys whose failing steps roll back no other call's insert, every call that has returned left a
durable row with its key; and whenever a step does roll one back, some call can go on to return
without one. -/
theorem acknowledged_durable (calls : ι → RecordCall rt) :
    (∀ table (hkeys : (table.map Row.key).Nodup) history s,
      Run (sparingStep calls) (callStart table hkeys) history s →
        AcknowledgedDurable calls s) ∧
    (∀ s a t, callStep calls s a t → ¬ SparesOthers calls s a →
      ∃ j u, callStep calls t (.commit j) u ∧ ¬ AcknowledgedDurable calls u) := by
  refine ⟨fun table hkeys history s hrun => ?_, fun s a t => lost_of_not_sparesOthers⟩
  have hinv : DurabilityInvariant calls s := by
    apply hrun.invariant (I := fun _ s => DurabilityInvariant calls s)
    · exact durabilityInvariant_start calls hkeys
    · intro _ _ _ _ _ h hstep
      exact durabilityInvariant_step h hstep
  exact hinv.durable

end

/-! Two calls with the same delivery, the second of which fails. -/

/-- The first call inserts, the second's insert fails, the first commits, the process dies. -/
def interrupted (rollsBack : Bool) : List (CallLabel Bool) :=
  [.insert false, .insertFails true rollsBack, .commit false, .crash]

/-- The state after the first insert. -/
def insertedState (calls : Bool → RecordCall .reference) : CallState Bool :=
  ⟨(Database.empty.insertOrIgnore (calls false).row).2,
    Function.update (fun _ => .idle) false (.inserted true)⟩

/-- A failure that leaves the transaction in place is harmless, and the first call's delivery
survives; one that rolls it back is not, and some call can return without its row. -/
theorem acknowledged_durable_interrupted :
    (∃ s, Run (sparingStep pingCalls) (callStart [] noKeys) (interrupted false) s ∧
      s.phase false = .returned true ∧ AcknowledgedDurable pingCalls s) ∧
    ∃ s t, callStep pingCalls s (.insertFails true true) t ∧
      ∃ j u, callStep pingCalls t (.commit j) u ∧ ¬ AcknowledgedDurable pingCalls u := by
  have h₀ : Run (sparingStep pingCalls) (callStart [] noKeys) [] _ := Run.start
  have h₁ := h₀.next (a := CallLabel.insert false) ⟨And.intro rfl rfl, trivial⟩
  have h₂ := h₁.next (a := CallLabel.insertFails true false) ⟨And.intro rfl rfl, trivial⟩
  have h₃ := h₂.next (a := CallLabel.commit false) ⟨⟨true, rfl, rfl⟩, trivial⟩
  have h₄ := h₃.next (a := CallLabel.crash) ⟨rfl, trivial⟩
  refine ⟨⟨_, h₄, rfl, (acknowledged_durable pingCalls).1 [] noKeys _ _ h₄⟩, ?_⟩
  have hfails : callStep pingCalls (insertedState pingCalls) (.insertFails true true) _ :=
    And.intro rfl rfl
  refine ⟨_, _, hfails, (acknowledged_durable pingCalls).2 _ _ _ hfails fun hspares => ?_⟩
  exact hspares ⟨false, by decide, ⟨true, rfl⟩, by decide⟩

/-- The second insert fails and rolls back: the first call returns `True`, and its delivery is
not stored. -/
theorem lost_delivery :
    ∃ s, Run (callStep pingCalls) (callStart [] noKeys) (interrupted true) s ∧
      s.phase false = .returned true ∧ s.db.rows = [] ∧ ¬ AcknowledgedDurable pingCalls s := by
  have h₀ : Run (callStep pingCalls) (callStart [] noKeys) [] _ := Run.start
  have h₁ := h₀.next (a := CallLabel.insert false) (And.intro rfl rfl)
  have h₂ := h₁.next (a := CallLabel.insertFails true true) (And.intro rfl rfl)
  have h₃ := h₂.next (a := CallLabel.commit false) ⟨true, rfl, rfl⟩
  have h₄ := h₃.next (a := CallLabel.crash) rfl
  refine ⟨_, h₄, rfl, rfl, fun h => ?_⟩
  have hlost := h false true rfl
  revert hlost
  decide

end IssuesApi
