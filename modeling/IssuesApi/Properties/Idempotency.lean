import IssuesApi.Lib.FirstWins
import IssuesApi.Lib.Transition
import IssuesApi.Reference
import Mathlib.Logic.Function.Basic

/-!
# Idempotent recording under any interleaving

Concurrent calls of `EventStore.record` share one connection.  Each is two steps, its `INSERT
OR IGNORE` and its commit, and between the two any other call can move: a commit publishes
whatever the transaction holds, one's own insert or another's.  The connection can be closed
and opened again whenever no call is between its two steps.

The abstract account is `winners`: of the calls in the order of their inserts, those whose key
was free.  `RecordInvariant` says that what the connection sees is always the initial table
followed by the winners' rows, and that a call learns whether it won; `record_idempotent` draws
the consequences.
-/

namespace IssuesApi

/-! ## Calls and steps -/

/-- A call of `record` whose values SQLite can bind, with the row they make. -/
structure RecordCall (rt : Runtime) where
  delivery : Delivery
  now : Civil
  row : Row
  bound : rowOf rt now delivery = .ok row

/-- The primary key of a call's row. -/
def RecordCall.key {rt : Runtime} (call : RecordCall rt) : RowKey := call.row.key

/-- How far a call has come, and what its insert reported. -/
inductive RecordPhase where
  | idle
  | inserted (new : Bool)
  | returned (new : Bool)
  deriving DecidableEq

/-- The database and the calls on it. -/
structure RecordState (ι : Type) where
  db : Database
  phase : ι → RecordPhase

/-- The steps of the calls, and of the connection. -/
inductive RecordLabel (ι : Type) where
  | insert (i : ι)
  | commit (i : ι)
  | reconnect
  deriving DecidableEq

section

variable {ι : Type} [DecidableEq ι] {rt : Runtime} (calls : ι → RecordCall rt)

/-- One step. -/
def recordStep (s : RecordState ι) : RecordLabel ι → RecordState ι → Prop
  | .insert i, t => s.phase i = .idle ∧
      t = ⟨(s.db.insertOrIgnore (calls i).row).2, Function.update s.phase i
        (.inserted (s.db.insertOrIgnore (calls i).row).1)⟩
  | .commit i, t => ∃ new, s.phase i = .inserted new ∧
      t = ⟨s.db.commit, Function.update s.phase i (.returned new)⟩
  | .reconnect, t => (∀ i new, s.phase i ≠ .inserted new) ∧ t = ⟨s.db.reconnect, s.phase⟩

/-- A table, before any call. -/
def recordStart (table : List Row) (h : (table.map Row.key).Nodup) : RecordState ι :=
  ⟨⟨table, [], by simpa using h⟩, fun _ => .idle⟩

/-- The calls in the order of their inserts. -/
def insertOrder (history : List (RecordLabel ι)) : List ι :=
  history.filterMap fun
    | .insert i => some i
    | _ => none

/-- The calls that won, in the order of their inserts. -/
def winningCalls (table : List Row) (history : List (RecordLabel ι)) : List ι :=
  winners (fun i => (calls i).key) (table.map Row.key) (insertOrder history)

omit [DecidableEq ι] in
@[simp] lemma insertOrder_append (h₁ h₂ : List (RecordLabel ι)) :
    insertOrder (h₁ ++ h₂) = insertOrder h₁ ++ insertOrder h₂ :=
  List.filterMap_append

/-! ## The invariant -/

/-- What holds at any moment. -/
structure RecordInvariant (table : List Row) (history : List (RecordLabel ι))
    (s : RecordState ι) : Prop where
  /-- The connection sees the initial rows and then those of the winners. -/
  rows : s.db.rows = table ++ (winningCalls calls table history).map fun i => (calls i).row
  /-- The calls that have inserted are those that are no longer idle. -/
  begun : ∀ i, i ∈ insertOrder history ↔ s.phase i ≠ .idle
  /-- A call knows whether it won. -/
  result : ∀ i new, s.phase i = .inserted new ∨ s.phase i = .returned new →
    (new = true ↔ i ∈ winningCalls calls table history)
  /-- While a transaction is open some call is between its steps. -/
  opened : s.db.pending ≠ [] → ∃ i new, s.phase i = .inserted new

variable {calls} {table : List Row} {history : List (RecordLabel ι)} {s t : RecordState ι}

omit [DecidableEq ι] in
/-- A key is taken when the table has it or an earlier call did. -/
lemma RecordInvariant.has_iff (h : RecordInvariant calls table history s) (key : RowKey) :
    s.db.has key = true ↔
      key ∈ table.map Row.key ∨ key ∈ (insertOrder history).map fun i => (calls i).key := by
  have hkeys : s.db.has key = true ↔ key ∈ s.db.rows.map Row.key := by
    rw [Database.has_iff, List.mem_map]
  have hmap : ((winningCalls calls table history).map fun i => (calls i).row).map Row.key =
      (winningCalls calls table history).map fun i => (calls i).key := List.map_map ..
  rw [hkeys, h.rows, List.map_append, List.mem_append, hmap, winningCalls, mem_map_winners]
  tauto

omit [DecidableEq ι] in
lemma recordInvariant_start (hkeys : (table.map Row.key).Nodup) :
    RecordInvariant calls table [] (recordStart table hkeys) where
  rows := by simp [recordStart, Database.rows, winningCalls, insertOrder, winners]
  begun := by simp [insertOrder, recordStart]
  result := by simp [recordStart]
  opened := by simp [recordStart]

/-- An insert adds the call to the winners exactly when its key is free. -/
lemma RecordInvariant.insert (h : RecordInvariant calls table history s) {i : ι}
    (hidle : s.phase i = .idle) :
    RecordInvariant calls table (history ++ [.insert i])
      ⟨(s.db.insertOrIgnore (calls i).row).2, Function.update s.phase i
        (.inserted (s.db.insertOrIgnore (calls i).row).1)⟩ := by
  have hnot : i ∉ insertOrder history := fun hi => (h.begun i).mp hi hidle
  have hwin : winningCalls calls table (history ++ [.insert i]) =
      winningCalls calls table history ++ if s.db.has (calls i).key then [] else [i] := by
    have hsingle : insertOrder [RecordLabel.insert i] = [i] := rfl
    rw [winningCalls, insertOrder_append, hsingle, winners_append_singleton]
    by_cases htaken : s.db.has (calls i).key = true
    · rw [if_pos htaken, if_pos ((h.has_iff _).mp htaken)]
      rfl
    · rw [if_neg htaken, if_neg fun hk => htaken ((h.has_iff _).mpr hk)]
      rfl
  have hnotwin : i ∉ winningCalls calls table history := by
    intro hi
    obtain ⟨-, before, after, heq, -⟩ := mem_winners.mp hi
    exact hnot (by rw [heq]; simp)
  refine ⟨?_, fun j => ?_, fun j new hj => ?_, fun _ => ?_⟩
  · rw [hwin, Database.insertOrIgnore_rows, h.rows]
    split_ifs with htaken <;> simp_all [RecordCall.key]
  · by_cases hji : j = i
    · subst hji
      simp [insertOrder]
    · simpa [insertOrder, hji] using h.begun j
  · by_cases hji : j = i
    · subst hji
      have hnew : (!s.db.has (calls j).key) = new := by
        simpa [Database.insertOrIgnore_fst, RecordCall.key] using hj
      rw [hwin, ← hnew, List.mem_append]
      split_ifs with htaken <;> simp [htaken, hnotwin]
    · have hj' : s.phase j = .inserted new ∨ s.phase j = .returned new := by
        simpa [Function.update_of_ne hji] using hj
      rw [h.result j new hj', hwin, List.mem_append]
      split_ifs <;> simp [hji]
  · exact ⟨i, (s.db.insertOrIgnore (calls i).row).1, by simp⟩

/-- A commit only publishes. -/
lemma RecordInvariant.commit (h : RecordInvariant calls table history s) {i : ι} {new : Bool}
    (hi : s.phase i = .inserted new) :
    RecordInvariant calls table (history ++ [.commit i])
      ⟨s.db.commit, Function.update s.phase i (.returned new)⟩ := by
  have horder : insertOrder (history ++ [.commit i]) = insertOrder history := by
    simp [insertOrder]
  have hwin : winningCalls calls table (history ++ [.commit i]) =
      winningCalls calls table history := by
    simp only [winningCalls, horder]
  refine ⟨by rw [hwin, Database.commit_rows, h.rows], fun j => ?_, fun j b hj => ?_, ?_⟩
  · rw [horder, h.begun j]
    by_cases hji : j = i
    · subst hji
      simp [hi]
    · simp [hji]
  · rw [hwin]
    by_cases hji : j = i
    · subst hji
      have hb : new = b := by simpa using hj
      exact h.result j b (Or.inl (hb ▸ hi))
    · exact h.result j b (by simpa [Function.update_of_ne hji] using hj)
  · simp

omit [DecidableEq ι] in
/-- Reconnecting between calls loses nothing: no transaction is open. -/
lemma RecordInvariant.reconnect (h : RecordInvariant calls table history s)
    (hquiet : ∀ i new, s.phase i ≠ .inserted new) :
    RecordInvariant calls table (history ++ [.reconnect]) ⟨s.db.reconnect, s.phase⟩ := by
  have hclosed : s.db.pending = [] := by
    by_contra hopen
    obtain ⟨i, new, hi⟩ := h.opened hopen
    exact hquiet i new hi
  have horder : insertOrder (history ++ [.reconnect]) = insertOrder history := by
    simp [insertOrder]
  have hwin : winningCalls calls table (history ++ [.reconnect]) =
      winningCalls calls table history := by
    simp only [winningCalls, horder]
  rw [Database.reconnect_eq_self hclosed]
  exact ⟨hwin ▸ h.rows, horder ▸ h.begun, hwin ▸ h.result, h.opened⟩

lemma recordInvariant_step (h : RecordInvariant calls table history s) {a : RecordLabel ι}
    (hstep : recordStep calls s a t) : RecordInvariant calls table (history ++ [a]) t := by
  cases a with
  | insert i =>
    obtain ⟨hidle, rfl⟩ := hstep
    exact h.insert hidle
  | commit i =>
    obtain ⟨new, hi, rfl⟩ := hstep
    exact h.commit hi
  | reconnect =>
    obtain ⟨hquiet, rfl⟩ := hstep
    exact h.reconnect hquiet

/-- The invariant holds in every run. -/
lemma recordInvariant_run {hkeys : (table.map Row.key).Nodup}
    (hrun : Run (recordStep calls) (recordStart table hkeys) history s) :
    RecordInvariant calls table history s :=
  hrun.invariant (recordInvariant_start hkeys) fun _ _ _ _ _ h hstep =>
    recordInvariant_step h hstep

/-- No step modifies or removes a row, durable or not. -/
lemma recordStep_grows (h : RecordInvariant calls table history s) {a : RecordLabel ι}
    (hstep : recordStep calls s a t) :
    s.db.rows <+: t.db.rows ∧ s.db.durable <+: t.db.durable := by
  cases a with
  | insert i =>
    obtain ⟨-, rfl⟩ := hstep
    rw [Database.insertOrIgnore_rows, Database.insertOrIgnore_durable]
    refine ⟨?_, List.prefix_rfl⟩
    split_ifs
    · exact List.prefix_rfl
    · exact List.prefix_append _ _
  | commit i =>
    obtain ⟨new, -, rfl⟩ := hstep
    rw [Database.commit_rows, Database.commit_durable]
    exact ⟨List.prefix_rfl, List.prefix_append _ _⟩
  | reconnect =>
    obtain ⟨hquiet, rfl⟩ := hstep
    have hclosed : s.db.pending = [] := by
      by_contra hopen
      obtain ⟨i, new, hi⟩ := h.opened hopen
      exact hquiet i new hi
    rw [Database.reconnect_eq_self hclosed]
    exact ⟨List.prefix_rfl, List.prefix_rfl⟩

/-! ## When all calls have returned -/

/-- The call's row holds what it was called with. -/
lemma RecordCall.holds (call : RecordCall rt) : call.row.Holds rt call.now call.delivery :=
  rowOf_holds call.bound

variable (calls table history) in
/-- The delivery's key is new, and no earlier insert was for a delivery with that key. -/
def FirstInsert (i : ι) : Prop :=
  Wins (fun i => (calls i).delivery.key) (table.map Row.deliveryKey) (insertOrder history) i

omit [DecidableEq ι] in
/-- The first inserts of new keys are those that won. -/
lemma mem_winningCalls {i : ι} :
    i ∈ winningCalls calls table history ↔ FirstInsert calls table history i := by
  have hinj : Function.Injective (Prod.map id Text.toPyStr : RowKey → Text × PyStr) :=
    Function.injective_id.prodMap Text.toPyStr_injective
  have hkey : (fun i => (calls i).delivery.key) =
      fun i => Prod.map id Text.toPyStr (calls i).key :=
    funext fun i => (calls i).holds.deliveryKey.symm
  have htaken : table.map Row.deliveryKey =
      (table.map Row.key).map (Prod.map id Text.toPyStr) := by
    rw [List.map_map]
    rfl
  rw [winningCalls, mem_winners, FirstInsert, hkey, htaken, wins_comp_iff hinj]

variable (calls table history s) in
/-- What a collection of calls leaves behind. -/
structure RecordOutcome : Prop where
  /-- The initial rows are there unchanged, followed by rows that hold the deliveries of the
  first calls, one each. -/
  rows : ∃ new, s.db.durable = table ++ new ∧
    (∀ row ∈ new, ∃ i, FirstInsert calls table history i ∧
      row.Holds rt (calls i).now (calls i).delivery) ∧
    ∀ i, FirstInsert calls table history i →
      ∃! row, row ∈ new ∧ row.Holds rt (calls i).now (calls i).delivery
  /-- No transaction is left open. -/
  closed : s.db.pending = []
  /-- Each new key has exactly one row, which holds the delivery of its first call. -/
  oneRow : ∀ key ∉ table.map Row.deliveryKey, (∃ i, (calls i).delivery.key = key) →
    ∃ i, FirstInsert calls table history i ∧ (calls i).delivery.key = key ∧
      ∃ row, row.Holds rt (calls i).now (calls i).delivery ∧
        ∀ r, r ∈ s.db.durable ∧ r.deliveryKey = key ↔ r = row
  /-- Each new key has exactly one call that returned `True`. -/
  oneTrue : ∀ key ∉ table.map Row.deliveryKey, (∃ i, (calls i).delivery.key = key) →
    ∃! i, (calls i).delivery.key = key ∧ s.phase i = .returned true
  /-- The first calls returned `True`, all others `False`. -/
  answers : ∀ i, (FirstInsert calls table history i ∧ s.phase i = .returned true) ∨
    (¬ FirstInsert calls table history i ∧ s.phase i = .returned false)

omit [DecidableEq ι] in
/-- Two rows of a database for one delivery are one row. -/
lemma eq_of_deliveryKey_eq {db : Database} {r q : Row} (hr : r ∈ db.rows) (hq : q ∈ db.rows)
    (h : r.deliveryKey = q.deliveryKey) : r = q :=
  List.inj_on_of_nodup_map db.primaryKey hr hq (Row.deliveryKey_eq_iff.mp h)

omit [DecidableEq ι] in
/-- A call that has returned `True` was the first of its key, and no other was. -/
lemma RecordInvariant.answer (h : RecordInvariant calls table history s) {i : ι} {new : Bool}
    (hi : s.phase i = .returned new) :
    (FirstInsert calls table history i ∧ s.phase i = .returned true) ∨
      (¬ FirstInsert calls table history i ∧ s.phase i = .returned false) := by
  have hwin : new = true ↔ FirstInsert calls table history i :=
    (h.result i new (Or.inr hi)).trans mem_winningCalls
  cases new with
  | true => exact Or.inl ⟨hwin.mp rfl, hi⟩
  | false => exact Or.inr ⟨fun hf => by simpa using hwin.mpr hf, hi⟩

omit [DecidableEq ι] in
/-- A new key is won by a call that has it, once that call's insert has run. -/
lemma exists_firstInsert {key : Text × PyStr} (hfree : key ∉ table.map Row.deliveryKey) {i : ι}
    (hi : i ∈ insertOrder history) (hkey : (calls i).delivery.key = key) :
    ∃ j, FirstInsert calls table history j ∧ (calls j).delivery.key = key := by
  have hwon : key ∈ (winners (fun i => (calls i).delivery.key) (table.map Row.deliveryKey)
      (insertOrder history)).map fun i => (calls i).delivery.key :=
    mem_map_winners.mpr ⟨hfree, hkey ▸ List.mem_map_of_mem hi⟩
  obtain ⟨j, hj, hjkey⟩ := List.mem_map.mp hwon
  exact ⟨j, mem_winners.mp hj, hjkey⟩

omit [DecidableEq ι] in
/-- No two first inserts have one key. -/
lemma FirstInsert.eq_of_key_eq {i j : ι} (hi : FirstInsert calls table history i)
    (hj : FirstInsert calls table history j)
    (h : (calls i).delivery.key = (calls j).delivery.key) : i = j := by
  have hnodup : ((winners (fun i => (calls i).delivery.key) (table.map Row.deliveryKey)
      (insertOrder history)).map fun i => (calls i).delivery.key).Nodup :=
    nodup_map_winners _ _ _
  exact List.inj_on_of_nodup_map hnodup (mem_winners.mpr hi) (mem_winners.mpr hj) h

omit [DecidableEq ι] in
/-- The row of a first insert is there. -/
lemma RecordInvariant.row_mem (h : RecordInvariant calls table history s) {i : ι}
    (hi : FirstInsert calls table history i) : (calls i).row ∈ s.db.rows := by
  rw [h.rows, List.mem_append]
  exact Or.inr (List.mem_map_of_mem (mem_winningCalls.mpr hi))

omit [DecidableEq ι] in
/-- The rows after the initial ones hold the deliveries of the first inserts. -/
lemma RecordInvariant.holds_rows (h : RecordInvariant calls table history s)
    (hdurable : s.db.rows = s.db.durable) :
    ∃ new, s.db.durable = table ++ new ∧
      (∀ row ∈ new, ∃ i, FirstInsert calls table history i ∧
        row.Holds rt (calls i).now (calls i).delivery) ∧
      ∀ i, FirstInsert calls table history i →
        ∃! row, row ∈ new ∧ row.Holds rt (calls i).now (calls i).delivery := by
  refine ⟨_, hdurable ▸ h.rows, fun row hrow => ?_, fun i hi => ?_⟩
  · obtain ⟨i, hi, rfl⟩ := List.mem_map.mp hrow
    exact ⟨i, mem_winningCalls.mp hi, (calls i).holds⟩
  · have hmem : (calls i).row ∈ (winningCalls calls table history).map fun i => (calls i).row :=
      List.mem_map_of_mem (mem_winningCalls.mpr hi)
    refine ⟨_, ⟨hmem, (calls i).holds⟩, fun row hrow => ?_⟩
    have hrows : row ∈ s.db.rows := h.rows ▸ List.mem_append_right _ hrow.1
    exact eq_of_deliveryKey_eq hrows (h.row_mem hi)
      (hrow.2.deliveryKey.trans (calls i).holds.deliveryKey.symm)

omit [DecidableEq ι] in
/-- The invariant at a moment when all calls have returned. -/
lemma RecordInvariant.outcome (h : RecordInvariant calls table history s)
    (hdone : ∀ i, ∃ new, s.phase i = .returned new) :
    RecordOutcome calls table history s := by
  have hclosed : s.db.pending = [] := by
    by_contra hopen
    obtain ⟨i, new, hi⟩ := h.opened hopen
    obtain ⟨new', hi'⟩ := hdone i
    rw [hi] at hi'
    cases hi'
  have hdurable : s.db.rows = s.db.durable := by rw [Database.rows, hclosed, List.append_nil]
  have hanswers : ∀ i, (FirstInsert calls table history i ∧ s.phase i = .returned true) ∨
      (¬ FirstInsert calls table history i ∧ s.phase i = .returned false) := fun i => by
    obtain ⟨new, hi⟩ := hdone i
    exact h.answer hi
  have hwinner : ∀ key ∉ table.map Row.deliveryKey, (∃ i, (calls i).delivery.key = key) →
      ∃ i, FirstInsert calls table history i ∧ (calls i).delivery.key = key := by
    rintro key hfree ⟨i, hkey⟩
    obtain ⟨new, hi⟩ := hdone i
    exact exists_firstInsert hfree ((h.begun i).mpr (by simp [hi])) hkey
  refine ⟨h.holds_rows hdurable, hclosed, fun key hfree hex => ?_, fun key hfree hex => ?_,
    hanswers⟩
  · obtain ⟨i, hi, hikey⟩ := hwinner key hfree hex
    have hrowkey : (calls i).row.deliveryKey = key := (calls i).holds.deliveryKey.trans hikey
    refine ⟨i, hi, hikey, _, (calls i).holds, fun r => ⟨fun hr => ?_, ?_⟩⟩
    · exact eq_of_deliveryKey_eq (hdurable ▸ hr.1) (h.row_mem hi) (hr.2.trans hrowkey.symm)
    · rintro rfl
      exact ⟨hdurable ▸ h.row_mem hi, hrowkey⟩
  · obtain ⟨i, hi, hikey⟩ := hwinner key hfree hex
    have htrue : ∀ j, s.phase j = .returned true → FirstInsert calls table history j :=
      fun j hj => by
        rcases hanswers j with ⟨hf, -⟩ | ⟨-, hfalse⟩
        · exact hf
        · rw [hj] at hfalse
          cases hfalse
    have hphase : s.phase i = .returned true := by
      rcases hanswers i with ⟨-, ht⟩ | ⟨hf, -⟩
      · exact ht
      · exact absurd hi hf
    refine ⟨i, ⟨hikey, hphase⟩, fun j hj => ?_⟩
    exact (htrue j hj.2).eq_of_key_eq hi (hj.1.trans hikey.symm)

/-- **Recording is idempotent under any interleaving.**  In every run from a table with
distinct keys, no step modifies or removes a row; and once all calls have returned, the table
is the initial one with one row for each new key, which holds in its eight columns what the
call whose insert came first was given; that call alone returned `True`. -/
theorem record_idempotent (hkeys : (table.map Row.key).Nodup)
    (hrun : Run (recordStep calls) (recordStart table hkeys) history s)
    (hdone : ∀ i, ∃ new, s.phase i = .returned new) :
    RecordOutcome calls table history s ∧
      ∀ h s₁ a s₂, Run (recordStep calls) (recordStart table hkeys) h s₁ →
        recordStep calls s₁ a s₂ →
        s₁.db.rows <+: s₂.db.rows ∧ s₁.db.durable <+: s₂.db.durable :=
  ⟨(recordInvariant_run hrun).outcome hdone, fun _ _ _ _ hrun hstep =>
    recordStep_grows (recordInvariant_run hrun) hstep⟩

end

/-! A redelivery whose two calls overlap. -/

/-- The row of the ping. -/
def pingRow : Row := ⟨['1'], [], "ping".toList, none, none, none, epoch.isoformatUtc, "{}".toList⟩

/-- Two calls with the same delivery. -/
def pingCalls : Bool → RecordCall .reference := fun _ => ⟨pingDelivery, epoch, pingRow, by decide⟩

/-- The row of the opened issue, when it is received at `now`. -/
def openedRow (now : Civil) : Row :=
  ⟨['2'], "opened".toList, "issues".toList, some 7, none, some "ada".toList, now.isoformatUtc,
    openedText.toList⟩

/-- One second after the epoch. -/
def oneSecond : Civil := { epoch with second := 1, second_valid := by decide }

/-- Two calls with the same delivery, one of them a second later. -/
def openedCalls : Bool → RecordCall .reference
  | false => ⟨openedDelivery, oneSecond, openedRow oneSecond, by decide +kernel⟩
  | true => ⟨openedDelivery, epoch, openedRow epoch, by decide +kernel⟩

/-- Both calls insert, both commit, the second first, and the connection is reopened. -/
def overlap : List (RecordLabel Bool) :=
  [.insert false, .insert true, .commit true, .commit false, .reconnect]

lemma noKeys : (([] : List Row).map Row.key).Nodup := List.nodup_nil

lemma pingKey : ([pingRow].map Row.key).Nodup := List.nodup_singleton _

/-- The overlapping redelivery leaves one row, written by the first insert. -/
theorem record_idempotent_overlap :
    ∃ s, Run (recordStep openedCalls) (recordStart [pingRow] pingKey) overlap s ∧
      s.db.durable = [pingRow, openedRow oneSecond] ∧ s.phase false = .returned true ∧
      s.phase true = .returned false ∧ RecordOutcome openedCalls [pingRow] overlap s := by
  have h₀ : Run (recordStep openedCalls) (recordStart [pingRow] pingKey) [] _ := Run.start
  have h₁ := h₀.next (a := RecordLabel.insert false) (And.intro rfl rfl)
  have h₂ := h₁.next (a := RecordLabel.insert true) (And.intro rfl rfl)
  have h₃ := h₂.next (a := RecordLabel.commit true) ⟨false, by decide +kernel, rfl⟩
  have h₄ := h₃.next (a := RecordLabel.commit false) ⟨true, by decide +kernel, rfl⟩
  have h₅ := h₄.next (a := RecordLabel.reconnect) (And.intro (by decide +kernel) rfl)
  exact ⟨_, h₅, by decide +kernel, by decide +kernel, by decide +kernel,
    (record_idempotent pingKey h₅ (by decide +kernel)).1⟩

end IssuesApi
