import IssuesApi.Lib.Transition
import Mathlib.Data.List.Nodup
import Mathlib.Logic.Function.Basic

/-!
# Linearizability

Concurrent operations on a shared object, against a sequential specification of it.  Each
operation is invoked and returns once, and in between others move; an environment acts on the
object as well.  A history is linearizable when its operations can be put in one order, in which
the specification allows them one after the other, and which keeps an operation that had returned
before another was invoked in front of it.  An operation that has not returned may be in the
order or not.

The proof rule is the method of linearization points.  `HasPoints` asks, step by step, that
every operation takes effect at one point of its own between its invocation and its return, and
that the result it returns in the end is one that it could have been given there;
`HasPoints.linearizes` concludes for all runs.
-/

namespace IssuesApi

variable {ι ρ ε σ τ α : Type*}

/-! ## Histories -/

/-- What an observer sees. -/
inductive Event (ι ρ ε : Type*) where
  | invoked (i : ι)
  | returned (i : ι) (result : ρ)
  | external (e : ε)

/-- A step of a sequential history. -/
inductive Entry (ι ρ ε : Type*) where
  | call (i : ι) (result : ρ)
  | external (e : ε)

def Event.externals : List (Event ι ρ ε) → List ε :=
  List.filterMap fun | .external e => some e | _ => none

def Entry.externals : List (Entry ι ρ ε) → List ε :=
  List.filterMap fun | .external e => some e | _ => none

/-- The operations of a sequential history. -/
def Entry.callers : List (Entry ι ρ ε) → List ι :=
  List.filterMap fun | .call i _ => some i | _ => none

/-- One operation returned before another was invoked. -/
def ReturnsBefore (events : List (Event ι ρ ε)) (i j : ι) : Prop :=
  ∃ early result late, events = early ++ late ∧ .returned i result ∈ early ∧ .invoked j ∈ late

/-- One operation comes before another. -/
def Before (order : List (Entry ι ρ ε)) (i j : ι) : Prop :=
  ∃ early late, order = early ++ late ∧ i ∈ Entry.callers early ∧ j ∉ Entry.callers early

/-- The order explains the history. -/
structure Linearizes (spec : σ → Entry ι ρ ε → σ → Prop) (init : σ)
    (events : List (Event ι ρ ε)) (order : List (Entry ι ρ ε)) : Prop where
  /-- No operation takes effect twice. -/
  once : (Entry.callers order).Nodup
  legal : ∃ s, Run spec init order s
  returned : ∀ i result, .returned i result ∈ events → .call i result ∈ order
  invoked : ∀ i ∈ Entry.callers order, .invoked i ∈ events
  external : Entry.externals order = Event.externals events
  realTime : ∀ i j, ReturnsBefore events i j → j ∈ Entry.callers order → Before order i j

/-! ## Linearization points -/

/-- The part a step plays. -/
inductive Role (ι ρ ε : Type*) where
  | invoke (i : ι)
  | point (i : ι)
  | answer (i : ι) (result : ρ)
  | external (e : ε)
  | internal

/-- How far an operation has come. -/
inductive Progress where
  | idle
  | running
  | effective
  | finished

/-- The operation has taken effect. -/
def Progress.Past : Progress → Prop
  | .effective | .finished => True
  | _ => False

def Role.event : Role ι ρ ε → Option (Event ι ρ ε)
  | .invoke i => some (.invoked i)
  | .answer i result => some (.returned i result)
  | .external e => some (.external e)
  | _ => none

/-- The entry of a step, when the operations return the given results. -/
def Role.entry (results : ι → ρ) : Role ι ρ ε → Option (Entry ι ρ ε)
  | .point i => some (.call i (results i))
  | .external e => some (.external e)
  | _ => none

/-- What is observed of a run. -/
def observed (role : α → Role ι ρ ε) (history : List α) : List (Event ι ρ ε) :=
  history.filterMap fun a => (role a).event

/-- The points of a run, in order. -/
def pointsOf (role : α → Role ι ρ ε) (results : ι → ρ) (history : List α) :
    List (Entry ι ρ ε) := history.filterMap fun a => (role a).entry results

/-- The system, as the method of linearization points looks at it. -/
structure Points (ι ρ ε σ τ α : Type*) where
  role : α → Role ι ρ ε
  /-- The object. -/
  object : τ → σ
  progress : τ → ι → Progress
  /-- The results an operation that has taken effect may still return. -/
  mayReturn : τ → ι → ρ → Prop
  /-- What holds at any moment. -/
  invariant : τ → Prop

variable [DecidableEq ι]

/-- What a step of a role does. -/
def Points.Plays (P : Points ι ρ ε σ τ α) (spec : σ → Entry ι ρ ε → σ → Prop) (s t : τ) :
    Role ι ρ ε → Prop
  | .invoke i => P.progress s i = .idle ∧
      P.progress t = Function.update (P.progress s) i .running ∧ P.object t = P.object s
  | .point i => P.progress s i = .running ∧
      P.progress t = Function.update (P.progress s) i .effective ∧
      ∀ result, P.mayReturn t i result → spec (P.object s) (.call i result) (P.object t)
  | .answer i result => P.progress s i = .effective ∧
      P.progress t = Function.update (P.progress s) i .finished ∧ P.object t = P.object s ∧
      ∀ result', P.mayReturn t i result' → result' = result
  | .external e => P.progress t = P.progress s ∧ spec (P.object s) (.external e) (P.object t)
  | .internal => P.progress t = P.progress s ∧ P.object t = P.object s

/-- Every step plays its role, and takes no possible result of another operation back. -/
structure HasPoints (P : Points ι ρ ε σ τ α) (step : τ → α → τ → Prop)
    (spec : σ → Entry ι ρ ε → σ → Prop) : Prop where
  kept : ∀ {s a t}, P.invariant s → step s a t → P.invariant t
  plays : ∀ {s a t}, P.invariant s → step s a t → P.Plays spec s t (P.role a)
  narrows : ∀ {s a t i result}, P.invariant s → step s a t → (P.progress s i).Past →
    P.mayReturn t i result → P.mayReturn s i result
  possible : ∀ {s i}, P.invariant s → (P.progress s i).Past → ∃ result, P.mayReturn s i result

/-! ## The rule -/

section Rule

variable {P : Points ι ρ ε σ τ α} {step : τ → α → τ → Prop} {spec : σ → Entry ι ρ ε → σ → Prop}
  {init s t : τ} {history : List α} {a : α}

omit [DecidableEq ι] in
lemma mem_observed {role : α → Role ι ρ ε} {event : Event ι ρ ε} :
    event ∈ observed role history ↔ ∃ a ∈ history, (role a).event = some event :=
  List.mem_filterMap

omit [DecidableEq ι] in
lemma event_eq_invoked {r : Role ι ρ ε} {i : ι} : r.event = some (.invoked i) ↔ r = .invoke i := by
  cases r <;> simp [Role.event]

omit [DecidableEq ι] in
lemma event_eq_returned {r : Role ι ρ ε} {i : ι} {result : ρ} :
    r.event = some (.returned i result) ↔ r = .answer i result := by
  cases r <;> simp [Role.event]

omit [DecidableEq ι] in
lemma mem_callers_pointsOf {role : α → Role ι ρ ε} {results : ι → ρ} {i : ι} :
    i ∈ Entry.callers (pointsOf role results history) ↔ ∃ a ∈ history, role a = .point i := by
  simp only [Entry.callers, pointsOf, List.filterMap_filterMap, List.mem_filterMap]
  refine exists_congr fun a => and_congr_right fun _ => ?_
  cases role a <;> simp [Role.entry]

omit [DecidableEq ι] in
lemma pointsOf_append (role : α → Role ι ρ ε) (results : ι → ρ) (history later : List α) :
    pointsOf role results (history ++ later) =
      pointsOf role results history ++ pointsOf role results later := List.filterMap_append

omit [DecidableEq ι] in
lemma callers_append (order later : List (Entry ι ρ ε)) :
    Entry.callers (order ++ later) = Entry.callers order ++ Entry.callers later :=
  List.filterMap_append

/-- What a run has explained so far. -/
structure Explains (P : Points ι ρ ε σ τ α) (spec : σ → Entry ι ρ ε → σ → Prop) (init : τ)
    (history : List α) (s : τ) : Prop where
  invariant : P.invariant s
  legal : ∀ results, (∀ i, (P.progress s i).Past → P.mayReturn s i (results i)) →
    Run spec (P.object init) (pointsOf P.role results history) (P.object s)
  past : ∀ i, (P.progress s i).Past ↔ ∃ a ∈ history, P.role a = .point i
  begun : ∀ i, P.progress s i ≠ .idle ↔ ∃ a ∈ history, P.role a = .invoke i
  once : ∀ results, (Entry.callers (pointsOf P.role results history)).Nodup
  answered : ∀ a ∈ history, ∀ i result, P.role a = .answer i result →
    P.progress s i = .finished ∧ ∀ result', P.mayReturn s i result' → result' = result

omit [DecidableEq ι] in
/-- Before the first step. -/
lemma Explains.start (hinit : P.invariant init) (hidle : ∀ i, P.progress init i = .idle) :
    Explains P spec init [] init where
  invariant := hinit
  legal _ _ := .start
  past i := by simp [hidle i, Progress.Past]
  begun i := by simp [hidle i]
  once _ := List.nodup_nil
  answered := by simp

/-- A step moves one operation on, or none. -/
lemma progress_step {r : Role ι ρ ε} (h : P.Plays spec s t r) (i : ι) :
    (r = .invoke i ∧ P.progress s i = .idle ∧ P.progress t i = .running) ∨
      (r = .point i ∧ P.progress s i = .running ∧ P.progress t i = .effective) ∨
      (∃ result, r = .answer i result ∧ P.progress s i = .effective ∧
        P.progress t i = .finished) ∨
      (r ≠ .invoke i ∧ r ≠ .point i ∧ P.progress t i = P.progress s i) := by
  cases r with
  | invoke j =>
    obtain ⟨hs, ht, -⟩ := h
    by_cases hij : j = i
    · subst hij
      exact Or.inl ⟨rfl, hs, by rw [ht, Function.update_self]⟩
    · exact Or.inr (Or.inr (Or.inr ⟨by simpa, by simp, by
        rw [ht, Function.update_of_ne (Ne.symm hij)]⟩))
  | point j =>
    obtain ⟨hs, ht, -⟩ := h
    by_cases hij : j = i
    · subst hij
      exact Or.inr (Or.inl ⟨rfl, hs, by rw [ht, Function.update_self]⟩)
    · exact Or.inr (Or.inr (Or.inr ⟨by simp, by simpa, by
        rw [ht, Function.update_of_ne (Ne.symm hij)]⟩))
  | answer j result =>
    obtain ⟨hs, ht, -⟩ := h
    by_cases hij : j = i
    · subst hij
      exact Or.inr (Or.inr (Or.inl ⟨result, rfl, hs, by rw [ht, Function.update_self]⟩))
    · exact Or.inr (Or.inr (Or.inr ⟨by simp, by simp, by
        rw [ht, Function.update_of_ne (Ne.symm hij)]⟩))
  | external e => exact Or.inr (Or.inr (Or.inr ⟨by simp, by simp, by rw [h.1]⟩))
  | internal => exact Or.inr (Or.inr (Or.inr ⟨by simp, by simp, by rw [h.1]⟩))

/-- A step changes who has taken effect at points only. -/
lemma past_step {r : Role ι ρ ε} (h : P.Plays spec s t r) (i : ι) :
    (P.progress t i).Past ↔ (P.progress s i).Past ∨ r = .point i := by
  rcases progress_step h i with ⟨rfl, hs, ht⟩ | ⟨rfl, hs, ht⟩ | ⟨result, rfl, hs, ht⟩ |
    ⟨-, hr, ht⟩
  · simp [hs, ht, Progress.Past]
  · simp [ht, Progress.Past]
  · simp [hs, ht, Progress.Past]
  · simp [ht, hr]

/-- A step changes who has begun at invocations only. -/
lemma begun_step {r : Role ι ρ ε} (h : P.Plays spec s t r) (i : ι) :
    P.progress t i ≠ .idle ↔ P.progress s i ≠ .idle ∨ r = .invoke i := by
  rcases progress_step h i with ⟨rfl, hs, ht⟩ | ⟨rfl, hs, ht⟩ | ⟨result, rfl, hs, ht⟩ |
    ⟨hr, -, ht⟩
  · simp [ht]
  · simp [hs, ht]
  · simp [hs, ht]
  · simp [ht, hr]

/-- Who has finished stays so. -/
lemma finished_step {r : Role ι ρ ε} (h : P.Plays spec s t r) {i : ι}
    (hi : P.progress s i = .finished) : P.progress t i = .finished := by
  rcases progress_step h i with ⟨-, hs, -⟩ | ⟨-, hs, -⟩ | ⟨_, -, hs, -⟩ | ⟨-, -, ht⟩
  · rw [hs] at hi
    cases hi
  · rw [hs] at hi
    cases hi
  · rw [hs] at hi
    cases hi
  · rw [ht, hi]

/-- One more step of a history, among those with some property. -/
lemma exists_mem_append_singleton {p : α → Prop} :
    (∃ x ∈ history ++ [a], p x) ↔ (∃ x ∈ history, p x) ∨ p a := by
  simp [or_and_right, exists_or]

/-- One step more. -/
lemma Explains.next (hpoints : HasPoints P step spec) (h : Explains P spec init history s)
    (hstep : step s a t) : Explains P spec init (history ++ [a]) t where
  invariant := hpoints.kept h.invariant hstep
  legal results hresults := by
    have hplays := hpoints.plays h.invariant hstep
    have hrun := h.legal results fun i hi => hpoints.narrows h.invariant hstep hi
      (hresults i ((past_step hplays i).mpr (Or.inl hi)))
    rw [pointsOf_append]
    cases hrole : P.role a with
    | invoke i =>
      rw [hrole] at hplays
      simpa [pointsOf, hrole, Role.entry, hplays.2.2] using hrun
    | point i =>
      rw [hrole] at hplays
      have hpast : (P.progress t i).Past := (past_step hplays i).mpr (Or.inr rfl)
      have hentry : pointsOf P.role results [a] = [.call i (results i)] := by
        simp [pointsOf, hrole, Role.entry]
      rw [hentry]
      exact hrun.next (hplays.2.2 _ (hresults i hpast))
    | answer i result =>
      rw [hrole] at hplays
      simpa [pointsOf, hrole, Role.entry, hplays.2.2.1] using hrun
    | external e =>
      rw [hrole] at hplays
      have hentry : pointsOf P.role results [a] = [.external e] := by
        simp [pointsOf, hrole, Role.entry]
      rw [hentry]
      exact hrun.next hplays.2
    | internal =>
      rw [hrole] at hplays
      simpa [pointsOf, hrole, Role.entry, hplays.2] using hrun
  past i := by
    rw [past_step (hpoints.plays h.invariant hstep), h.past, exists_mem_append_singleton]
  begun i := by
    rw [begun_step (hpoints.plays h.invariant hstep), h.begun, exists_mem_append_singleton]
  once results := by
    have hplays := hpoints.plays h.invariant hstep
    rw [pointsOf_append, callers_append]
    cases hrole : P.role a with
    | point i =>
      rw [hrole] at hplays
      have hentry : Entry.callers (pointsOf P.role results [a]) = [i] := by
        simp [pointsOf, hrole, Role.entry, Entry.callers]
      -- an operation that is still running has had no point
      have hnew : i ∉ Entry.callers (pointsOf P.role results history) := by
        rw [mem_callers_pointsOf, ← h.past, hplays.1]
        exact id
      rw [hentry, List.nodup_append]
      refine ⟨h.once results, List.nodup_singleton i, ?_⟩
      rintro j hj k hk rfl
      exact hnew (List.mem_singleton.mp hk ▸ hj)
    | _ => simpa [pointsOf, hrole, Role.entry, Entry.callers] using h.once results
  answered := by
    have hplays := hpoints.plays h.invariant hstep
    intro x hx i result hrole
    rcases List.mem_append.mp hx with hold | hnew
    · obtain ⟨hfinished, honly⟩ := h.answered x hold i result hrole
      refine ⟨finished_step hplays hfinished, fun result' hresult' => honly result' ?_⟩
      exact hpoints.narrows h.invariant hstep (by rw [hfinished]; trivial) hresult'
    · obtain rfl := List.mem_singleton.mp hnew
      rw [hrole] at hplays
      exact ⟨by rw [hplays.2.1, Function.update_self], hplays.2.2.2⟩

lemma Explains.run (hpoints : HasPoints P step spec) (hinit : P.invariant init)
    (hidle : ∀ i, P.progress init i = .idle) (hrun : Run step init history s) :
    Explains P spec init history s := by
  induction hrun with
  | start => exact Explains.start hinit hidle
  | next _ hs ih => exact ih.next hpoints hs

omit [DecidableEq ι] in
/-- The last step of a run. -/
lemma Run.last (h : Run step init (history ++ [a]) t) :
    ∃ s, Run step init history s ∧ step s a t := by
  generalize hwhole : history ++ [a] = whole at h
  cases h with
  | start => simp at hwhole
  | next hrun hs =>
    obtain ⟨rfl, rfl⟩ := List.append_singleton_inj.mp hwhole
    exact ⟨_, hrun, hs⟩

omit [DecidableEq ι] in
/-- A run up to a moment. -/
lemma Run.upTo {later : List α} (h : Run step init (history ++ later) t) :
    ∃ s, Run step init history s := by
  generalize hwhole : history ++ later = whole at h
  induction h generalizing later with
  | start =>
    obtain ⟨rfl, rfl⟩ := List.append_eq_nil_iff.mp hwhole
    exact ⟨init, .start⟩
  | next hrun hs ih =>
    rcases List.eq_nil_or_concat' later with rfl | ⟨later, a', rfl⟩
    · rw [List.append_nil] at hwhole
      exact ⟨_, hwhole ▸ hrun.next hs⟩
    · rw [← List.append_assoc] at hwhole
      exact ih (List.append_singleton_inj.mp hwhole).1

/-- What had returned before an operation was invoked comes before it. -/
lemma before_of_returnsBefore (hpoints : HasPoints P step spec) (hinit : P.invariant init)
    (hidle : ∀ i, P.progress init i = .idle) (hrun : Run step init history s) (results : ι → ρ)
    {i j : ι} (h : ReturnsBefore (observed P.role history) i j) :
    Before (pointsOf P.role results history) i j := by
  obtain ⟨early, result, late, hevents, hi, hj⟩ := h
  obtain ⟨first, later, rfl, hfirst, hlater⟩ := List.filterMap_eq_append_iff.mp hevents
  obtain ⟨a, ha, hreturn⟩ := List.mem_filterMap.mp (hfirst ▸ hi)
  obtain ⟨b, hb, hinvoke⟩ := List.mem_filterMap.mp (hlater ▸ hj)
  rw [event_eq_returned] at hreturn
  rw [event_eq_invoked] at hinvoke
  obtain ⟨between, after, rfl⟩ := List.append_of_mem hb
  rw [show first ++ (between ++ b :: after) = (first ++ between ++ [b]) ++ after by simp] at hrun ⊢
  obtain ⟨m', hrun'⟩ := hrun.upTo
  obtain ⟨m, hbefore, hstep⟩ := hrun'.last
  have hexplains := Explains.run hpoints hinit hidle hbefore
  have hplays := hpoints.plays hexplains.invariant hstep
  rw [hinvoke] at hplays
  refine ⟨pointsOf P.role results (first ++ between), pointsOf P.role results (b :: after), ?_,
    ?_, ?_⟩
  · rw [← pointsOf_append]
    simp
  · rw [mem_callers_pointsOf, ← hexplains.past,
      (hexplains.answered a (List.mem_append_left _ ha) i result hreturn).1]
    trivial
  · rw [mem_callers_pointsOf, ← hexplains.past, hplays.1]
    exact id

/-- **Linearization points.**  Every history of a system whose operations take effect at points
of their own is linearizable. -/
theorem HasPoints.linearizes [Nonempty ρ] (hpoints : HasPoints P step spec)
    (hinit : P.invariant init) (hidle : ∀ i, P.progress init i = .idle)
    (hrun : Run step init history s) :
    ∃ order, Linearizes spec (P.object init) (observed P.role history) order := by
  classical
  have h := Explains.run hpoints hinit hidle hrun
  have hchoice : ∀ i, ∃ result, (P.progress s i).Past → P.mayReturn s i result := by
    intro i
    by_cases hi : (P.progress s i).Past
    · exact (hpoints.possible h.invariant hi).imp fun _ hresult _ => hresult
    · exact ⟨Classical.arbitrary ρ, fun hpast => absurd hpast hi⟩
  choose results hresults using hchoice
  refine ⟨pointsOf P.role results history, h.once results, ⟨_, h.legal results hresults⟩, ?_, ?_,
    ?_, fun i j hreturns _ => before_of_returnsBefore hpoints hinit hidle hrun results hreturns⟩
  · intro i result hreturned
    obtain ⟨a, ha, hevent⟩ := mem_observed.mp hreturned
    rw [event_eq_returned] at hevent
    obtain ⟨hfinished, honly⟩ := h.answered a ha i result hevent
    have hpast : (P.progress s i).Past := by
      rw [hfinished]
      trivial
    obtain ⟨b, hb, hpoint⟩ := (h.past i).mp hpast
    refine List.mem_filterMap.mpr ⟨b, hb, ?_⟩
    rw [hpoint, Role.entry, honly _ (hresults i hpast)]
  · intro i hi
    rw [mem_callers_pointsOf, ← h.past] at hi
    have hbegun : P.progress s i ≠ .idle := by
      intro hnot
      rw [hnot] at hi
      exact hi
    obtain ⟨a, ha, hinvoke⟩ := (h.begun i).mp hbegun
    exact mem_observed.mpr ⟨a, ha, event_eq_invoked.mpr hinvoke⟩
  · rw [Entry.externals, Event.externals, pointsOf, observed, List.filterMap_filterMap,
      List.filterMap_filterMap]
    refine List.filterMap_congr fun a _ => ?_
    cases P.role a <;> rfl

end Rule

end IssuesApi
