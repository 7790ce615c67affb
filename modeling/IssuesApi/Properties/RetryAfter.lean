import IssuesApi.Properties.StatusTable

/-!
# How long a rate-limited client is told to wait

Two readings of `_map_error` and `_retry_after_seconds`.

* `mapsError_iff` — the mapping returns an error, and a rate-limited one advertises the whole
  seconds of `Retry-After`, else of the reset time, else 60.  It raises instead in two cases:
  `except ValueError` catches neither the `OverflowError` of `int` on an infinity nor the
  `RecursionError` of `response.json()`.
* `waitObeyed_iff` — a client that waits as long as it is told is not early.  The wait is a
  float and `int` truncates it, so this holds of a wait of at most one second, and of one that
  is rounded to the next whole number; every other wait is advertised too short, or, when it
  is so large that doubles are further apart than seconds, too long.

The numbers in the headers are doubles and the clock is any rational; what is left until the
reset time is exact where it is demanded and rounded where it is advertised.
-/

namespace IssuesApi

/-! ## What an error advertises -/

/-- `error.details[key]`. -/
def AppError.detail (e : AppError) (key : String) : Option Json :=
  match e.details with
  | .obj fields => dictGet fields key
  | _ => none

/-- The error tells the client to wait `n` seconds, in its header and in its details. -/
structure Advertises (e : AppError) (n : ℤ) : Prop where
  header : e.headers = [("Retry-After", decimalInt n)]
  detail : e.detail "retry_after_seconds" = some (.int n)

/-- A header's number, when it is finite. -/
def finiteNumber (r : UpstreamResponse) (name : String) : Option ℚ :=
  (announced r name).bind PyFloat.value?

/-- What is left until the reset time, as the subtraction of floats has it. -/
def untilReset (now : ℚ) (r : UpstreamResponse) : Option ℚ :=
  ((announced r "x-ratelimit-reset").map (·.subFinite now)).bind PyFloat.value?

/-- The whole seconds of a wait, at least one; 60 without a wait. -/
def wholeWait : Option ℚ → ℤ
  | some wait => max 1 (truncate wait)
  | none => 60

/-- The seconds to advertise: those of `Retry-After` when it is a finite number, else those to
the reset time when that is one, else 60. -/
def intendedWait (now : ℚ) (r : UpstreamResponse) : ℤ :=
  wholeWait ((finiteNumber r "retry-after").or (untilReset now r))

/-- The response is mapped to an error, which advertises the intended wait when it is the error
of a rate limit. -/
def MapsError (rt : Runtime) (now : ℚ) (r : UpstreamResponse) : Prop :=
  ∃ e, mapError rt now r = .ok e ∧
    (e.code = RateLimitedError.code → ∃ n, 1 ≤ n ∧ n = intendedWait now r ∧ Advertises e n)

/-- The seconds a response demands, exactly: a `Retry-After` that is a number and not negative,
or, where it holds no number, what is left until the reset time. -/
def requiredWait (now : ℚ) (r : UpstreamResponse) : Option ℚ :=
  match announced r "retry-after" with
  | none | some .nan => (finiteNumber r "x-ratelimit-reset").map (· - now)
  | some number => number.value?.filter (0 ≤ ·)

/-- Who waits `n` seconds is not early, and loses less than one second unless `n` is one. -/
structure ObeysWait (wait : ℚ) (n : ℤ) : Prop where
  not_early : wait ≤ n
  positive : 1 ≤ n
  tight : n = 1 ∨ n - wait < 1

/-- What a rate-limited response demands is what its error advertises. -/
def WaitObeyed (rt : Runtime) (now : ℚ) (r : UpstreamResponse) : Prop :=
  Limited r → ∀ wait ∈ requiredWait now r,
    ∃ e n, mapError rt now r = .ok e ∧ Advertises e n ∧ ObeysWait wait n

variable {rt : Runtime} {now : ℚ} {r : UpstreamResponse}

lemma Advertises.unique {e : AppError} {m n : ℤ} (hm : Advertises e m) (hn : Advertises e n) :
    m = n := by
  have h : Json.int m = Json.int n := Option.some.inj (hm.detail.symm.trans hn.detail)
  exact Json.int.inj h

/-! ## The number that is computed -/

lemma one_le_wholeWait (wait : Option ℚ) : 1 ≤ wholeWait wait := by
  cases wait with
  | none => decide
  | some wait => exact le_max_left _ _

/-- Without an infinity, the waiting time is a number that was found, or there is none. -/
lemma announcedWait_value? (h : FiniteWait now r) :
    (announcedWait now r).bind PyFloat.value? =
      (finiteNumber r "retry-after").or (untilReset now r) := by
  rw [FiniteWait, announcedWait] at h
  rw [announcedWait, finiteNumber, untilReset]
  generalize announced r "retry-after" = number at h ⊢
  rcases number with _ | q | _ | negative | _
  case some.inf => exact absurd rfl (h negative)
  all_goals rfl

/-- Without an infinity, the intended wait is found. -/
lemma retryAfterSeconds_of_finite (h : FiniteWait now r) :
    retryAfterSeconds now r = .ok (intendedWait now r) := by
  rw [retryAfterSeconds_eq, intendedWait, ← announcedWait_value? h]
  rcases wholeSeconds_cases (announcedWait now r) with
    ⟨q, hq, hseconds⟩ | ⟨hnone, -, hseconds⟩ | ⟨⟨negative, hinf⟩, -⟩
  · rw [hseconds, hq]
    rfl
  · rw [hseconds, hnone]
    rfl
  · exact absurd hinf (h negative)

/-- What is advertised for a finite wait is made of its rounding. -/
lemma intendedWait_of_required {wait : ℚ} (h : requiredWait now r = some wait)
    (hfinite : FiniteWait now r) :
    intendedWait now r = max 1 (truncate (roundDouble wait)) := by
  have hdelay : ∀ x, announced r "retry-after" = some x → x.value? = some wait →
      intendedWait now r = max 1 (truncate (roundDouble wait)) := by
    intro x hann hx
    obtain ⟨text, -, hread⟩ := Option.bind_eq_some_iff.mp hann
    rw [intendedWait, finiteNumber, hann, Option.bind_some, hx,
      roundDouble_eq_self (isDouble_of_floatOfText hread hx)]
    rfl
  have hreset : (finiteNumber r "x-ratelimit-reset").map (· - now) = some wait →
      finiteNumber r "retry-after" = none →
      announcedWait now r = (announced r "x-ratelimit-reset").map (·.subFinite now) →
      intendedWait now r = max 1 (truncate (roundDouble wait)) := by
    intro hwait hnone hann
    obtain ⟨reset, hreset, rfl⟩ := Option.map_eq_some_iff.mp hwait
    obtain ⟨x, hx, hvalue⟩ := Option.bind_eq_some_iff.mp hreset
    rcases PyFloat.subFinite_cases hvalue now with hsub | ⟨negative, hinf⟩
    · rw [intendedWait, hnone, untilReset, hx, Option.map_some, Option.bind_some, hsub]
      rfl
    · rw [hx, Option.map_some, hinf] at hann
      exact absurd hann (hfinite negative)
  rw [requiredWait] at h
  cases hann : announced r "retry-after" with
  | none =>
    rw [hann] at h
    exact hreset h (by rw [finiteNumber, hann]; rfl) (by rw [announcedWait, hann])
  | some number =>
    rw [hann] at h
    cases number with
    | nan => exact hreset h (by rw [finiteNumber, hann]; rfl) (by rw [announcedWait, hann])
    | finite delay => exact hdelay _ hann (Option.filter_eq_some_iff.mp h).1
    | negZero => exact hdelay _ hann (Option.filter_eq_some_iff.mp h).1
    | inf negative => exact hdelay _ hann (Option.filter_eq_some_iff.mp h).1

/-- Rounding and truncation obey a wait that is short, or is rounded to the next whole number. -/
lemma obeysWait_iff (wait : ℚ) :
    ObeysWait wait (max 1 (truncate (roundDouble wait))) ↔
      wait ≤ 1 ∨ roundDouble wait = ⌈wait⌉ := by
  rw [← wait_bounds_iff]
  exact ⟨fun h => ⟨h.not_early, h.tight⟩, fun h => ⟨h.1, le_max_left _ _, h.2⟩⟩

/-! ## The error that carries it -/

/-- Only a recursion error keeps the body from being read. -/
lemma errorPayload_returns_iff :
    (∃ payload, errorPayload rt r = .ok payload) ↔
      rt.loads r.content ≠ .error .recursionError := by
  unfold errorPayload loadsOr
  cases rt.loads r.content with
  | ok value => simp
  | error e => cases e <;> simp [LoadsError.exception, BuiltinError.isValueError, raiseBuiltin]

/-- The details name no waiting time of their own. -/
lemma dictGet_upstreamDetails (payload : List (PyStr × Json)) (r : UpstreamResponse) :
    dictGet (upstreamDetails payload r) "retry_after_seconds" = none := by
  have hstatus : py "upstream_status" ≠ py "retry_after_seconds" := by decide
  have hmessage : py "upstream_message" ≠ py "retry_after_seconds" := by decide
  have herrors : py "upstream_errors" ≠ py "retry_after_seconds" := by decide
  rw [dictGet, Option.map_eq_none_iff, List.find?_eq_none]
  unfold upstreamDetails
  intro field hfield
  rw [decide_eq_true_eq]
  rcases List.mem_append.mp hfield with h | h
  · simp only [List.mem_cons, List.not_mem_nil, or_false] at h
    rcases h with rfl | rfl
    · exact hstatus
    · exact hmessage
  · split_ifs at h
    · obtain rfl := List.mem_singleton.mp h
      exact herrors
    · cases h

lemma advertises_rateLimitedError (payload : List (PyStr × Json)) (r : UpstreamResponse) (n : ℤ) :
    Advertises (rateLimitedError (upstreamDetails payload r) n) n := by
  refine ⟨rfl, ?_⟩
  have hold := Option.map_eq_none_iff.mp (dictGet_upstreamDetails payload r)
  show dictGet (upstreamDetails payload r ++ [(py "retry_after_seconds", .int n)])
    "retry_after_seconds" = some (.int n)
  rw [dictGet, List.find?_append, hold]
  simp

/-- A readable response that demands no infinite wait is mapped, and if it is limited to the
error of the intended wait. -/
lemma mapError_of_finite {payload : List (PyStr × Json)}
    (hpayload : errorPayload rt r = .ok payload) (hlimited : Limited r) (hwait : FiniteWait now r) :
    mapError rt now r =
      .ok (rateLimitedError (upstreamDetails payload r) (intendedWait now r)) := by
  rw [mapError_of_limited hpayload hlimited, retryAfterSeconds_of_finite hwait, ok_bind]

/-- What is mapped was read. -/
lemma readable_of_mapped {e : AppError} (h : mapError rt now r = .ok e) :
    ∃ payload, errorPayload rt r = .ok payload := by
  by_contra hread
  obtain ⟨b, hb⟩ := @mapError_of_unreadable rt now r (not_exists.mp hread)
  rw [hb] at h
  cases h

/-- What is not limited is not reported as limited. -/
lemma limited_of_mappedTo (h : (mappedTo r).2 = RateLimitedError.code) : Limited r := by
  rw [RateLimitedError, mappedTo, designTable] at h
  by_contra hlimited
  have h429 : r.statusCode ≠ 429 := fun h => hlimited ⟨Or.inr h, by simp [isRateLimited_eq, h]⟩
  have hquota (h403 : r.statusCode = 403) : ¬ quotaExhausted r = true := fun h =>
    hlimited ⟨Or.inl h403, by simp [isRateLimited_eq, h]⟩
  rw [if_neg h429] at h
  -- every row that is left has another code
  split_ifs at h
  all_goals first
    | exact absurd h (by decide)
    | exact absurd ‹quotaExhausted r = true› (hquota ‹_›)

/-- **The mapping fails in two cases only.**  `_map_error` returns an error, with the intended
wait if it is that of a rate limit, if and only if the body can be parsed or rejected without
a recursion error, and the wait of a limited response is no infinity. -/
theorem mapsError_iff (rt : Runtime) (now : ℚ) (r : UpstreamResponse) :
    MapsError rt now r ↔
      rt.loads r.content ≠ .error .recursionError ∧ (Limited r → FiniteWait now r) := by
  rw [← errorPayload_returns_iff]
  constructor
  · rintro ⟨e, he, -⟩
    obtain ⟨payload, hpayload⟩ := readable_of_mapped he
    refine ⟨⟨payload, hpayload⟩, fun hlimited => ?_⟩
    by_contra hinf
    rw [mapError_of_infinite hpayload hlimited hinf] at he
    cases he
  · rintro ⟨⟨payload, hpayload⟩, hwait⟩
    by_cases hlimited : Limited r
    · refine ⟨_, mapError_of_finite hpayload hlimited (hwait hlimited), fun _ => ?_⟩
      exact ⟨_, one_le_wholeWait _, rfl, advertises_rateLimitedError _ _ _⟩
    · obtain ⟨e, he, hcode, -⟩ := @mapError_spec rt now r payload hpayload hwait
      refine ⟨e, he, fun hrate => absurd (limited_of_mappedTo ?_) hlimited⟩
      rw [← hcode]
      exact hrate

/-- A limited response with a waiting time too large for a float. -/
def overlongResponse : UpstreamResponse :=
  ⟨429, [("retry-after", "1e400".toList)], [], "Too Many Requests".toList⟩

/-- Mapping it raises `OverflowError`. -/
theorem overlong_not_mapped :
    mapError .reference 0 overlongResponse = .error (.builtin .overflowError) ∧
      ¬ MapsError .reference 0 overlongResponse := by
  have hraise : mapError .reference 0 overlongResponse = .error (.builtin .overflowError) := by
    decide +kernel
  refine ⟨hraise, ?_⟩
  rintro ⟨e, he, -⟩
  rw [hraise] at he
  cases he

/-! ## Who obeys it -/

/-- **Obeying the advertised wait.**  A rate-limited response that demands a wait is answered
with one that is long enough, and less than a second too long unless it is one second, if and
only if the body raises no recursion error, the subtraction does not overflow, and the wait is
at most one second or its nearest double is the next whole number. -/
theorem waitObeyed_iff (rt : Runtime) (now : ℚ) (r : UpstreamResponse) :
    WaitObeyed rt now r ↔ (Limited r → ∀ wait ∈ requiredWait now r,
      rt.loads r.content ≠ .error .recursionError ∧ FiniteWait now r ∧
        (wait ≤ 1 ∨ roundDouble wait = ⌈wait⌉)) := by
  unfold WaitObeyed
  refine forall_congr' fun hlimited => forall₂_congr fun wait hmem => ?_
  rw [← errorPayload_returns_iff, ← obeysWait_iff]
  constructor
  · rintro ⟨e, n, he, hadvertised, hobeys⟩
    obtain ⟨payload, hpayload⟩ := readable_of_mapped he
    have hfinite : FiniteWait now r := by
      by_contra hinf
      rw [mapError_of_infinite hpayload hlimited hinf] at he
      cases he
    rw [mapError_of_finite hpayload hlimited hfinite] at he
    obtain rfl := Except.ok.inj he
    have hn := hadvertised.unique (advertises_rateLimitedError payload r (intendedWait now r))
    exact ⟨⟨payload, hpayload⟩, hfinite, intendedWait_of_required hmem hfinite ▸ hn ▸ hobeys⟩
  · rintro ⟨⟨payload, hpayload⟩, hfinite, hobeys⟩
    rw [← intendedWait_of_required hmem hfinite] at hobeys
    exact ⟨_, _, mapError_of_finite hpayload hlimited hfinite,
      advertises_rateLimitedError _ _ _, hobeys⟩

/-- A response whose quota is reset at second 100. -/
def exhaustedResponse : UpstreamResponse :=
  ⟨403, [("x-ratelimit-remaining", ['0']), ("x-ratelimit-reset", "100".toList)], [],
    "Forbidden".toList⟩

/-- At second 98.5 it is answered with a wait of one second, which ends before the reset. -/
theorem exhausted_not_obeyed :
    requiredWait (197 / 2) exhaustedResponse = some (3 / 2) ∧
      retryAfterSeconds (197 / 2) exhaustedResponse = .ok 1 ∧
        ¬ WaitObeyed .reference (197 / 2) exhaustedResponse := by
  have hrequired : requiredWait (197 / 2) exhaustedResponse = some (3 / 2) := by decide +kernel
  have hmapped : mapError .reference (197 / 2) exhaustedResponse =
      .ok (rateLimitedError (upstreamDetails [] exhaustedResponse) 1) := by decide +kernel
  refine ⟨hrequired, by decide +kernel, fun hobeyed => ?_⟩
  have hlimited : Limited exhaustedResponse := ⟨Or.inl rfl, by decide +kernel⟩
  obtain ⟨e, n, he, hadvertised, hobeys⟩ := hobeyed hlimited _ hrequired
  rw [hmapped] at he
  obtain rfl := Except.ok.inj he
  obtain rfl := hadvertised.unique (advertises_rateLimitedError [] exhaustedResponse 1)
  exact absurd hobeys.not_early (by norm_num)

end IssuesApi
