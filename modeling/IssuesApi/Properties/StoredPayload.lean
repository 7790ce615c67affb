import IssuesApi.Lib.FirstWins
import IssuesApi.Lib.FloatRepr
import IssuesApi.Lib.JsonReadable
import IssuesApi.Properties.EventLog
import IssuesApi.Raises

/-!
# Reading a stored payload back

`payload_for` reads the text that `record` wrote.  `rows_eq_winners` describes the store after
any run of requests: its rows are those of the accepted requests, the first of each key, in the
order of acceptance.  `payloadFor_iff` says from it what `payload_for` can return for a delivery
id: nothing, when no request with the id was accepted, and otherwise the payload of a request
that was the first to be accepted with its id and its action.

The payload comes back with its surrogates paired up.  A body can bring a high surrogate
directly before a low one, when it does not write both as escapes; such a payload is not read
back as it was received, and every other one is.
-/

namespace IssuesApi

variable {hmac : Hmac} {rt : Runtime} {settings : Settings}

/-! ## The rows of a run -/

/-- The row an exchange offers to the store. -/
def Exchange.row (hmac : Hmac) (rt : Runtime) (settings : Settings) (x : Exchange) :
    Option Row :=
  (verifiedDelivery hmac rt settings.webhookSecret x.request >>= rowOf rt x.now).toOption

lemma toOption_eq_some {ε α : Type} {x : Except ε α} {a : α} :
    x.toOption = some a ↔ x = .ok a := by
  cases x <;> simp [Except.toOption]

lemma Exchange.row_eq_some {x : Exchange} {row : Row} :
    x.row hmac rt settings = some row ↔
      ∃ d, verifiedDelivery hmac rt settings.webhookSecret x.request = .ok d ∧
        rowOf rt x.now d = .ok row := by
  rw [Exchange.row, toOption_eq_some, bind_eq_ok]

/-- An exchange that offers no row fails, and one that offers a row records it. -/
lemma webhookStep_row {db db' : Database} {x : Exchange}
    (h : webhookStep hmac rt settings db x db') :
    (x.row hmac rt settings = none ∧ x.response.status ≠ 204 ∧ db' = db) ∨
      ∃ row, x.row hmac rt settings = some row ∧ x.response.status = 204 ∧
        db' = (db.recordRow row).2 := by
  unfold webhookStep postWebhook at h
  rcases receiveWebhook_cases hmac rt settings x.now x.request db with
    ⟨e, he⟩ | ⟨d, row, hd, hrow, hok⟩
  · have hraises := @receiveWebhook_raises rt hmac settings x.now x.request db
    rw [he] at h hraises
    obtain ⟨hresponse, rfl⟩ := Prod.mk.inj h
    have hstatus : 400 ≤ x.response.status := by
      rw [← hresponse]
      exact le_status_of_error (by decide) hraises rfl x.requestId
    refine Or.inl ⟨?_, by omega, rfl⟩
    -- a row would have been recorded
    cases hoffer : x.row hmac rt settings with
    | none => rfl
    | some row =>
      obtain ⟨d, hd, hrow⟩ := Exchange.row_eq_some.mp hoffer
      simp [receiveWebhook, record, hd, hrow] at he
  · rw [hok] at h
    obtain ⟨hresponse, rfl⟩ := Prod.mk.inj h
    exact Or.inr ⟨row, Exchange.row_eq_some.mpr ⟨d, hd, hrow⟩, hresponse ▸ rfl, rfl⟩

/-- The rows offered along a history, in order. -/
def offeredRows (hmac : Hmac) (rt : Runtime) (settings : Settings) (history : List Exchange) :
    List Row := history.filterMap (Exchange.row hmac rt settings)

/-- **The store of a run.**  Its rows are the first offered of each key, in order, and a request
was answered 204 exactly when it offered one. -/
theorem rows_eq_winners {history : List Exchange} {db : Database}
    (hrun : Run (webhookStep hmac rt settings) .empty history db) :
    db.rows = winners Row.key [] (offeredRows hmac rt settings history) ∧
      ∀ x ∈ history, x.response.status = 204 ↔ (x.row hmac rt settings).isSome := by
  apply hrun.invariant
  · exact ⟨rfl, by simp⟩
  · intro history s x t _ ih hstep
    obtain ⟨hrows, hstatus⟩ := ih
    rcases webhookStep_row hstep with ⟨hnone, hne, rfl⟩ | ⟨row, hsome, h204, rfl⟩
    · refine ⟨?_, ?_⟩
      · rw [hrows, offeredRows, offeredRows, List.filterMap_append]
        simp [hnone]
      · rw [List.forall_mem_append, List.forall_mem_singleton]
        exact ⟨hstatus, by simp [hnone, hne]⟩
    · refine ⟨?_, ?_⟩
      · have hoffered : offeredRows hmac rt settings (history ++ [x]) =
            offeredRows hmac rt settings history ++ [row] := by
          rw [offeredRows, List.filterMap_append, offeredRows]
          simp [hsome]
        have hhas : s.has row.key = true ↔
            row.key ∈ (offeredRows hmac rt settings history).map Row.key := by
          rw [Database.has_iff, hrows, ← List.mem_map, mem_map_winners]
          simp
        rw [Database.recordRow, Database.commit_rows, Database.insertOrIgnore_rows, hoffered,
          winners_append_singleton, ← hrows]
        by_cases hkey : s.has row.key = true
        · rw [if_pos hkey, if_pos (Or.inr (hhas.mp hkey)), List.append_nil]
        · have hnew : ¬ (row.key ∈ ([] : List RowKey) ∨
              row.key ∈ (offeredRows hmac rt settings history).map Row.key) := by
            rintro (h | h)
            · cases h
            · exact hkey (hhas.mpr h)
          rw [if_neg hkey, if_neg hnew]
      · rw [List.forall_mem_append, List.forall_mem_singleton]
        exact ⟨hstatus, by simp [hsome, h204]⟩

/-! ## What comes back -/

/-- The exchange was answered 204, and brought a payload with an action under an id. -/
structure Accepts (rt : Runtime) (id action : Text) (payload : List (PyStr × Json))
    (x : Exchange) : Prop where
  answered : x.response.status = 204
  underId : x.request.deliveryId = some id
  brought : rt.payloadOf x.request.body payload
  withAction : PyStr.toText? ((asStr (dictGet payload "action")).getD []) = some action

/-- Of the requests accepted under an id and an action, the first brought the payload. -/
def FirstAccepted (rt : Runtime) (history : List Exchange) (id action : Text)
    (payload : List (PyStr × Json)) : Prop :=
  ∃ before x after, history = before ++ x :: after ∧ Accepts rt id action payload x ∧
    ∀ y ∈ before, ∀ other, ¬ Accepts rt id action other y

/-- The row an exchange offers is the one of what it brought. -/
lemma Exchange.row_spec {x : Exchange} {row : Row} (h : x.row hmac rt settings = some row)
    (hstatus : x.response.status = 204) :
    ∃ payload, Accepts rt row.deliveryId row.action payload x ∧
      rt.dumps (.obj payload) = some row.payload := by
  obtain ⟨d, hd, hrow⟩ := Exchange.row_eq_some.mp h
  obtain ⟨-, -, -, hid, -, hpayload, -, hsummary⟩ := verifiedDelivery_ok_iff.mp hd
  have hholds := rowOf_holds hrow
  have haction := hholds.toText?_action
  rw [hsummary] at haction
  exact ⟨d.payload, ⟨hstatus, hholds.deliveryId ▸ hid, hpayload, haction⟩, hholds.payload⟩

/-- What an accepted exchange brought is in the row it offered. -/
lemma Accepts.exists_row {x : Exchange} {id action : Text} {payload : List (PyStr × Json)}
    (h : Accepts rt id action payload x)
    (hstatus : x.response.status = 204 ↔ (x.row hmac rt settings).isSome) :
    ∃ row, x.row hmac rt settings = some row ∧ row.key = (id, action) ∧
      rt.dumps (.obj payload) = some row.payload := by
  obtain ⟨row, hrow⟩ := Option.isSome_iff_exists.mp (hstatus.mp h.answered)
  obtain ⟨payload', haccepts, hdump⟩ := Exchange.row_spec hrow h.answered
  obtain rfl := payloadOf_unique haccepts.brought h.brought
  have hid := Option.some.inj (haccepts.underId.symm.trans h.underId)
  have haction := Option.some.inj (haccepts.withAction.symm.trans h.withAction)
  exact ⟨row, hrow, Prod.ext hid haction, hdump⟩

/-- The rows of a run are the first offered of their keys. -/
lemma mem_rows_iff {history : List Exchange} {db : Database}
    (hrun : Run (webhookStep hmac rt settings) .empty history db) {row : Row} :
    row ∈ db.rows ↔ ∃ before x after, history = before ++ x :: after ∧
      x.row hmac rt settings = some row ∧
      ∀ y ∈ before, ∀ other, y.row hmac rt settings = some other → other.key ≠ row.key := by
  rw [(rows_eq_winners hrun).1, mem_winners, Wins]
  constructor
  · rintro ⟨-, early, late, hoffered, hfirst⟩
    obtain ⟨l₁, l₂, hhistory, hearly, hlate⟩ := List.filterMap_eq_append_iff.mp hoffered
    obtain ⟨m₁, x, m₂, rfl, hnone, hx, -⟩ := List.filterMap_eq_cons_iff.mp hlate
    refine ⟨l₁ ++ m₁, x, m₂, by rw [hhistory, List.append_assoc], hx, fun y hy other hother => ?_⟩
    rcases List.mem_append.mp hy with hy | hy
    · exact hfirst other (hearly ▸ List.mem_filterMap.mpr ⟨y, hy, hother⟩)
    · rw [hnone y hy] at hother
      cases hother
  · rintro ⟨before, x, after, rfl, hx, hfirst⟩
    refine ⟨by simp, before.filterMap (Exchange.row hmac rt settings),
      after.filterMap (Exchange.row hmac rt settings), ?_, fun other hother => ?_⟩
    · rw [offeredRows, List.filterMap_append, List.filterMap_cons, hx]
    · obtain ⟨y, hy, hother⟩ := List.mem_filterMap.mp hother
      exact hfirst y hy other hother

/-- A payload that was read can be written and read again. -/
lemma readable_of_payloadOf (hlimit : 0 < rt.recursionLimit) {body : Bytes}
    {payload : List (PyStr × Json)} (h : rt.payloadOf body payload) :
    (Json.obj payload).Readable ∧ (Json.obj payload).depth ≤ rt.recursionLimit := by
  rcases h with ⟨-, rfl⟩ | ⟨-, h⟩
  · exact ⟨⟨List.nodup_nil, trivial⟩, hlimit⟩
  · exact readable_of_loads h

/-- The payload column is read back as the payload with its surrogates paired up. -/
lemma loadPayload_of_dumps (hrepr : ReprReadsBack rt.floatRepr) (hlimit : 0 < rt.recursionLimit)
    {body : Bytes} {payload : List (PyStr × Json)} {row : Row}
    (hpayload : rt.payloadOf body payload)
    (hdump : rt.dumps (.obj payload) = some row.payload) :
    loadPayload rt row = .ok (some (Json.obj payload).rejoin) := by
  obtain ⟨hreadable, hdepth⟩ := readable_of_payloadOf hlimit hpayload
  have htext : row.payload = dumpsWith .compact rt.floatRepr (.obj payload) := by
    unfold Runtime.dumps at hdump
    split at hdump
    · rw [← Option.some.inj hdump, dumps_eq_dumpsWith]
    · cases hdump
  rw [loadPayload, htext, loadsStr_dumpsWith hrepr hreadable hdepth]

/-- **What `payload_for` returns.**  After any run of requests the possible results are:
nothing, when no request was accepted under the id; and for each action the payload of the
request first accepted under the id and the action.  A payload comes back as it was received
exactly when no string in it has a high surrogate directly before a low one. -/
theorem payloadFor_iff (hmac : Hmac) (settings : Settings) (hrepr : ReprReadsBack rt.floatRepr)
    (hlimit : 0 < rt.recursionLimit) {history : List Exchange} {db : Database}
    (hrun : Run (webhookStep hmac rt settings) .empty history db) (id : Text) :
    (∀ answer, answer ∈ payloadFor rt id db ↔
      (answer = .ok none ∧
        ∀ x ∈ history, x.response.status = 204 → x.request.deliveryId ≠ some id) ∨
      ∃ action payload, FirstAccepted rt history id action payload ∧
        answer = .ok (some (Json.obj payload).rejoin)) ∧
    ∀ action payload, FirstAccepted rt history id action payload →
      ((Json.obj payload).rejoin = .obj payload ↔ (Json.obj payload).NoSplitPair) := by
  obtain ⟨hrows, hstatus⟩ := rows_eq_winners hrun
  refine ⟨fun answer => ?_, ?_⟩
  · rw [mem_payloadFor]
    refine or_congr (and_congr_right' ⟨fun h x hx h204 hid => ?_, fun h row hrow hid => ?_⟩) ?_
    · -- the key of an accepted request is stored
      obtain ⟨row, hoffer⟩ := Option.isSome_iff_exists.mp ((hstatus x hx).mp h204)
      obtain ⟨payload, haccepts, -⟩ := Exchange.row_spec hoffer h204
      have hkey : row.key ∈ db.rows.map Row.key := by
        rw [hrows, mem_map_winners]
        exact ⟨by simp, List.mem_map_of_mem (List.mem_filterMap.mpr ⟨x, hx, hoffer⟩)⟩
      obtain ⟨stored, hstored, hsame⟩ := List.mem_map.mp hkey
      refine h stored hstored ?_
      rw [show stored.deliveryId = row.deliveryId from congrArg Prod.fst hsame]
      exact Option.some.inj (haccepts.underId.symm.trans hid)
    · -- a stored row stems from an accepted request
      obtain ⟨before, x, after, rfl, hoffer, -⟩ := (mem_rows_iff hrun).mp hrow
      have h204 : x.response.status = 204 := (hstatus x (by simp)).mpr (by simp [hoffer])
      obtain ⟨payload, haccepts, -⟩ := Exchange.row_spec hoffer h204
      exact h x (by simp) h204 (hid ▸ haccepts.underId)
    · constructor
      · rintro ⟨row, hrow, rfl, rfl⟩
        obtain ⟨before, x, after, rfl, hoffer, hfirst⟩ := (mem_rows_iff hrun).mp hrow
        have h204 : x.response.status = 204 := (hstatus x (by simp)).mpr (by simp [hoffer])
        obtain ⟨payload, haccepts, hdump⟩ := Exchange.row_spec hoffer h204
        refine ⟨row.action, payload, ⟨before, x, after, rfl, haccepts, fun y hy other hother => ?_⟩,
          loadPayload_of_dumps hrepr hlimit haccepts.brought hdump⟩
        obtain ⟨earlier, hearlier, hkey, -⟩ := hother.exists_row (hstatus y (by simp [hy]))
        exact hfirst y hy earlier hearlier hkey
      · rintro ⟨action, payload, ⟨before, x, after, rfl, haccepts, hfirst⟩, rfl⟩
        obtain ⟨row, hoffer, hkey, hdump⟩ := haccepts.exists_row (hstatus x (by simp))
        refine ⟨row, (mem_rows_iff hrun).mpr ⟨before, x, after, rfl, hoffer, ?_⟩,
          congrArg Prod.fst hkey, (loadPayload_of_dumps hrepr hlimit haccepts.brought hdump).symm⟩
        intro y hy other hother hsame
        have h204 : y.response.status = 204 := (hstatus y (by simp [hy])).mpr (by simp [hother])
        obtain ⟨earlier, hearlier, -⟩ := Exchange.row_spec hother h204
        have hother_key : other.key = (id, action) := hsame.trans hkey
        obtain ⟨rfl, rfl⟩ := Prod.mk.inj hother_key
        exact hfirst y hy earlier hearlier
  · rintro action payload ⟨before, x, after, -, hx, -⟩
    exact Json.rejoin_eq_self_iff (readable_of_payloadOf hlimit hx.brought).1

/-- An interpreter that writes floats exactly. -/
def Runtime.exact : Runtime := { Runtime.reference with floatRepr := exactRepr }

/-- A ping with a surrogate pair, of which only the first half is escaped. -/
def splitPairRequest : WebhookRequest :=
  signedRequest (fun _ _ => []) "secret".toList
    (utf8Encode "\x7b\"s\":\"\\ud83d".toList ++ [0xED, 0xB8, 0x80] ++
      utf8Encode "\"\x7d".toList) (some "ping".toList) (some "1".toList)

/-- Its payload. -/
def splitPairPayload : List (PyStr × Json) :=
  [(py "s", .str [0xD83D, 0xDE00])]

/-- The exchange in which it is recorded. -/
def splitPairExchange : Exchange :=
  ⟨epoch, ['1'], splitPairRequest,
    (postWebhook (fun _ _ => []) .exact .reference epoch ['1'] splitPairRequest .empty).1⟩

/-- The store after it. -/
def splitPairStore : Database :=
  (postWebhook (fun _ _ => []) .exact .reference epoch ['1'] splitPairRequest .empty).2

/-- The two halves are read back as one code point. -/
theorem payloadFor_splitPair :
    (Json.obj splitPairPayload).rejoin ≠ .obj splitPairPayload ∧
      Except.ok (some (Json.obj splitPairPayload).rejoin) ∈
        payloadFor .exact ['1'] splitPairStore := by
  have hrun : Run (webhookStep (fun _ _ => []) .exact .reference) .empty [splitPairExchange]
      splitPairStore :=
    Run.start.next (webhookStep_postWebhook (fun _ _ => []) .exact .reference epoch ['1']
      splitPairRequest .empty)
  have hfirst : FirstAccepted .exact [splitPairExchange] ['1'] [] splitPairPayload := by
    refine ⟨[], splitPairExchange, [], rfl, ⟨by decide +kernel, rfl, ?_, by decide⟩, by simp⟩
    exact Or.inr ⟨by decide +kernel, Runtime.loads_of_toOption (by decide +kernel)⟩
  obtain ⟨hanswers, -⟩ := payloadFor_iff (fun _ _ => []) .reference reprReadsBack_exactRepr
    (by decide) hrun ['1']
  exact ⟨by decide +kernel, (hanswers _).mpr (Or.inr ⟨[], splitPairPayload, hfirst, rfl⟩)⟩

end IssuesApi
