import IssuesApi.Lib.FloatRepr
import IssuesApi.Responses

/-!
# The replay script (`scripts/replay_webhook.py`)

The script signs one payload with the secret it finds, posts it several times under one
delivery id, and then looks for the id in `GET /events`.  It exits with 0 when exactly one
record has it.

The command line brings Python strings: bytes that are no UTF-8 become lone surrogates.
-/

namespace IssuesApi

/-- The choices of `--event`. -/
inductive ReplayEvent where
  | issues
  | issueComment
  | ping
  deriving DecidableEq

/-- The choice as it is written. -/
def ReplayEvent.text : ReplayEvent → Text
  | .issues => "issues".toList
  | .issueComment => "issue_comment".toList
  | .ping => "ping".toList

/-- The parsed arguments, with the fresh `uuid4` for the delivery id. -/
structure ReplayArgs where
  event : ReplayEvent
  action : PyStr
  issueNumber : ℤ
  times : ℤ
  deliveryId : Option Text
  uuid : Text
  /-- No argument has the two halves of a surrogate pair side by side. -/
  action_valid : CodePoints action ∧ NoSplitPair action
  /-- `int` reads no longer numerals. -/
  issueNumber_valid : (decimal issueNumber.natAbs).length ≤ maxStrDigits

/-- The arguments when none are given. -/
def ReplayArgs.default (uuid : Text) : ReplayArgs where
  event := .issues
  action := py "opened"
  issueNumber := 9999
  times := 3
  deliveryId := none
  uuid := uuid
  action_valid := ⟨codePoints_py "opened", noSplitPair_py "opened"⟩
  issueNumber_valid := by decide

/-! ## The secret -/

/-- The secret in a line of the environment file. -/
def secretOfLine (line : Text) : Option Text :=
  match splitFirst '=' line with
  | (name, some value) =>
    if strip name = "WEBHOOK_SECRET".toList then some (stripChars "'\"".toList (strip value))
    else none
  | (_, none) => none

/-- `load_secret`, from the variable and the file, when they are there; `none` ends the script. -/
def loadSecret (environ envFile : Option Text) : Option Text :=
  match nonempty environ with
  | some secret => some secret
  | none => (splitlines (envFile.getD [])).findSome? secretOfLine

/-! ## The requests -/

/-- `build_payload`. -/
def buildPayload (event : ReplayEvent) (action : PyStr) (issueNumber : ℤ) :
    List (PyStr × Json) :=
  match event with
  | .ping =>
    [(py "zen", .lit "Non-blocking is better than blocking."), (py "hook_id", .int 1)]
  | _ =>
    let payload := [(py "action", .str action),
      (py "issue", .obj [(py "number", .int issueNumber),
        (py "title", .lit "replayed by scripts/replay_webhook.py")]),
      (py "sender", .obj [(py "login", .lit "replay-script")])]
    if event = .issueComment then
      dictSet payload (py "comment") (.obj [(py "id", .int 1), (py "body", .lit "replayed")])
    else payload

namespace ReplayArgs

/-- The payload of the deliveries. -/
def payload (args : ReplayArgs) : List (PyStr × Json) :=
  buildPayload args.event args.action args.issueNumber

/-- `raw`.  There is no float in the payload. -/
def raw (args : ReplayArgs) : Bytes :=
  utf8Encode (dumpsWith .default exactRepr (.obj args.payload))

/-- `delivery_id`. -/
def id (args : ReplayArgs) : Text :=
  (nonempty args.deliveryId).getD ("replay-".toList ++ args.uuid)

/-- `signature`. -/
def signature (hmac : Hmac) (secret : Text) (args : ReplayArgs) : Text :=
  "sha256=".toList ++ hexdigest (hmac (utf8Encode secret) args.raw)

/-- What an attempt posts. -/
def request (hmac : Hmac) (secret : Text) (args : ReplayArgs) : WebhookRequest :=
  ⟨args.raw, some (args.signature hmac secret), some args.event.text, some args.id⟩

/-- The attempts, in order. -/
def attempts (hmac : Hmac) (secret : Option Text) (args : ReplayArgs) : List WebhookRequest :=
  match secret with
  | none => []
  | some secret => List.replicate args.times.toNat (args.request hmac secret)

end ReplayArgs

/-! ## The verdict -/

/-- `record["id"]`. -/
def recordId : Json → Option Json
  | .obj fields => dictGet fields "id"
  | _ => none

/-- `len(matching)`; `none` is an exception. -/
def countMatching (deliveryId : Text) : Json → Option ℕ
  | .arr records => (records.mapM recordId).map fun ids => ids.countP (· = .text deliveryId)
  -- iterating over the keys of an error envelope
  | .obj [] | .str [] => some 0
  | _ => none

/-- The limit the script asks for. -/
def replayLimit : EventsParams := ⟨200, by decide⟩

/-- The exit status of `main`, from the secret, the status of `GET /healthz` and the body of
`GET /events`. -/
def replayExit (secret : Option Text) (health : ℕ) (deliveryId : Text) (events : Option Json) :
    ℕ :=
  if secret.isSome ∧ 200 ≤ health ∧ health < 300 ∧ events.bind (countMatching deliveryId) = some 1
  then 0 else 1

end IssuesApi
