import Mentra.Foundation.Transition
import Mentra.Mcp.StreamableHttp.Reply

/-!
# Concurrent calls over Streamable HTTP

Model of `McpStreamableHttpClient` in `mentra/src/mcp/streamable_http/client.rs` once it is
connected: tool calls that share one session.  When the answer to a call says that the session
expired, the call drops the session, shakes hands again (`initialize` and a notification) and
sends its request once more.

A step of a call goes up to its next access of the shared session or to the next thing it
waits for.  The server answers what it likes, and may forget sessions at any time.
-/

namespace Mentra.Mcp.StreamableHttp

open Foundation

/-- Which message of a call is under way. -/
inductive Leg
  /-- The request itself, the first time or again. -/
  | call (again : Bool)
  /-- The `initialize` request of a new session. -/
  | handshake
  /-- The notification that ends the handshake. -/
  | notify

/-- The name under which `post` reports the message. -/
def Leg.method : Leg → String
  | call _ => "tools/call"
  | handshake => "initialize"
  | notify => "POST"

inductive Stage
  | sending
  /-- Sent with a session id, and not answered. -/
  | waiting (sessionId : Option SessionId)
  /-- The body of a refusal is drained. -/
  | refusing (error : McpStreamableHttpError)
  | reading (response : HttpResponse)

abbrev CallResult := Except McpStreamableHttpError McpToolCallResult

inductive CallPhase
  | exchanging (leg : Leg) (stage : Stage)
  /-- The session expired and is not dropped yet. -/
  | expired
  | finished (result : CallResult)
  /-- The future was dropped. -/
  | abandoned

structure Call where
  /-- The id of its last request. -/
  requestId : Nat := 0
  phase : CallPhase := .exchanging (.call false) .sending

inductive CallEvent
  | sent (sessionId : Option SessionId)
  /-- The request was refused because the server forgot the session it named. -/
  | refused (sessionId : SessionId)
  /-- The request was answered with a status of success. -/
  | accepted
  /-- The reply had this result. -/
  | returned (value : Json)
  /-- `initialize` was sent with a session id. -/
  | initializing (sessionId : Option SessionId)
  | established (sessionId : SessionId)
  | ended (result : CallResult)

inductive CallAction
  | send
  | arrive (answer : Except TransportFailure HttpResponse)
  /-- The body of the answer was read or drained. -/
  | settle
  /-- `reestablish_session` drops the session. -/
  | clear
  /-- The deadline of the message passes. -/
  | expire
  /-- The future of the call is dropped. -/
  | abandon

/-- What a step of a call does. -/
structure Move where
  phase : CallPhase
  session : Session
  events : List CallEvent := []

section Calls

variable (limits : McpStreamableHttpLimits) (readers : Readers)

/-- The error of a message whose deadline passed. -/
def Leg.expiry : Leg → McpStreamableHttpError
  | call _ => requestTimeout "tools/call" limits.callToolTimeout
  | handshake => requestTimeout "initialize" limits.initializeTimeout
  | notify => .timeout limits.initializeTimeout

variable (session : Session)

/-- A message failed: the session is replaced once, all else ends the call. -/
def Leg.fail : Leg → McpStreamableHttpError → Move
  | call false, .sessionExpired => { phase := .expired, session }
  | _, error =>
    { phase := .finished (.error error), session, events := [.ended (.error error)] }

variable (forgotten : List SessionId) (response : HttpResponse)

/-- Whether an answer refuses a request because of the session it names. -/
def refuses (sessionId : SessionId) : Bool :=
  response.status = 404 && forgotten.contains sessionId

def Leg.refusal :
    Leg → Option SessionId → List CallEvent
  | call _, some sessionId =>
    if refuses forgotten response sessionId then [.refused sessionId] else []
  | _, _ => []

/-- A message was answered with a status of success. -/
def Leg.accept (leg : Leg) : Move :=
  let phase := .exchanging leg (.reading response)
  match leg with
  | call _ => { phase, session, events := [.accepted] }
  -- The session is assigned here and only here.
  | handshake =>
    { phase
      session := session.adoptSession response
      events := (usableSessionId response).toList.map .established }
  | notify => { phase, session }

/-- The answer to a message arrives, and `post` judges it.  Only the failures of
`tools/call` are classified. -/
def Leg.answer (leg : Leg)
    (sessionId : Option SessionId) : Except TransportFailure HttpResponse → Move
  | .error failure => leg.fail session (classifyFailure leg.method (transportError failure))
  | .ok response =>
    match judge leg.method session.id.isSome response with
    | .ok response => leg.accept session response
    | .error error =>
      let error := classifyFailure leg.method error
      if response.isRedirection then leg.fail session error
      else
        { phase := .exchanging leg (.refusing error)
          session
          events := leg.refusal forgotten response sessionId }

def shapeError : McpStreamableHttpError :=
  .parseError "response shape did not match MCP"

/-- The end of `request`. -/
def resultOf (value : Json) : CallResult :=
  match McpToolCallResult.fromValue value with
  | some result => .ok result
  | none => .error shapeError

/-- `handshake`, from the reply to `initialize` to the notification. -/
def handshakeReply (value : Json) : Except McpStreamableHttpError Session :=
  match McpInitializeResult.fromValue value with
  | none => .error shapeError
  | some result => session.adoptProtocolVersion result.protocolVersion

/-- An accepted answer was read. -/
def Leg.conclude (requestId : Nat) (response : HttpResponse) (leg : Leg) : Move :=
  match leg with
  | call again =>
    match exchangeReply limits readers "tools/call" response requestId with
    | .error error => (call again).fail session error
    | .ok value =>
      { phase := .finished (resultOf value)
        session
        events := [.returned value, .ended (resultOf value)] }
  | handshake =>
    match exchangeReply limits readers "initialize" response requestId >>=
      handshakeReply session with
    | .error error => handshake.fail session error
    | .ok session => { phase := .exchanging .notify .sending, session }
  | notify => { phase := .exchanging (.call true) .sending, session }

def Call.move (call : Call) :
    CallAction → Option Move
  | .send =>
    match call.phase with
    | .exchanging leg .sending =>
      let events := match leg with
        | .call _ => [.sent session.id]
        | .handshake => [.initializing session.id]
        | .notify => []
      some { phase := .exchanging leg (.waiting session.id), session, events }
    | _ => none
  | .arrive answer =>
    match call.phase with
    | .exchanging leg (.waiting sessionId) =>
      some (leg.answer session forgotten sessionId answer)
    | _ => none
  | .settle =>
    match call.phase with
    | .exchanging leg (.refusing error) => some (leg.fail session error)
    | .exchanging leg (.reading response) =>
      some (leg.conclude limits readers session call.requestId response)
    | _ => none
  | .clear =>
    match call.phase with
    | .expired => some { phase := .exchanging .handshake .sending, session := {} }
    | _ => none
  | .expire =>
    match call.phase with
    | .exchanging _ .sending => none
    | .exchanging leg _ => some (leg.fail session (leg.expiry limits))
    | _ => none
  | .abandon =>
    match call.phase with
    | .finished _ | .abandoned => none
    | _ => some { phase := .abandoned, session }

/-! ## What a step of a call can do -/

/-- The caller learns the result, the server's own error, or that nobody knows whether
the tool ran. -/
def candid : CallResult → Bool
  | .ok _ | .error (.jsonRpc _) | .error (.requestIndeterminate _) => true
  | .error _ => false

/-- The steps of a call, by the phase it is in. -/
inductive Moves (session : Session) (forgotten : List SessionId) : CallPhase → Move → Prop
  | sent (again : Bool) :
      Moves session forgotten (.exchanging (.call again) .sending)
        { phase := .exchanging (.call again) (.waiting session.id), session
          events := [.sent session.id] }
  | handshakeSent :
      Moves session forgotten (.exchanging .handshake .sending)
        { phase := .exchanging .handshake (.waiting session.id), session
          events := [.initializing session.id] }
  | notificationSent :
      Moves session forgotten (.exchanging .notify .sending)
        { phase := .exchanging .notify (.waiting session.id), session }
  | refused {again : Bool} {sessionId : SessionId} {error : McpStreamableHttpError}
      (expired : session.id.isSome → error = .sessionExpired) :
      Moves session forgotten (.exchanging (.call again) (.waiting (some sessionId)))
        { phase := .exchanging (.call again) (.refusing error), session
          events := [.refused sessionId] }
  | declined (leg : Leg) (sessionId : Option SessionId) (error : McpStreamableHttpError) :
      Moves session forgotten (.exchanging leg (.waiting sessionId))
        { phase := .exchanging leg (.refusing error), session }
  | accepted (again : Bool) (sessionId : Option SessionId) (response : HttpResponse) :
      Moves session forgotten (.exchanging (.call again) (.waiting sessionId))
        { phase := .exchanging (.call again) (.reading response), session, events := [.accepted] }
  | adopted (sessionId : Option SessionId) (response : HttpResponse) :
      Moves session forgotten (.exchanging .handshake (.waiting sessionId))
        { phase := .exchanging .handshake (.reading response)
          session := session.adoptSession response
          events := (usableSessionId response).toList.map .established }
  | acknowledged (sessionId : Option SessionId) (response : HttpResponse) :
      Moves session forgotten (.exchanging .notify (.waiting sessionId))
        { phase := .exchanging .notify (.reading response), session }
  | expired :
      Moves session forgotten (.exchanging (.call false) (.refusing .sessionExpired))
        { phase := .expired, session }
  | cleared :
      Moves session forgotten .expired { phase := .exchanging .handshake .sending, session := {} }
  | returned (again : Bool) (response : HttpResponse) (value : Json) :
      Moves session forgotten (.exchanging (.call again) (.reading response))
        { phase := .finished (resultOf value), session
          events := [.returned value, .ended (resultOf value)] }
  | greeted (response : HttpResponse) {renewed : Session} (sameId : renewed.id = session.id) :
      Moves session forgotten (.exchanging .handshake (.reading response))
        { phase := .exchanging .notify .sending, session := renewed }
  | notified (response : HttpResponse) :
      Moves session forgotten (.exchanging .notify (.reading response))
        { phase := .exchanging (.call true) .sending, session }
  | failed {leg : Leg} {stage : Stage} {error : McpStreamableHttpError}
      (answered : ∀ again response, leg = .call again → stage = .reading response →
        candid (.error error)) :
      Moves session forgotten (.exchanging leg stage)
        { phase := .finished (.error error), session, events := [.ended (.error error)] }
  | abandoned {phase : CallPhase} (unfinished : ∀ result, phase ≠ .finished result) :
      Moves session forgotten phase { phase := .abandoned, session }

section Moves

variable {session : Session} {forgotten : List SessionId}

variable {error : McpStreamableHttpError}

/-- What a failed message does, unless it is a first request whose session expired. -/
theorem Leg.fail_eq {leg : Leg}
    (unrecovered : ∀ again, leg = .call again → error ≠ .sessionExpired) :
    leg.fail session error =
      { phase := .finished (.error error), session, events := [.ended (.error error)] } := by
  unfold Leg.fail
  split
  · exact absurd rfl (unrecovered false rfl)
  · rfl

theorem Moves.fail {leg : Leg} {stage : Stage}
    (unrecovered : ∀ again, leg = .call again → error ≠ .sessionExpired)
    (answered : ∀ again response, leg = .call again → stage = .reading response →
      candid (.error error)) :
    Moves session forgotten (.exchanging leg stage) (leg.fail session error) := by
  rw [Leg.fail_eq unrecovered]
  exact .failed answered

variable (leg : Leg)

theorem Moves.settleRefusal (error : McpStreamableHttpError) :
    Moves session forgotten (.exchanging leg (.refusing error)) (leg.fail session error) := by
  unfold Leg.fail
  split
  · exact .expired
  · exact .failed nofun

theorem candid_replyFailure (error : McpStreamableHttpError) :
    candid (.error (replyFailure "tools/call" error)) := by
  cases error <;> rfl

variable {response : HttpResponse}

/-- Every failure of an answered `tools/call` is told with its certainty. -/
theorem candid_of_exchangeReply {requestId : Nat}
    (failed : exchangeReply limits readers "tools/call" response requestId = .error error) :
    candid (.error error) := by
  unfold exchangeReply at failed
  cases read : readReply limits readers "tools/call" response requestId with
  | ok value => rw [read] at failed; cases failed
  | error first =>
    rw [read] at failed
    cases failed
    exact candid_replyFailure first

theorem ne_sessionExpired_of_candid (known : candid (.error error)) : error ≠ .sessionExpired := by
  rintro rfl
  cases known

variable (method : String)

theorem indeterminate_ne_sessionExpired : indeterminate method ≠ .sessionExpired := by
  unfold indeterminate
  split
  · exact nofun
  · exact nofun

theorem classifyFailure_transportError_ne (failure : TransportFailure) :
    classifyFailure method (transportError failure) ≠ .sessionExpired := by
  unfold classifyFailure
  split
  · cases failure <;> exact nofun
  · cases failure <;> exact indeterminate_ne_sessionExpired method

theorem classifyFailure_redirectRefused_ne :
    classifyFailure method .redirectRefused ≠ .sessionExpired := by
  unfold classifyFailure
  split
  · exact nofun
  · exact indeterminate_ne_sessionExpired method

theorem Leg.expiry_ne : leg.expiry limits ≠ .sessionExpired := by
  cases leg <;> exact nofun

/-- A refusal of a session id is known as such while the client has a session. -/
theorem classifyFailure_judge_of_refuses {sessionId : SessionId}
    (refusal : refuses forgotten response sessionId)
    (judged : judge "tools/call" true response = .error error) :
    classifyFailure "tools/call" error = .sessionExpired := by
  obtain ⟨status, -⟩ := Bool.and_eq_true_iff.mp refusal
  have notFound : response.status = 404 := of_decide_eq_true status
  simp [judge, HttpResponse.isRedirection, HttpResponse.isSuccess, notFound] at judged
  rw [← judged]
  rfl

theorem Moves.accept (sessionId : Option SessionId) (response : HttpResponse) :
    Moves session forgotten (.exchanging leg (.waiting sessionId))
      (leg.accept session response) := by
  cases leg with
  | call again => exact .accepted again sessionId response
  | handshake => exact .adopted sessionId response
  | notify => exact .acknowledged sessionId response

theorem Moves.answer (sessionId : Option SessionId)
    (answer : Except TransportFailure HttpResponse) :
    Moves session forgotten (.exchanging leg (.waiting sessionId))
      (leg.answer session forgotten sessionId answer) := by
  unfold Leg.answer
  split
  · exact .fail (fun _ _ => classifyFailure_transportError_ne _ _) nofun
  · rename_i response
    split
    · exact .accept leg sessionId _
    · rename_i error judged
      split
      · rename_i redirects
        rw [judge, if_pos redirects] at judged
        cases judged
        exact .fail (fun _ _ => classifyFailure_redirectRefused_ne _) nofun
      · unfold Leg.refusal
        split
        · rename_i again sessionId
          split
          · rename_i refusal
            refine .refused fun held => ?_
            rw [held] at judged
            exact classifyFailure_judge_of_refuses refusal judged
          · exact .declined _ _ _
        · exact .declined _ _ _

theorem handshakeReply_id {value : Json} {renewed : Session}
    (greeted : handshakeReply session value = .ok renewed) : renewed.id = session.id := by
  unfold handshakeReply at greeted
  split at greeted
  · cases greeted
  · unfold Session.adoptProtocolVersion at greeted
    split at greeted
    · cases greeted
    · cases greeted
      rfl

theorem Moves.conclude (requestId : Nat) (response : HttpResponse) :
    Moves session forgotten (.exchanging leg (.reading response))
      (leg.conclude limits readers session requestId response) := by
  cases leg with
  | call again =>
    unfold Leg.conclude
    dsimp only
    split
    · rename_i error failed
      have known := candid_of_exchangeReply limits readers failed
      exact .fail (fun _ _ => ne_sessionExpired_of_candid known) fun _ _ _ _ => known
    · exact .returned again response _
  | handshake =>
    unfold Leg.conclude
    dsimp only
    split
    · exact .fail nofun nofun
    · rename_i renewed greeted
      cases read : exchangeReply limits readers "initialize" response requestId with
      | error error => rw [read] at greeted; cases greeted
      | ok value =>
        rw [read] at greeted
        exact .greeted response (handshakeReply_id greeted)
  | notify => exact .notified response

theorem Call.moves_of_move {call : Call} {action : CallAction} {move : Move}
    (moved : call.move limits readers session forgotten action = some move) :
    Moves session forgotten call.phase move := by
  obtain ⟨requestId, phase⟩ := call
  cases action with
  | send =>
    dsimp only [Call.move] at moved
    split at moved
    · rename_i leg
      cases moved
      cases leg with
      | call again => exact .sent again
      | handshake => exact .handshakeSent
      | notify => exact .notificationSent
    · cases moved
  | arrive answer =>
    dsimp only [Call.move] at moved
    split at moved
    · cases moved
      exact .answer _ _ answer
    · cases moved
  | settle =>
    dsimp only [Call.move] at moved
    split at moved
    · cases moved
      exact .settleRefusal _ _
    · cases moved
      exact .conclude limits readers _ _ _
    · cases moved
  | clear =>
    dsimp only [Call.move] at moved
    split at moved
    · cases moved
      exact .cleared
    · cases moved
  | expire =>
    dsimp only [Call.move] at moved
    split at moved
    · cases moved
    · cases moved
      refine .fail (fun _ _ => Leg.expiry_ne limits _) ?_
      rintro again response rfl -
      rfl
    · cases moved
  | abandon =>
    dsimp only [Call.move] at moved
    split at moved
    · cases moved
    · cases moved
    · rename_i unfinished _
      cases moved
      exact .abandoned unfinished

end Moves

end Calls

/-! ## The client -/

structure Client where
  session : Session
  nextId : Nat
  /-- The sessions that the server no longer knows. -/
  forgotten : List SessionId := []
  calls : List Call := []
  log : List (Nat × CallEvent) := []

inductive Action
  /-- `call_tool`. -/
  | call
  | act (number : Nat) (action : CallAction)
  | forget (sessionId : SessionId)
  /-- The end of `shutdown`. -/
  | shutdown

namespace Client

/-- A client that was connected. -/
def connected (session : Session) (nextId : Nat) : Client where
  session
  nextId

/-- Whether the step sends a request, which takes an id. -/
def takesId (call : Call) : CallAction → Bool
  | .send => !(call.phase matches .exchanging .notify _)
  | _ => false

variable (limits : McpStreamableHttpLimits) (readers : Readers)

def step (client : Client) : Action → Option Client
  | .call => some { client with calls := client.calls ++ [{}] }
  | .act number action => do
      let call ← client.calls[number]?
      let move ← call.move limits readers client.session client.forgotten action
      let takes := takesId call action
      some { client with
        session := move.session
        nextId := if takes then client.nextId + 1 else client.nextId
        calls := client.calls.set number {
          requestId := if takes then client.nextId else call.requestId
          phase := move.phase }
        log := client.log ++ move.events.map (number, ·) }
  | .forget sessionId => some { client with forgotten := sessionId :: client.forgotten }
  | .shutdown => some { client with session := { client.session with id := none } }

variable {limits readers}

/-- A step of a call changes that call, the session and the log. -/
theorem moves_of_step {client next : Client} {number : Nat} {action : CallAction}
    (stepped : client.step limits readers (.act number action) = some next) :
    ∃ call move requestId, client.calls[number]? = some call ∧
      call.move limits readers client.session client.forgotten action = some move ∧
      Moves client.session client.forgotten call.phase move ∧
      next.session = move.session ∧
      next.calls = client.calls.set number { requestId, phase := move.phase } ∧
      next.log = client.log ++ move.events.map (number, ·) := by
  obtain ⟨call, found, stepped⟩ := Option.bind_eq_some_iff.mp stepped
  obtain ⟨move, moved, stepped⟩ := Option.bind_eq_some_iff.mp stepped
  cases stepped
  exact ⟨call, move, _, found, moved, Call.moves_of_move limits readers moved, rfl, rfl, rfl⟩

end Client

end Mentra.Mcp.StreamableHttp
