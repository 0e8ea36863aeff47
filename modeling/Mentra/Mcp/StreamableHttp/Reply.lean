import Mentra.Mcp.Protocol
import Mentra.Mcp.Wire

/-!
# Answers over Streamable HTTP

Model of the part of `mentra/src/mcp/streamable_http/client.rs` that judges one HTTP response:
its status, its framing, its body, the JSON-RPC reply in it, and the certainty with which a
failure is reported.  The body is what arrives of it, in order, up to its end.  Reading text
as JSON-RPC and bytes as UTF-8 are parameters.
-/

namespace Mentra.Mcp.StreamableHttp

open Foundation

/-- The errors of `McpStreamableHttpError` that a request ends with. -/
inductive McpStreamableHttpError
  | config (text : String)
  | endpoint (text : String)
  | transport (reason : String)
  | httpStatus (method : String) (status : Nat)
  | redirectRefused
  | unexpectedContentType (contentType : String)
  | wire (error : SseWireError)
  | replyTooLarge (limit : Nat)
  | unsupportedProtocolVersion (supported : String)
  | jsonRpc (error : JsonRpcError)
  | parseError (text : String)
  | mismatchedReplyId (method : String)
  | sessionExpired
  | timeout (duration : Nat)
  | streamClosed (method : String)
  | requestIndeterminate (method : String)

structure McpStreamableHttpLimits where
  initializeTimeout : Nat
  callToolTimeout : Nat
  streamIdleTimeout : Nat
  maxResponseBytes : Nat
  maxEventBytes : Nat

/-- What arrives of a body. -/
inductive BodyEvent
  | chunk (bytes : List UInt8)
  | failed
  /-- Nothing arrives for as long as the idle timeout. -/
  | idle

structure HttpResponse where
  status : Nat
  contentType : Option (List UInt8) := none
  /-- The header `mcp-session-id`. -/
  sessionId : Option (List UInt8) := none
  body : List BodyEvent := []

/-- Why a request was not answered. -/
inductive TransportFailure
  | timeout
  | connect
  | request
  | other

def transportError : TransportFailure → McpStreamableHttpError
  | .timeout => .transport "timed out"
  | .connect => .transport "could not connect"
  | .request => .transport "the request could not be sent"
  | .other => .transport "the connection failed"

/-! ## Statuses -/

namespace HttpResponse

def isRedirection (response : HttpResponse) : Bool :=
  300 ≤ response.status && response.status < 400

def isSuccess (response : HttpResponse) : Bool :=
  200 ≤ response.status && response.status < 300

end HttpResponse

def isClientError (status : Nat) : Bool :=
  400 ≤ status && status < 500

/-! ## Certainty -/

variable (method : String)

def indeterminate : McpStreamableHttpError :=
  if method = "tools/call" then .requestIndeterminate method else .streamClosed "the handshake"

def replyFailure (error : McpStreamableHttpError) : McpStreamableHttpError :=
  if method ≠ "tools/call" then error
  else
    match error with
    | .jsonRpc _ | .requestIndeterminate _ => error
    | _ => indeterminate method

def classifyFailure (error : McpStreamableHttpError) : McpStreamableHttpError :=
  if method ≠ "tools/call" then error
  else
    match error with
    | .httpStatus _ status => if isClientError status then error else indeterminate method
    | .sessionExpired | .config _ | .endpoint _ => error
    | _ => indeterminate method

def requestTimeout (timeout : Nat) : McpStreamableHttpError :=
  if method = "tools/call" then indeterminate method else .timeout timeout

/-! ## Replies -/

inductive ReplyFraming
  | json
  | eventStream

/-- `HeaderValue::to_str`: visible ASCII, blanks and tabs. -/
def headerText (value : List UInt8) : Option String :=
  if value.all fun byte => byte = 9 || (32 ≤ byte && byte < 127) then
    some (String.ofList (value.map fun byte => Char.ofNat byte.toNat))
  else none

def replyFraming (response : HttpResponse) : Except McpStreamableHttpError ReplyFraming :=
  let contentType :=
    (Text.trimStart ((response.contentType.bind headerText).getD "")).map Char.toLower
  if (Text.stripPrefix? "application/json" contentType).isSome then .ok .json
  else if (Text.stripPrefix? "text/event-stream" contentType).isSome then .ok .eventStream
  else .error (.unexpectedContentType "[server value omitted]")

def outcome (reply : JsonRpcResponse) (id : Nat) : Except McpStreamableHttpError Json :=
  if reply.id ≠ .number id then .error (.mismatchedReplyId method)
  else
    match reply.error with
    | some error => .error (.jsonRpc { code := error.code, message := "server message omitted" })
    | none => .ok (reply.result.getD .null)

def readBoundedBody (limits : McpStreamableHttpLimits) (buffer : List UInt8) :
    List BodyEvent → Except McpStreamableHttpError (List UInt8)
  | [] => .ok buffer
  | .failed :: _ => .error (.transport "the reply body could not be read")
  | .idle :: _ => .error (.timeout limits.streamIdleTimeout)
  | .chunk bytes :: body =>
    if buffer.length + bytes.length > limits.maxResponseBytes then
      .error (.replyTooLarge limits.maxResponseBytes)
    else readBoundedBody limits (buffer ++ bytes) body

/-- The readers of the libraries: UTF-8, and JSON-RPC in a body and in an event. -/
structure Readers where
  fromUtf8 : List UInt8 → Option String
  fromSlice : List UInt8 → Option JsonRpcResponse
  fromStr : String → Option JsonRpcResponse

section Reading

variable (limits : McpStreamableHttpLimits) (readers : Readers)

/-- The reply to a request among the events of a chunk. -/
def findReply (id : Nat) : List SseEvent → Option JsonRpcResponse
  | [] => none
  | event :: events =>
    if event.event ≠ "message" then findReply id events
    else
      match readers.fromStr event.data with
      | none => findReply id events
      | some reply =>
        -- A message with neither is a request of the server.
        if reply.result.isNone && reply.error.isNone then findReply id events
        else if reply.id ≠ .number id then findReply id events
        else some reply

def readStreamedReply (method : String) (id : Nat) (parser : SseParser) (seen : Nat) :
    List BodyEvent → Except McpStreamableHttpError Json
  | [] => .error (.streamClosed method)
  | .failed :: _ => .error (indeterminate method)
  | .idle :: _ => .error (requestTimeout method limits.streamIdleTimeout)
  | .chunk bytes :: body =>
    let seen := seen + bytes.length
    if seen > limits.maxResponseBytes then .error (.replyTooLarge limits.maxResponseBytes)
    else
      match parser.feed readers.fromUtf8 bytes with
      | .error error => .error (.wire error)
      | .ok (events, parser) =>
        match findReply readers id events with
        | some reply => outcome method reply id
        | none => readStreamedReply method id parser seen body

def readReply (method : String) (response : HttpResponse) (id : Nat) :
    Except McpStreamableHttpError Json :=
  -- Accepted for processing: there is no reply.
  if response.status = 202 then .error (.streamClosed method)
  else do
    match ← replyFraming response with
    | .json =>
      let body ← readBoundedBody limits [] response.body
      match readers.fromSlice body with
      | none => .error (.parseError "reply was not JSON-RPC")
      | some reply => outcome method reply id
    | .eventStream =>
      readStreamedReply limits readers method id (.new limits.maxEventBytes) 0 response.body

/-- The part of `exchange` behind the answer. -/
def exchangeReply (method : String) (response : HttpResponse) (id : Nat) :
    Except McpStreamableHttpError Json :=
  (readReply limits readers method response id).mapError (replyFailure method)

end Reading

/-! ## Sessions -/

def supportedProtocolVersions : List String :=
  ["2025-06-18", "2025-03-26"]

def maxSessionIdBytes : Nat := 512

abbrev SessionId := List UInt8

structure Session where
  id : Option SessionId := none
  protocolVersion : Option String := none

/-- The id of a response that `adopt_session` keeps. -/
def usableSessionId (response : HttpResponse) : Option SessionId :=
  (response.sessionId.filter fun value => !value.isEmpty && value.length ≤ maxSessionIdBytes).filter
    fun value => value.all fun byte => 0x21 ≤ byte && byte ≤ 0x7e

def Session.adoptSession (session : Session) (response : HttpResponse) : Session :=
  { session with id := usableSessionId response }

def Session.adoptProtocolVersion (session : Session) (reported : String) :
    Except McpStreamableHttpError Session :=
  match supportedProtocolVersions.find? (· = reported) with
  | none =>
    .error (.unsupportedProtocolVersion (String.intercalate ", " supportedProtocolVersions))
  | some negotiated => .ok { session with protocolVersion := some negotiated }

/-- How `post` judges the status of a response; whether the client has a session is read
when the response arrives. -/
def judge (hadSession : Bool) (response : HttpResponse) :
    Except McpStreamableHttpError HttpResponse :=
  if response.isRedirection then .error .redirectRefused
  else if response.isSuccess then .ok response
  else if response.status = 404 && hadSession then .error .sessionExpired
  else .error (.httpStatus method response.status)

end Mentra.Mcp.StreamableHttp
