import Mentra.Foundation.Transition
import Mentra.Permission.Rules

/-!
# Permission requests and their resolvers

Model of the pending requests of `mentra/src/session/permission.rs`, of the wait in
`SessionToolAuthorizer::authorize` and of `resolve_permission` in
`mentra/src/session/handle.rs`, as any number of waiting tool calls and resolvers whose steps
interleave.

A step is one operation on what the threads share: the table of pending requests, the
lifecycle lock of a request, the state behind it, the channel to the waiting call, the rules
and the event channel.  A waiting call that is dropped first drops the receiver, which its
innermost expression owns, and then the guard.

The authorizer that asked for the prompt, the remembered rules that may answer it, and the
texts of the event that announces a request are left out.
-/

namespace Mentra.Permission

open Foundation

structure PermissionDecision where
  allow : Bool
  rememberAs : Option PermissionRuleScope
  reason : Option String
  deriving DecidableEq

def PermissionDecision.deny : PermissionDecision :=
  ⟨false, none, none⟩

inductive PermissionOutcome
  | allowed
  | denied

inductive SessionEvent
  | permissionRequested (requestId toolCallId toolName : String)
  | permissionResolved (requestId toolCallId toolName : String) (outcome : PermissionOutcome)
      (ruleScope : Option PermissionRuleScope)

/-! ## Requests -/

/-- Where the sending half of a request's channel is. -/
inductive Sender
  /-- With the waiting call, which has not entered the request yet. -/
  | fresh
  /-- In the table of pending requests. -/
  | stored
  /-- With a resolver. -/
  | taken (call : Nat)
  /-- With the waiting call of another request, which was entered under the same id. -/
  | displaced (request : Nat)
  | sent (call : Nat) (decision : PermissionDecision)
  | dropped

/-- Who has the lifecycle lock of a request. -/
inductive Holder
  | resolver (call : Nat)
  | guard

/-- Where the waiting call stands. -/
inductive Waiter
  /-- It has its generation. -/
  | created
  /-- It entered the request in the place of another. -/
  | displacing (old : Nat)
  | inserted
  | waiting
  /-- The receiver is gone, with the answer it gave or because the call was dropped. -/
  | leaving (answer : Option PermissionDecision)
  /-- The guard has the lifecycle lock and takes the request out of the table. -/
  | retiring (answer : Option PermissionDecision)
  | gone (answer : Option PermissionDecision)
  deriving DecidableEq

namespace Waiter

/-- The receiver is still there. -/
def listens : Waiter → Bool
  | created | displacing _ | inserted | waiting => true
  | leaving _ | retiring _ | gone _ => false

def answer : Waiter → Option PermissionDecision
  | created | displacing _ | inserted | waiting => none
  | leaving answer | retiring answer | gone answer => answer

end Waiter

structure Request where
  toolCallId : String
  toolName : String
  generation : Nat
  active : Bool
  holder : Option Holder
  sender : Sender
  waiter : Waiter

namespace Request

def requestId (request : Request) : String :=
  "perm-" ++ request.toolCallId ++ "-" ++ String.ofList (Text.hexDigits 16 request.generation)

/-- Drop the sending half, unless it has been used. -/
def dropSender (request : Request) : Request :=
  match request.sender with
  | .sent _ _ => request
  | _ => { request with sender := .dropped }

end Request

/-! ## Resolvers -/

/-- Where a call of `resolve_permission` stands. -/
inductive Phase
  | started
  /-- It took the request out of the table. -/
  | claimed (request : Nat)
  /-- It has the lifecycle lock. -/
  | locked (request : Nat)
  /-- It found the request active and its receiver there. -/
  | checked (request : Nat)
  /-- The rule could not be remembered. -/
  | refused (request : Nat) (error : RuntimeError)
  /-- The rule is remembered, if one was asked for. -/
  | remembered (request : Nat)
  | announced (request : Nat)
  | resolved (request : Nat)
  | failed (error : RuntimeError)
  deriving DecidableEq

namespace Phase

/-- The request whose sender the call has. -/
def holds : Phase → Option Nat
  | claimed request | locked request | checked request | refused request _
  | remembered request | announced request => some request
  | started | resolved _ | failed _ => none

/-- The request whose lifecycle lock the call has. -/
def locks : Phase → Option Nat
  | locked request | checked request | refused request _ | remembered request
  | announced request => some request
  | started | claimed _ | resolved _ | failed _ => none

/-- The request that the call has found fit for its decision. -/
def passed : Phase → Option Nat
  | checked request | remembered request | announced request => some request
  | started | claimed _ | locked _ | refused _ _ | resolved _ | failed _ => none

/-- Where a call stands after it tried to remember its rule. -/
def afterRemembering (request : Nat) : Except RuntimeError Unit → Phase
  | .ok _ => remembered request
  | .error error => refused request error

end Phase

structure Call where
  requestId : String
  decision : PermissionDecision
  phase : Phase

namespace Call

/-- The rule that remembers the decision on a request. -/
def rule (call : Call) (request : Request) (scope : PermissionRuleScope) : RememberedRule where
  key := ⟨request.toolName, none⟩
  allow := call.decision.allow
  scope := scope
  reason := if call.decision.allow then none else call.decision.reason

def resolvedEvent (call : Call) (request : Request) : SessionEvent :=
  .permissionResolved call.requestId request.toolCallId request.toolName
    (if call.decision.allow then .allowed else .denied) call.decision.rememberAs

end Call

def noPending (requestId : String) : RuntimeError :=
  .operationDenied ("no pending permission with request_id '" ++ requestId ++ "'")

/-! ## The session -/

/-- What waiting calls and resolvers share, where each of them stands, and the events sent. -/
structure Permissions (σ : Type) where
  handle : SessionPermissionHandle
  durable : σ
  pending : String → Option Nat
  nextGeneration : Nat
  requests : List Request
  calls : List Call
  resolvedEvents : List SessionEvent
  requestedEvents : List SessionEvent

inductive Action (σ : Type)
  /-- A tool call takes a generation and opens a channel. -/
  | request (toolCallId toolName : String)
  | insert (request : Nat)
  | displace (request : Nat)
  | publish (request : Nat)
  /-- The waiting call reads the channel. -/
  | poll (request : Nat)
  /-- The waiting call is cancelled. -/
  | dropReceiver (request : Nat)
  | lockGuard (request : Nat)
  | cancel (request : Nat)
  /-- Somebody calls `resolve_permission`. -/
  | resolve (requestId : String) (decision : PermissionDecision)
  | claim (call : Nat)
  | lock (call : Nat)
  | check (call : Nat)
  | remember (call : Nat)
  | restore (call : Nat)
  | announce (call : Nat)
  | send (call : Nat)
  /-- Other sessions change the runtime store. -/
  | outside (durable : σ)

/-- The call of `resolve_permission` that makes the step. -/
def Action.call? {σ : Type} : Action σ → Option Nat
  | claim call | lock call | check call | remember call | restore call | announce call
  | send call => some call
  | _ => none

namespace Permissions

variable {σ : Type}

def new (handle : SessionPermissionHandle) (durable : σ) : Permissions σ where
  handle := handle
  durable := durable
  pending _ := none
  nextGeneration := 0
  requests := []
  calls := []
  resolvedEvents := []
  requestedEvents := []

variable (session : Permissions σ) (index : Nat)

def setRequest (request : Request) : Permissions σ :=
  { session with requests := session.requests.set index request }

variable (call : Call)

def setPhase (phase : Phase) : Permissions σ :=
  { session with calls := session.calls.set index { call with phase } }

def setPending (requestId : String) (request : Option Nat) : Permissions σ :=
  { session with pending := Function.update session.pending requestId request }

/-! ### The waiting call -/

/-- `AtomicU64::fetch_add`, which wraps around. -/
def request (toolCallId toolName : String) : Permissions σ :=
  { session with
    nextGeneration := (session.nextGeneration + 1) % 2 ^ 64
    requests := session.requests ++ [{
      toolCallId, toolName
      generation := session.nextGeneration
      active := true
      holder := none
      sender := .fresh
      waiter := .created }] }

/-- The table of `insert_with_generation`; what it gives back is another request that
had the id. -/
def insert (request : Request) : Permissions σ :=
  match session.pending request.requestId with
  | none =>
    (session.setRequest index { request with sender := .stored, waiter := .inserted }).setPending
      request.requestId (some index)
  | some old =>
    let session := match session.requests[old]? with
      | some oldRequest => session.setRequest old { oldRequest with sender := .displaced index }
      | none => session
    (session.setRequest index
      { request with sender := .stored, waiter := .displacing old }).setPending request.requestId
        (some index)

/-- The rest of `insert_with_generation`: the other request is over. -/
def displace (request : Request) (old : Nat) :
    Option (Permissions σ) := do
  let oldRequest ← session.requests[old]?
  if oldRequest.holder = none then
    return (session.setRequest old { oldRequest.dropSender with active := false }).setRequest index
      { request with waiter := .inserted }
  else none

def publish (request : Request) : Permissions σ :=
  { session.setRequest index { request with waiter := .waiting } with
    requestedEvents := session.requestedEvents ++
      [.permissionRequested request.requestId request.toolCallId request.toolName] }

/-- The answer of the channel, if it has one; a sender that was dropped denies. -/
def poll (request : Request) : Option (Permissions σ) :=
  match request.sender with
  | .sent _ decision =>
    some (session.setRequest index { request with waiter := .leaving (some decision) })
  | .dropped =>
    some (session.setRequest index { request with waiter := .leaving (some .deny) })
  | _ => none

/-- The guard's `drop` up to its call of the table. -/
def lockGuard (request : Request) (answer : Option PermissionDecision) : Option (Permissions σ) :=
  if request.holder = none then
    if request.active then
      some (session.setRequest index
        { request with active := false, holder := some .guard, waiter := .retiring answer })
    else some (session.setRequest index { request with waiter := .gone answer })
  else none

/-- `cancel_if_generation` and the end of the guard's `drop`. -/
def cancel (request : Request) (answer : Option PermissionDecision) : Permissions σ :=
  let left := { request with holder := none, waiter := .gone answer }
  match session.pending request.requestId with
  | none => session.setRequest index left
  | some stored =>
    match session.requests[stored]? with
    | none => session.setRequest index left
    | some other =>
      if other.generation = request.generation then
        if stored = index then
          (session.setRequest index left.dropSender).setPending request.requestId none
        else
          ((session.setRequest stored other.dropSender).setRequest index left).setPending
            request.requestId none
      else session.setRequest index left

/-! ### The resolver -/

/-- The checks before the lock: the scope, then the table. -/
def claim : Permissions σ :=
  let validated := match call.decision.rememberAs with
    | some scope => session.handle.context.validateScope scope
    | none => .ok ()
  match validated with
  | .error error => session.setPhase index call (.failed error)
  | .ok () =>
    match session.pending call.requestId with
    | none => session.setPhase index call (.failed (noPending call.requestId))
    | some claimed =>
      let session := match session.requests[claimed]? with
        | some request => session.setRequest claimed { request with sender := .taken index }
        | none => session
      (session.setPending call.requestId none).setPhase index call (.claimed claimed)

variable (held : Nat)

def lock (request : Request) : Option (Permissions σ) :=
  if request.holder = none then
    some ((session.setRequest held { request with holder := some (.resolver index) }).setPhase
      index call (.locked held))
  else none

def check (request : Request) : Permissions σ :=
  if request.active && request.waiter.listens then
    session.setPhase index call
      (if call.decision.rememberAs = none then .remembered held else .checked held)
  else
    (session.setRequest held { request.dropSender with active := false, holder := none }).setPhase
      index call (.failed (noPending call.requestId))

def remember (store : PermissionRuleStore σ RuntimeError) (session : Permissions σ) (index : Nat)
    (call : Call) (held : Nat) (request : Request) (scope : PermissionRuleScope) :
    Permissions σ :=
  let (result, handle, durable) :=
    session.handle.rememberRule store (call.rule request scope) session.durable
  { session.setPhase index call (.afterRemembering held result) with handle, durable }

/-- `PendingPermissionStore::restore` and the return of the error. -/
def restore (request : Request) (error : RuntimeError) : Permissions σ :=
  match session.pending call.requestId with
  | some _ =>
    (session.setRequest held { request.dropSender with active := false, holder := none }).setPhase
      index call (.failed error)
  | none =>
    ((session.setRequest held { request with holder := none, sender := .stored }).setPending
      call.requestId (some held)).setPhase index call (.failed error)

def announce (request : Request) : Permissions σ :=
  { session.setPhase index call (.announced held) with
    resolvedEvents := session.resolvedEvents ++ [call.resolvedEvent request] }

/-- The decision goes into the channel, or comes back if nobody listens. -/
def send (request : Request) : Permissions σ :=
  if request.waiter.listens then
    (session.setRequest held
      { request with
        active := false
        holder := none
        sender := .sent index call.decision }).setPhase index call (.resolved held)
  else
    (session.setRequest held { request.dropSender with holder := none }).setPhase index call
      (.failed (noPending call.requestId))

/-! ### Steps -/

/-- The waiting call of a request and its next operation. -/
def stepWaiter (next : Request → Option (Permissions σ)) : Option (Permissions σ) :=
  session.requests[index]?.bind next

/-- A resolver, the request it has, and its next operation. -/
def stepCall (next : Call → Nat → Request → Option (Permissions σ)) : Option (Permissions σ) := do
  let call ← session.calls[index]?
  let held ← call.phase.holds
  let request ← session.requests[held]?
  next call held request

def step (store : PermissionRuleStore σ RuntimeError) (session : Permissions σ) :
    Action σ → Option (Permissions σ)
  | .request toolCallId toolName => some (session.request toolCallId toolName)
  | .insert index => session.stepWaiter index fun request =>
    if request.waiter = .created then some (session.insert index request) else none
  | .displace index => session.stepWaiter index fun request =>
    match request.waiter with
    | .displacing old => session.displace index request old
    | _ => none
  | .publish index => session.stepWaiter index fun request =>
    if request.waiter = .inserted then some (session.publish index request) else none
  | .poll index => session.stepWaiter index fun request =>
    if request.waiter = .waiting then session.poll index request else none
  | .dropReceiver index => session.stepWaiter index fun request =>
    if request.waiter = .waiting then
      some (session.setRequest index { request with waiter := .leaving none })
    else none
  | .lockGuard index => session.stepWaiter index fun request =>
    match request.waiter with
    | .leaving answer => session.lockGuard index request answer
    | _ => none
  | .cancel index => session.stepWaiter index fun request =>
    match request.waiter with
    | .retiring answer => some (session.cancel index request answer)
    | _ => none
  | .resolve requestId decision =>
    some { session with calls := session.calls ++ [⟨requestId, decision, .started⟩] }
  | .claim index => session.calls[index]?.bind fun call =>
    if call.phase = .started then some (session.claim index call) else none
  | .lock index => session.stepCall index fun call held request =>
    if call.phase = .claimed held then session.lock index call held request else none
  | .check index => session.stepCall index fun call held request =>
    if call.phase = .locked held then some (session.check index call held request) else none
  | .remember index => session.stepCall index fun call held request =>
    if call.phase = .checked held then
      call.decision.rememberAs.map fun scope =>
        session.remember store index call held request scope
    else none
  | .restore index => session.stepCall index fun call held request =>
    match call.phase with
    | .refused _ error => some (session.restore index call held request error)
    | _ => none
  | .announce index => session.stepCall index fun call held request =>
    if call.phase = .remembered held then some (session.announce index call held request)
    else none
  | .send index => session.stepCall index fun call held request =>
    if call.phase = .announced held then some (session.send index call held request) else none
  | .outside durable => some { session with durable }

end Permissions

end Mentra.Permission
