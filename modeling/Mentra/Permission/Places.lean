import Mentra.Foundation.Custody
import Mentra.Foundation.Lists
import Mentra.Permission.Pending

/-!
# One sender for each permission request

The sending half of a request's channel is in one place at a time: in the table under the id
of the request, with one resolver, or with the waiting call of a request that was entered over
it.  A resolver that returned success used it up.  So in every interleaving, also when ids
repeat, a request is resolved at most once, with the decision its waiter reads.
-/

namespace Mentra.Permission

open Foundation Function Lists Option Request

/-- The places of a sender that can still be found or was used. -/
inductive Place
  | table (requestId : String)
  | waiter (request : Nat)
  | call (index : Nat)
  | done (index : Nat)
  deriving DecidableEq

/-- The request that a call returned success for. -/
def Phase.resolvedOn : Phase → Option Nat
  | resolved request => some request
  | _ => none

theorem Phase.resolvedOn_of_holds {phase : Phase} {held : Nat} (holds : phase.holds = some held) :
    phase.resolvedOn = none := by
  cases phase with
  | resolved => cases holds
  | _ => rfl

/-- The request whose sender the waiting call took out of the table. -/
def Waiter.displaces : Waiter → Option Nat
  | displacing old => some old
  | _ => none

namespace Request

def place (request : Request) : Option Place :=
  match request.sender with
  | .stored => some (.table request.requestId)
  | .displaced other => some (.waiter other)
  | .taken call => some (.call call)
  | .sent call _ => some (.done call)
  | .fresh | .dropped => none

/-- What the waiting call knows agrees with the sender. -/
structure Fits (index : Nat) (request : Request) : Prop where
  answered : ∀ decision, request.waiter.answer = some decision →
    (∃ call, request.sender = .sent call decision) ∨ (request.sender = .dropped ∧ decision = .deny)
  created : request.waiter = .created → request.sender = .fresh
  apart : request.sender ≠ .displaced index

variable {index : Nat} {request changed : Request}

theorem place_eq_table_iff {requestId : String} : request.place = some (.table requestId) ↔
    request.sender = .stored ∧ request.requestId = requestId := by
  rw [place]
  split <;> simp_all

theorem place_eq_waiter_iff {other : Nat} :
    request.place = some (.waiter other) ↔ request.sender = .displaced other := by
  rw [place]
  split <;> simp_all

theorem place_eq_call_iff {call : Nat} :
    request.place = some (.call call) ↔ request.sender = .taken call := by
  rw [place]
  split <;> simp_all

theorem place_eq_done_iff {call : Nat} :
    request.place = some (.done call) ↔ ∃ decision, request.sender = .sent call decision := by
  rw [place]
  split <;> simp_all

/-- The waiting call goes on and learns nothing. -/
theorem Fits.goOn (fits : request.Fits index) (sameSender : changed.sender = request.sender)
    (sameAnswer : changed.waiter.answer = request.waiter.answer)
    (notCreated : changed.waiter ≠ .created) : changed.Fits index where
  answered := by
    rw [sameSender, sameAnswer]
    exact fits.answered
  created := fun created => absurd created notCreated
  apart := by
    rw [sameSender]
    exact fits.apart

/-- The sender of a request under way passes on, and the waiting call sees nothing. -/
theorem Fits.passOn (fits : request.Fits index)
    (underWay : request.sender = .stored ∨ ∃ call, request.sender = .taken call)
    (sameWaiter : changed.waiter = request.waiter)
    (apart : changed.sender ≠ .displaced index) : changed.Fits index where
  answered := by
    rw [sameWaiter]
    intro decision answered
    have used := fits.answered decision answered
    rcases underWay with stored | ⟨call, taken⟩
    · simp [stored] at used
    · simp [taken] at used
  created := by
    rw [sameWaiter]
    intro created
    have fresh := fits.created created
    rcases underWay with stored | ⟨call, taken⟩
    · simp [stored] at fresh
    · simp [taken] at fresh
  apart := apart

theorem Fits.dropSender (fits : request.Fits index) (entered : request.sender ≠ .fresh) :
    request.dropSender.Fits index := by
  rw [Request.dropSender]
  split
  · exact fits
  · rename_i unsent
    refine ⟨?_, ?_, nofun⟩
    · intro decision answered
      rcases fits.answered decision answered with ⟨call, sent⟩ | ⟨-, denied⟩
      · exact absurd sent (unsent call decision)
      · exact .inr ⟨rfl, denied⟩
    · exact fun created => absurd (fits.created created) entered

theorem dropSender_of_unsent (unsent : ∀ call decision, request.sender ≠ .sent call decision) :
    request.dropSender = { request with sender := .dropped } := by
  rw [Request.dropSender]
  split
  · rename_i call decision sent
    exact absurd sent (unsent call decision)
  · rfl

end Request

namespace Permissions

variable {σ : Type} {session next : Permissions σ} {index held : Nat} {request changed : Request}
  {call : Call} {phase : Phase} {store : PermissionRuleStore σ RuntimeError}

def place (session : Permissions σ) (index : Nat) : Option Place :=
  session.requests[index]?.bind Request.place

def content (session : Permissions σ) : Place → Option Nat
  | .table requestId => session.pending requestId
  | .waiter index => session.requests[index]?.bind fun request => request.waiter.displaces
  | .call index => session.calls[index]?.bind fun call => call.phase.holds
  | .done index => session.calls[index]?.bind fun call => call.phase.resolvedOn

def requestIdAt (session : Permissions σ) (index : Nat) : Option String :=
  session.requests[index]?.map requestId

/-! ## Updates -/

theorem requests_setRequest (read : session.requests[index]? = some request) :
    Puts session.requests index changed (session.setRequest index changed).requests :=
  puts_set read changed

theorem calls_setPhase (read : session.calls[index]? = some call) :
    Puts session.calls index { call with phase } (session.setPhase index call phase).calls :=
  puts_set read _

theorem place_of_sender (read : session.requests[held]? = some request) :
    session.place held = request.place := by
  rw [place, read]
  rfl

theorem place_puts (puts : Puts session.requests held changed next.requests) :
    next.place = update session.place held changed.place := by
  funext other
  rw [place, puts, update_apply]
  split <;> rfl

theorem content_puts (puts : Puts session.requests held changed next.requests)
    (calls : next.calls = session.calls) (pending : next.pending = session.pending) :
    next.content = update session.content (.waiter held) changed.waiter.displaces := by
  funext spot
  cases spot with
  | waiter other =>
    rw [content, puts, update_apply]
    simp only [Place.waiter.injEq]
    split <;> rfl
  | table requestId => exact congrFun pending requestId
  | call other =>
    exact congrArg (fun calls => calls[other]?.bind fun call => call.phase.holds) calls
  | done other =>
    exact congrArg (fun calls => calls[other]?.bind fun call => call.phase.resolvedOn) calls

theorem content_putsCall (puts : Puts session.calls index call next.calls)
    (requests : next.requests = session.requests) (pending : next.pending = session.pending) :
    next.content = update (update session.content (.call index) call.phase.holds)
      (.done index) call.phase.resolvedOn := by
  funext spot
  cases spot with
  | call other =>
    have apart : Place.call other ≠ .done index := nofun
    rw [update_of_ne apart, content, puts, update_apply]
    simp only [Place.call.injEq]
    split <;> rfl
  | done other =>
    rw [content, puts, update_apply]
    simp only [Place.done.injEq]
    split <;> rfl
  | table requestId => exact congrFun pending requestId
  | waiter other =>
    exact congrArg (fun requests => requests[other]?.bind fun request => request.waiter.displaces)
      requests

section

variable (read : session.requests[index]? = some request)
include read

theorem place_setRequest :
    (session.setRequest index changed).place = update session.place index changed.place :=
  place_puts (requests_setRequest read)

theorem content_setRequest :
    (session.setRequest index changed).content =
      update session.content (.waiter index) changed.waiter.displaces :=
  content_puts (requests_setRequest read) rfl rfl

theorem content_setRequest_of_displaces
    (same : changed.waiter.displaces = request.waiter.displaces) :
    (session.setRequest index changed).content = session.content := by
  rw [content_setRequest read, same, update_eq_self_iff, content, read]
  rfl

end

section

variable (read : session.calls[index]? = some call)
include read

theorem content_call : session.content (.call index) = call.phase.holds := by
  rw [content, read]
  rfl

theorem content_done : session.content (.done index) = call.phase.resolvedOn := by
  rw [content, read]
  rfl

theorem content_setPhase :
    (session.setPhase index call phase).content =
      update (update session.content (.call index) phase.holds) (.done index) phase.resolvedOn :=
  content_putsCall (calls_setPhase read) rfl rfl

/-- A step of a call that resolves nothing. -/
theorem content_setPhase_of_resolvedOn (same : phase.resolvedOn = call.phase.resolvedOn) :
    (session.setPhase index call phase).content =
      update session.content (.call index) phase.holds := by
  have apart : Place.done index ≠ .call index := nofun
  rw [content_setPhase read, update_eq_self_iff, update_of_ne apart, content_done read]
  exact same

end

theorem content_setPending (requestId : String) (stored : Option Nat) :
    (session.setPending requestId stored).content =
      update session.content (.table requestId) stored := by
  funext spot
  cases spot with
  | table other =>
    rw [update_apply]
    simp only [Place.table.injEq]
    exact update_apply session.pending requestId stored other
  | waiter other | call other | done other => rfl

theorem place_setRequest_of_sender (read : session.requests[index]? = some request)
    (sameId : changed.requestId = request.requestId)
    (sameSender : changed.sender = request.sender) :
    (session.setRequest index changed).place = session.place := by
  rw [place_setRequest read, update_eq_self_iff, place_of_sender read, Request.place,
    Request.place, sameSender, sameId]

theorem place_setPending (requestId : String) (stored : Option Nat) :
    (session.setPending requestId stored).place = session.place :=
  rfl

theorem place_setPhase : (session.setPhase index call phase).place = session.place :=
  rfl

/-! ## What agrees besides -/

/-- Names and decisions of what calls and requests have of each other. -/
structure Agrees (session : Permissions σ) : Prop where
  named : ∀ (index : Nat) (call : Call) (held : Nat), session.calls[index]? = some call →
    call.phase.holds = some held ∨ call.phase.resolvedOn = some held →
      session.requestIdAt held = some call.requestId
  decided : ∀ (held : Nat) (request : Request) (index : Nat) (decision : PermissionDecision),
    session.requests[held]? = some request → request.sender = .sent index decision →
      ∀ call : Call, session.calls[index]? = some call → decision = call.decision
  fits : ∀ (held : Nat) (request : Request), session.requests[held]? = some request →
    request.Fits held

namespace Agrees

variable (agrees : session.Agrees)
include agrees

theorem puts (puts : Puts session.requests held changed next.requests)
    (calls : next.calls = session.calls)
    (same : ∀ requestId, session.requestIdAt held = some requestId → changed.requestId = requestId)
    (fits : changed.Fits held)
    (decided : ∀ index decision, changed.sender = .sent index decision →
      ∀ call : Call, session.calls[index]? = some call → decision = call.decision) :
    next.Agrees where
  named := by
    intro index call other read has
    rw [calls] at read
    have named := agrees.named index call other read has
    rw [requestIdAt, puts]
    split
    · rename_i isHeld
      exact congrArg some (same _ (isHeld ▸ named))
    · exact named
  decided := by
    intro other otherRequest index decision found sent
    rw [calls]
    obtain ⟨rfl, rfl⟩ | ⟨-, found⟩ := puts.eq_or found
    · exact decided index decision sent
    · exact agrees.decided other otherRequest index decision found sent
  fits := by
    intro other otherRequest found
    obtain ⟨rfl, rfl⟩ | ⟨-, found⟩ := puts.eq_or found
    · exact fits
    · exact agrees.fits other otherRequest found

theorem putsCall (puts : Puts session.calls index call next.calls)
    (requests : next.requests = session.requests)
    (named : ∀ held, call.phase.holds = some held ∨ call.phase.resolvedOn = some held →
      session.requestIdAt held = some call.requestId)
    (decided : ∀ (held : Nat) (request : Request) (decision : PermissionDecision),
      session.requests[held]? = some request → request.sender = .sent index decision →
        decision = call.decision) : next.Agrees where
  named := by
    intro other otherCall held found has
    rw [requestIdAt, requests]
    obtain ⟨rfl, rfl⟩ | ⟨-, found⟩ := puts.eq_or found
    · exact named held has
    · exact agrees.named other otherCall held found has
  decided := by
    intro held request other decision found sent otherCall isCall
    rw [requests] at found
    obtain ⟨rfl, rfl⟩ | ⟨-, isCall⟩ := puts.eq_or isCall
    · exact decided held request decision found sent
    · exact agrees.decided held request other decision found sent otherCall isCall
  fits := requests ▸ agrees.fits

theorem setRequest (read : session.requests[held]? = some request)
    (same : changed.requestId = request.requestId) (fits : changed.Fits held)
    (decided : ∀ index decision, changed.sender = .sent index decision →
      ∀ call : Call, session.calls[index]? = some call → decision = call.decision) :
    (session.setRequest held changed).Agrees := by
  refine agrees.puts (requests_setRequest read) rfl ?_ fits decided
  intro requestId isId
  rw [requestIdAt, read, map_some, Option.some.injEq] at isId
  exact same.trans isId

theorem setPhase (read : session.calls[index]? = some call)
    (named : ∀ held, phase.holds = some held ∨ phase.resolvedOn = some held →
      session.requestIdAt held = some call.requestId) :
    (session.setPhase index call phase).Agrees :=
  agrees.putsCall (calls_setPhase read) rfl named fun held request decision found sent =>
    agrees.decided held request index decision found sent call read

theorem setPending (requestId : String) (stored : Option Nat) :
    (session.setPending requestId stored).Agrees :=
  ⟨agrees.named, agrees.decided, agrees.fits⟩

/-- The sender of a request under way passes on unused. -/
theorem passOn (read : session.requests[held]? = some request)
    (underWay : request.sender = .stored ∨ ∃ call, request.sender = .taken call)
    (same : changed.requestId = request.requestId) (sameWaiter : changed.waiter = request.waiter)
    (apart : changed.sender ≠ .displaced held)
    (unsent : ∀ index decision, changed.sender ≠ .sent index decision) :
    (session.setRequest held changed).Agrees :=
  agrees.setRequest read same ((agrees.fits held request read).passOn underWay sameWaiter apart)
    fun index decision sent => absurd sent (unsent index decision)

end Agrees

/-! ## The invariant -/

theorem stepCall_eq_some {operation : Call → Nat → Request → Option (Permissions σ)}
    (stepped : session.stepCall index operation = some next) :
    ∃ call held request, session.calls[index]? = some call ∧
      session.requests[held]? = some request ∧
      call.phase.holds = some held ∧ operation call held request = some next := by
  obtain ⟨call, readCall, stepped⟩ := bind_eq_some_iff.mp stepped
  obtain ⟨held, holds, stepped⟩ := bind_eq_some_iff.mp stepped
  obtain ⟨request, read, stepped⟩ := bind_eq_some_iff.mp stepped
  exact ⟨call, held, request, readCall, read, holds, stepped⟩

theorem stepCall_ite {operation : Call → Nat → Request → Option (Permissions σ)}
    {guard : Call → Nat → Request → Prop} [∀ call held, DecidablePred (guard call held)]
    (stepped : session.stepCall index (fun call held request =>
      if guard call held request then operation call held request else none) = some next) :
    ∃ call held request, session.calls[index]? = some call ∧
      session.requests[held]? = some request ∧
      call.phase.holds = some held ∧ guard call held request ∧
        operation call held request = some next := by
  obtain ⟨call, held, request, readCall, read, holds, stepped⟩ := stepCall_eq_some stepped
  split at stepped
  · rename_i met
    exact ⟨call, held, request, readCall, read, holds, met, stepped⟩
  · cases stepped

/-- Every sender is where its request says, and nowhere else. -/
structure Linked (session : Permissions σ) : Prop where
  placed : Placed session.place session.content
  agrees : session.Agrees

theorem Linked.new (handle : SessionPermissionHandle) (durable : σ) :
    (Permissions.new handle durable).Linked where
  placed := by
    intro place index
    cases place <;> simp [Permissions.new, place, content]
  agrees := by
    constructor <;> simp [Permissions.new]

namespace Linked

variable (linked : session.Linked)
include linked

theorem of_same (requests : next.requests = session.requests) (calls : next.calls = session.calls)
    (pending : next.pending = session.pending) : next.Linked := by
  obtain ⟨placed, named, decided, fits⟩ := linked
  cases next
  cases requests
  cases calls
  cases pending
  exact ⟨placed, named, decided, fits⟩

/-- A change of one request that keeps its sender where it is. -/
theorem setRequest (read : session.requests[held]? = some request)
    (sameId : changed.requestId = request.requestId) (sameSender : changed.sender = request.sender)
    (sameDisplaces : changed.waiter.displaces = request.waiter.displaces)
    (fits : changed.Fits held) : (session.setRequest held changed).Linked where
  placed := by
    rw [place_setRequest_of_sender read sameId sameSender,
      content_setRequest_of_displaces read sameDisplaces]
    exact linked.placed
  agrees := linked.agrees.setRequest read sameId fits fun index decision sent =>
    linked.agrees.decided held request index decision read (sameSender ▸ sent)

theorem setPhase (read : session.calls[index]? = some call)
    (sameHeld : phase.holds = call.phase.holds)
    (sameResolved : phase.resolvedOn = call.phase.resolvedOn) :
    (session.setPhase index call phase).Linked where
  placed := by
    rw [content_setPhase_of_resolvedOn read sameResolved, sameHeld, ← content_call read,
      update_eq_self]
    exact linked.placed
  agrees := linked.agrees.setPhase read fun held has =>
    linked.agrees.named index call held read (sameHeld ▸ sameResolved ▸ has)

theorem place_of_holds (readCall : session.calls[index]? = some call)
    (holds : call.phase.holds = some held) : session.place held = some (.call index) := by
  rw [← linked.placed, content_call readCall, holds]

theorem stored {requestId : String} (isStored : session.pending requestId = some held) :
    ∃ request, session.requests[held]? = some request ∧ request.sender = .stored ∧
      request.requestId = requestId := by
  have isPlace : session.place held = some (.table requestId) := (linked.placed _ _).mp isStored
  obtain ⟨request, read, isPlace⟩ := bind_eq_some_iff.mp isPlace
  exact ⟨request, read, place_eq_table_iff.mp isPlace⟩

/-! ## Steps of the waiting call -/

theorem step_request (toolCallId toolName : String) :
    (session.request toolCallId toolName).Linked := by
  have last : session.requests[session.requests.length]? = none :=
    List.getElem?_eq_none (Nat.le_refl _)
  have puts : Puts session.requests _ _ (session.request toolCallId toolName).requests :=
    puts_concat session.requests _
  constructor
  · rw [place_puts puts, content_puts puts rfl rfl, update_eq_self_iff.mpr, update_eq_self_iff.mpr]
    · exact linked.placed
    · rw [content, last]
      rfl
    · rw [place, last]
      rfl
  · refine linked.agrees.puts puts rfl ?_ ⟨nofun, fun _ => rfl, nofun⟩ nofun
    intro requestId isId
    rw [requestIdAt, last] at isId
    cases isId

/-- The request under an id leaves the table for good. -/
theorem discardStored {requestId : String} (isStored : session.pending requestId = some held)
    (read : session.requests[held]? = some request)
    (sameId : changed.requestId = request.requestId) (dropped : changed.sender = .dropped)
    (sameDisplaces : changed.waiter.displaces = request.waiter.displaces)
    (fits : changed.Fits held) :
    ((session.setRequest held changed).setPending requestId none).Linked where
  placed := by
    have nowhere : changed.place = none := by
      rw [Request.place, dropped]
    rw [place_setPending, place_setRequest read, content_setPending,
      content_setRequest_of_displaces read sameDisplaces, nowhere]
    exact linked.placed.discard ((linked.placed _ _).mp isStored)
  agrees := by
    apply Agrees.setPending
    apply linked.agrees.setRequest read sameId fits
    rw [dropped]
    exact nofun

section Waiting

variable (read : session.requests[held]? = some request)
include read

theorem step_insert (created : request.waiter = .created) :
    (session.insert held request).Linked := by
  have fresh := (linked.agrees.fits held request read).created created
  have nowhere : session.place held = none := by
    rw [place_of_sender read, Request.place, fresh]
  rw [Permissions.insert]
  split
  · rename_i free
    constructor
    · rw [place_setPending, place_setRequest read, content_setPending,
        content_setRequest_of_displaces read (by rw [created]; rfl)]
      exact linked.placed.enter nowhere free
    · apply Agrees.setPending
      exact linked.agrees.setRequest read rfl ⟨nofun, nofun, nofun⟩ nofun
  · rename_i old isOld
    obtain ⟨oldRequest, readOld, oldStored, -⟩ := linked.stored isOld
    have oldPlace := (linked.placed (.table request.requestId) old).mp isOld
    have apart : held ≠ old := by
      rintro rfl
      cases nowhere.symm.trans oldPlace
    have noOther : session.content (.waiter held) = none := by
      rw [content, read, bind_some, created]
      rfl
    rw [readOld]
    have readNew : (session.setRequest old { oldRequest with sender := .displaced held }).requests[
        held]? = some request := by
      rw [requests_setRequest readOld, if_neg apart, read]
    constructor
    · -- The old sender goes to the waiting call, and the new one takes its place.
      have differs : Place.table request.requestId ≠ .waiter held := nofun
      have transfers := linked.placed.transfer oldPlace noOther
      have vacant : update (update session.content (.table request.requestId) none)
          (.waiter held) (some old) (.table request.requestId) = none := by
        rw [update_of_ne differs, update_self]
      have nowhereYet : update session.place old (some (.waiter held)) held = none := by
        rw [update_of_ne apart, nowhere]
      have enters := transfers.enter nowhereYet vacant
      rw [update_comm differs, update_idem] at enters
      rw [place_setPending, place_setRequest readNew, place_setRequest readOld, content_setPending,
        content_setRequest readNew, content_setRequest_of_displaces readOld]
      · exact enters
      · rfl
    · apply Agrees.setPending
      have agreesOld : (session.setRequest old
          { oldRequest with sender := .displaced held }).Agrees :=
        linked.agrees.passOn readOld (.inl oldStored) rfl rfl
          (fun same => apart (Sender.displaced.inj same)) nofun
      exact agreesOld.setRequest readNew rfl ⟨nofun, nofun, nofun⟩ nofun

theorem step_displace {old : Nat} (displacing : request.waiter = .displacing old)
    (displaced : session.displace held request old = some next) : next.Linked := by
  have isContent : session.content (.waiter held) = some old := by
    rw [content, read, bind_some, displacing]
    rfl
  have isPlace := (linked.placed _ _).mp isContent
  obtain ⟨oldRequest, readOld, oldPlace⟩ := bind_eq_some_iff.mp isPlace
  have oldSender := place_eq_waiter_iff.mp oldPlace
  have fitsOld := linked.agrees.fits old oldRequest readOld
  have apart : held ≠ old := by
    rintro rfl
    exact fitsOld.apart oldSender
  have unsent : ∀ call decision, oldRequest.sender ≠ .sent call decision := by
    rw [oldSender]
    exact nofun
  rw [Permissions.displace, readOld, bind_eq_bind, bind_some,
    dropSender_of_unsent unsent] at displaced
  split at displaced
  · cases displaced
    have readNew : (session.setRequest old
        { oldRequest with active := false, sender := .dropped }).requests[held]? =
          some request := by
      rw [requests_setRequest readOld, if_neg apart, read]
    constructor
    · rw [place_setRequest_of_sender readNew, place_setRequest readOld, content_setRequest readNew,
        content_setRequest_of_displaces readOld]
      · exact linked.placed.discard isPlace
      · rfl
      · rfl
      · rfl
    · have fits := fitsOld.dropSender (by rw [oldSender]; exact nofun)
      rw [dropSender_of_unsent unsent] at fits
      have agreesOld : (session.setRequest old
          { oldRequest with active := false, sender := .dropped }).Agrees :=
        linked.agrees.setRequest readOld rfl ⟨fits.answered, fits.created, fits.apart⟩ nofun
      exact agreesOld.setRequest readNew rfl
        ⟨nofun, nofun, (linked.agrees.fits held request read).apart⟩ fun index decision =>
          agreesOld.decided held request index decision readNew
  · cases displaced

/-- The waiting call goes on, and learns and takes nothing. -/
theorem goOn (sameId : changed.requestId = request.requestId)
    (sameSender : changed.sender = request.sender)
    (sameDisplaces : changed.waiter.displaces = request.waiter.displaces)
    (sameAnswer : changed.waiter.answer = request.waiter.answer)
    (notCreated : changed.waiter ≠ .created) : (session.setRequest held changed).Linked :=
  linked.setRequest read sameId sameSender sameDisplaces
    ((linked.agrees.fits held request read).goOn sameSender sameAnswer notCreated)

theorem step_publish (inserted : request.waiter = .inserted) :
    (session.publish held request).Linked := by
  have changes : (session.setRequest held { request with waiter := .waiting }).Linked :=
    linked.goOn read rfl rfl (by rw [inserted]; rfl) (by rw [inserted]; rfl) nofun
  exact changes.of_same rfl rfl rfl

theorem step_poll (waiting : request.waiter = .waiting)
    (polled : session.poll held request = some next) : next.Linked := by
  have fits := linked.agrees.fits held request read
  rw [Permissions.poll] at polled
  split at polled
  · rename_i call decision sent
    cases polled
    refine linked.setRequest read rfl rfl (by rw [waiting]; rfl) ⟨?_, nofun, fits.apart⟩
    rintro answer ⟨⟩
    exact .inl ⟨call, sent⟩
  · rename_i dropped
    cases polled
    refine linked.setRequest read rfl rfl (by rw [waiting]; rfl) ⟨?_, nofun, fits.apart⟩
    rintro answer ⟨⟩
    exact .inr ⟨dropped, rfl⟩
  · cases polled

theorem step_dropReceiver (waiting : request.waiter = .waiting) :
    (session.setRequest held { request with waiter := .leaving none }).Linked :=
  linked.goOn read rfl rfl (by rw [waiting]; rfl) (by rw [waiting]; rfl) nofun

theorem step_lockGuard {answer : Option PermissionDecision}
    (leaving : request.waiter = .leaving answer)
    (locked : session.lockGuard held request answer = some next) : next.Linked := by
  rw [Permissions.lockGuard] at locked
  split at locked
  · split at locked
    · cases locked
      exact linked.goOn read rfl rfl (by rw [leaving]; rfl) (by rw [leaving]; rfl) nofun
    · cases locked
      exact linked.goOn read rfl rfl (by rw [leaving]; rfl) (by rw [leaving]; rfl) nofun
  · cases locked

theorem step_cancel {answer : Option PermissionDecision}
    (retiring : request.waiter = .retiring answer) :
    (session.cancel held request answer).Linked := by
  have fitsOver : Fits held { request with holder := none, waiter := .gone answer } :=
    (linked.agrees.fits held request read).goOn rfl (by rw [retiring]; rfl) nofun
  have gone : (session.setRequest held
      { request with holder := none, waiter := .gone answer }).Linked :=
    linked.setRequest read rfl rfl (by rw [retiring]; rfl) fitsOver
  rw [Permissions.cancel]
  split
  · exact gone
  · rename_i stored isStored
    obtain ⟨other, readOther, otherStored, otherId⟩ := linked.stored isStored
    rw [readOther]
    dsimp only
    split
    · split
      · rename_i same
        subst same
        cases read.symm.trans readOther
        have dropped := fitsOver.dropSender (by rw [otherStored]; exact nofun)
        rw [dropSender_of_unsent (by rw [otherStored]; exact nofun)] at dropped ⊢
        exact linked.discardStored isStored read rfl rfl (by rw [retiring]; rfl) dropped
      · rename_i differs
        have dropped := (linked.agrees.fits stored other readOther).dropSender
          (by rw [otherStored]; exact nofun)
        rw [dropSender_of_unsent (by rw [otherStored]; exact nofun)] at dropped ⊢
        have discarded : ((session.setRequest stored { other with sender := .dropped }).setPending
            request.requestId none).Linked :=
          linked.discardStored isStored readOther rfl rfl rfl dropped
        have readHeld : ((session.setRequest stored { other with sender := .dropped }).setPending
            request.requestId none).requests[held]? = some request := by
          rw [setPending, requests_setRequest readOther, if_neg (Ne.symm differs), read]
        exact discarded.setRequest readHeld rfl rfl (by rw [retiring]; rfl) fitsOver
    · exact gone

end Waiting

/-! ## Steps of the resolver -/

theorem addCall (puts : Puts session.calls session.calls.length call next.calls)
    (started : call.phase = .started) (requests : next.requests = session.requests)
    (pending : next.pending = session.pending) : next.Linked := by
  have last : session.calls[session.calls.length]? = none :=
    List.getElem?_eq_none (Nat.le_refl _)
  have notDone : session.content (.done session.calls.length) = none := by
    rw [content, last]
    rfl
  constructor
  · have apart : Place.done session.calls.length ≠ .call session.calls.length := nofun
    have samePlace : next.place = session.place := by
      funext other
      rw [place, requests]
      rfl
    have sameContent : next.content = session.content := by
      rw [content_putsCall puts requests pending, started, update_eq_self_iff.mpr,
        update_eq_self_iff.mpr]
      · rw [content, last]
        rfl
      · rw [update_of_ne apart, notDone]
        rfl
    rw [samePlace, sameContent]
    exact linked.placed
  · refine linked.agrees.putsCall puts requests (by rw [started]; rintro held (⟨⟨⟩⟩ | ⟨⟨⟩⟩)) ?_
    -- A sender that was used names a call from before.
    intro held request sent read isSent
    have isDone := (linked.placed (.done session.calls.length) held).mpr
      ((place_of_sender read).trans (place_eq_done_iff.mpr ⟨sent, isSent⟩))
    cases notDone.symm.trans isDone

theorem step_resolve (requestId : String) (decision : PermissionDecision) :
    Linked { session with calls := session.calls ++ [⟨requestId, decision, .started⟩] } :=
  linked.addCall (puts_concat session.calls _) rfl rfl rfl

theorem step_claim (read : session.calls[index]? = some call) (started : call.phase = .started) :
    (session.claim index call).Linked := by
  have fails (error : RuntimeError) : (session.setPhase index call (.failed error)).Linked :=
    linked.setPhase read (by rw [started]; rfl) (by rw [started]; rfl)
  rw [Permissions.claim]
  split
  · exact fails _
  · split
    · exact fails _
    · rename_i claimed isStored
      obtain ⟨request, readRequest, stored, sameId⟩ := linked.stored isStored
      rw [readRequest]
      have isPlace := (linked.placed (.table call.requestId) claimed).mp isStored
      have free : session.content (.call index) = none := by
        rw [content_call read, started]
        rfl
      have readCall : ((session.setRequest claimed
          { request with sender := .taken index }).setPending call.requestId none).calls[index]? =
            some call := read
      constructor
      · rw [place_setPhase, place_setPending, place_setRequest readRequest,
          content_setPhase_of_resolvedOn readCall, content_setPending,
          content_setRequest_of_displaces readRequest]
        · exact linked.placed.transfer isPlace free
        · rfl
        · rw [started]
          rfl
      · refine Agrees.setPhase (Agrees.setPending ?_ _ _) readCall ?_
        · exact linked.agrees.passOn readRequest (.inl stored) rfl rfl nofun nofun
        · rintro held (has | has)
          · cases has
            rw [requestIdAt, setPending, requests_setRequest readRequest, if_pos rfl]
            exact congrArg some sameId
          · cases has

section Resolving

variable (readCall : session.calls[index]? = some call)
include readCall

theorem step_remember {scope : PermissionRuleScope} (checked : call.phase = .checked held) :
    (session.remember store index call held request scope).Linked := by
  have changes (result : Except RuntimeError Unit) :
      (session.setPhase index call (.afterRemembering held result)).Linked := by
    cases result <;> exact linked.setPhase readCall (by rw [checked]; rfl) (by rw [checked]; rfl)
  exact (changes _).of_same rfl rfl rfl

theorem step_announce (remembered : call.phase = .remembered held) :
    (session.announce index call held request).Linked := by
  have changes : (session.setPhase index call (.announced held)).Linked :=
    linked.setPhase readCall (by rw [remembered]; rfl) (by rw [remembered]; rfl)
  exact changes.of_same rfl rfl rfl

variable (read : session.requests[held]? = some request)
include read

theorem step_lock (claimed : call.phase = .claimed held)
    (locked : session.lock index call held request = some next) : next.Linked := by
  have fits := linked.agrees.fits held request read
  rw [Permissions.lock] at locked
  split at locked
  · cases locked
    have changes : (session.setRequest held
        { request with holder := some (.resolver index) }).Linked :=
      linked.setRequest read rfl rfl rfl ⟨fits.answered, fits.created, fits.apart⟩
    exact changes.setPhase readCall (by rw [claimed]; rfl) (by rw [claimed]; rfl)
  · cases locked

variable (holds : call.phase.holds = some held)
include holds

theorem taken : request.sender = .taken index ∧ request.requestId = call.requestId := by
  have isPlace := linked.place_of_holds readCall holds
  have named := linked.agrees.named index call held readCall (.inl holds)
  rw [place_of_sender read, place_eq_call_iff] at isPlace
  rw [requestIdAt, read, map_some, Option.some.injEq] at named
  exact ⟨isPlace, named⟩

theorem entered : request.sender ≠ .fresh ∧
    ∀ other decision, request.sender ≠ .sent other decision := by
  rw [(linked.taken readCall read holds).1]
  exact ⟨nofun, nofun⟩

/-- A call fails and drops the sender of its request. -/
theorem fail {active : Bool} {holder : Option Holder} {error : RuntimeError} :
    ((session.setRequest held { request.dropSender with active, holder }).setPhase index call
      (.failed error)).Linked := by
  obtain ⟨entered, unsent⟩ := linked.entered readCall read holds
  have fits := (linked.agrees.fits held request read).dropSender entered
  rw [dropSender_of_unsent unsent] at fits ⊢
  constructor
  · rw [place_setPhase, place_setRequest read, content_setPhase_of_resolvedOn,
      content_setRequest_of_displaces read]
    · exact linked.placed.discard (linked.place_of_holds readCall holds)
    · rfl
    · exact readCall
    · exact (Phase.resolvedOn_of_holds holds).symm
  · refine Agrees.setPhase (linked.agrees.setRequest read rfl ?_ nofun) readCall ?_
    · exact ⟨fits.answered, fits.created, fits.apart⟩
    · rintro other (⟨⟨⟩⟩ | ⟨⟨⟩⟩)

theorem step_check (locked : call.phase = .locked held) :
    (session.check index call held request).Linked := by
  rw [Permissions.check]
  split
  · apply linked.setPhase readCall
    · rw [locked]
      split <;> rfl
    · rw [locked]
      split <;> rfl
  · exact linked.fail readCall read holds

theorem step_restore {error : RuntimeError} :
    (session.restore index call held request error).Linked := by
  obtain ⟨taken, sameId⟩ := linked.taken readCall read holds
  rw [Permissions.restore]
  split
  · exact linked.fail readCall read holds
  · rename_i free
    have readNew : ((session.setRequest held { request with holder := none, sender := .stored }
        ).setPending call.requestId (some held)).calls[index]? = some call := readCall
    have isPlace : ({ request with holder := none, sender := .stored } : Request).place =
        some (.table call.requestId) := place_eq_table_iff.mpr ⟨rfl, sameId⟩
    constructor
    · have apart : Place.call index ≠ .table call.requestId := by rintro ⟨⟩
      have vacant : session.content (.table call.requestId) = none := free
      rw [place_setPhase, place_setPending, place_setRequest read, isPlace,
        content_setPhase_of_resolvedOn readNew, content_setPending,
        content_setRequest_of_displaces read, update_comm apart.symm]
      · exact linked.placed.transfer (linked.place_of_holds readCall holds) vacant
      · rfl
      · exact (Phase.resolvedOn_of_holds holds).symm
    · refine Agrees.setPhase (Agrees.setPending ?_ _ _) readNew ?_
      · exact linked.agrees.passOn read (.inr ⟨index, taken⟩) rfl rfl (by rintro ⟨⟩)
          (by rintro _ _ ⟨⟩)
      · rintro other (⟨⟨⟩⟩ | ⟨⟨⟩⟩)

theorem step_send : (session.send index call held request).Linked := by
  obtain ⟨taken, sameId⟩ := linked.taken readCall read holds
  rw [Permissions.send]
  split
  · have readNew : (session.setRequest held { request with
        active := false, holder := none, sender := .sent index call.decision }).calls[index]? =
          some call := readCall
    constructor
    · have notDone : session.content (.done index) = none := by
        rw [content_done readCall, Phase.resolvedOn_of_holds holds]
      rw [place_setPhase, place_setRequest read, content_setPhase readNew,
        content_setRequest_of_displaces read]
      · exact linked.placed.transfer (linked.place_of_holds readCall holds) notDone
      · rfl
    · have fits := linked.agrees.fits held request read
      refine Agrees.setPhase (linked.agrees.setRequest read rfl ?_ ?_) readNew ?_
      · exact fits.passOn (.inr ⟨index, taken⟩) rfl nofun
      · rintro other decision ⟨⟩ otherCall readOther
        cases readCall.symm.trans readOther
        rfl
      · rintro other (has | has)
        · cases has
        · cases has
          rw [requestIdAt, requests_setRequest read, if_pos rfl]
          exact congrArg some sameId
  · exact linked.fail readCall read holds

end Resolving

end Linked

end Permissions

end Mentra.Permission
