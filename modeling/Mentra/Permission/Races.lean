import Mentra.Permission.Places

/-!
# Resolvers against cancelled waits

A resolver checks that somebody listens, remembers the rule, announces the decision and only
then sends it.  Its lifecycle lock keeps the guard of the waiting call out of this, but the
receiver is dropped before the guard and without the lock: a call that is cancelled in between
leaves a rule remembered and an event sent for a decision that came back as an error.
Otherwise, if ids do not repeat and the store keeps no rule that it refuses, a resolver that
fails has left nothing behind and its request is still there.
-/

namespace Mentra.Permission

open Foundation List Transition Lists Permissions

/-! ## Ids -/

theorem Request.generation_eq_of_requestId {first second : Request}
    (firstLt : first.generation < 2 ^ 64) (secondLt : second.generation < 2 ^ 64)
    (same : first.requestId = second.requestId) : first.generation = second.generation := by
  have texts := congrArg String.toList same
  simp only [Request.requestId, String.toList_append, String.toList_ofList] at texts
  have sameLength : (Text.hexDigits 16 first.generation).length =
      (Text.hexDigits 16 second.generation).length := by
    rw [Text.length_hexDigits, Text.length_hexDigits]
  exact Text.hexDigits_inj firstLt secondLt (append_inj' texts sameLength).2

namespace Phase

/-- The call has remembered its rule, if it had one. -/
def hasRemembered : Phase → Bool
  | remembered _ | announced _ | resolved _ => true
  | _ => false

def isRefused : Phase → Bool
  | refused _ _ => true
  | _ => false

variable {phase : Phase} {held : Nat}

/-- A resolver past its check has the sender in hand. -/
theorem holds_of_passed (passed : phase.passed = some held) : phase.holds = some held := by
  cases phase <;> first | (cases passed; rfl) | cases passed

theorem holds_of_locks (locks : phase.locks = some held) : phase.holds = some held := by
  cases phase <;> first | (cases locks; rfl) | cases locks

end Phase

/-- A request that can still be answered, or was. -/
def Request.Alive (request : Request) : Prop :=
  (∃ call decision, request.sender = .sent call decision) ∨
    (request.active ∧ (request.sender = .fresh ∧ request.waiter = .created ∨
      request.sender = .stored ∨ ∃ call, request.sender = .taken call))

namespace Permissions

variable {σ : Type} {session next : Permissions σ} {index held : Nat} {request changed : Request}
  {call : Call} {phase : Phase} {store : PermissionRuleStore σ RuntimeError}

/-- No receiver is dropped while a resolver is between its check and its send, and
generations do not start over. -/
def undisturbed (session : Permissions σ) : Action σ → Bool
  | .dropReceiver held => session.calls.all fun call => call.phase.passed ≠ some held
  | .request _ _ => session.requests.length < 2 ^ 64
  | _ => true

/-- Nor does the store keep a rule that it refuses. -/
def allows [DecidableEq σ] (store : PermissionRuleStore σ RuntimeError) (session : Permissions σ) :
    Action σ → Bool
  | .remember index => (session.step store (.remember index)).all fun next =>
      next.durable = session.durable || !(next.calls[index]?.any fun call => call.phase.isRefused)
  | action => session.undisturbed action

/-- What holds as long as every step is allowed.  The calls in `past` have remembered their
rules. -/
structure Kept (past : List Nat) (session : Permissions σ) : Prop where
  bounded : session.requests.length ≤ 2 ^ 64
  counted : session.nextGeneration = session.requests.length % 2 ^ 64
  numbered : ∀ (held : Nat) (request : Request), session.requests[held]? = some request →
    request.generation = held ∧ request.waiter.displaces = none
  /-- While somebody listens, the request is alive and its guard sleeps. -/
  alive : ∀ (held : Nat) (request : Request), session.requests[held]? = some request →
    request.waiter.listens → request.Alive ∧ request.holder ≠ some .guard
  locked : ∀ (held : Nat) (request : Request) (index : Nat),
    session.requests[held]? = some request → request.holder = some (.resolver index) →
      ∃ call, session.calls[index]? = some call ∧ call.phase.locks = some held
  passed : ∀ (index : Nat) (call : Call) (held : Nat), session.calls[index]? = some call →
    call.phase.passed = some held →
      ∃ request, session.requests[held]? = some request ∧ request.waiter.listens
  rules : ∀ index ∈ past, ∃ call, session.calls[index]? = some call ∧ call.phase.hasRemembered

variable {past : List Nat}

theorem Kept.new (handle : SessionPermissionHandle) (durable : σ) :
    (Permissions.new handle durable).Kept [] := by
  constructor <;> simp [Permissions.new]

namespace Kept

variable (kept : session.Kept past)
include kept

section Changed

variable (undisplaced : changed.waiter.displaces = none)
  (alive : changed.waiter.listens → changed.Alive ∧ changed.holder ≠ some .guard)
  (locked : ∀ index, changed.holder = some (.resolver index) →
    ∃ call, session.calls[index]? = some call ∧ call.phase.locks = some held)
  (listens : changed.waiter.listens ∨ ∀ (index : Nat) (call : Call),
    session.calls[index]? = some call → call.phase.passed ≠ some held)
include undisplaced alive locked listens

theorem puts (puts : Puts session.requests held changed next.requests)
    (bounded : next.requests.length ≤ 2 ^ 64)
    (counted : next.nextGeneration = next.requests.length % 2 ^ 64)
    (generation : changed.generation = held) (calls : next.calls = session.calls) :
    next.Kept past where
  bounded := bounded
  counted := counted
  numbered := by
    intro other otherRequest found
    obtain ⟨rfl, rfl⟩ | ⟨-, found⟩ := puts.eq_or found
    · exact ⟨generation, undisplaced⟩
    · exact kept.numbered other otherRequest found
  alive := by
    intro other otherRequest found
    obtain ⟨rfl, rfl⟩ | ⟨-, found⟩ := puts.eq_or found
    · exact alive
    · exact kept.alive other otherRequest found
  locked := by
    intro other otherRequest index found
    rw [calls]
    obtain ⟨rfl, rfl⟩ | ⟨-, found⟩ := puts.eq_or found
    · exact locked index
    · exact kept.locked other otherRequest index found
  passed := by
    intro index call other readCall passed
    rw [calls] at readCall
    refine puts.keeps (kept.passed index call other readCall passed) ?_
    rintro found rfl - -
    exact listens.resolve_right fun nobody => nobody index call readCall passed
  rules := calls ▸ kept.rules

theorem setRequest (read : session.requests[held]? = some request)
    (sameGeneration : changed.generation = request.generation) :
    (session.setRequest held changed).Kept past := by
  refine kept.puts undisplaced alive locked listens (requests_setRequest read) ?_ ?_ ?_ rfl
  · rw [Permissions.setRequest, length_set]
    exact kept.bounded
  · rw [Permissions.setRequest, length_set]
    exact kept.counted
  · exact sameGeneration.trans (kept.numbered held request read).1

end Changed

theorem putsCall (puts : Puts session.calls index call next.calls)
    (locked : ∀ (held : Nat) (request : Request), session.requests[held]? = some request →
      request.holder = some (.resolver index) → call.phase.locks = some held)
    (passed : ∀ held, call.phase.passed = some held →
      ∃ request, session.requests[held]? = some request ∧ request.waiter.listens)
    (rules : ∀ old, session.calls[index]? = some old → old.phase.hasRemembered →
      call.phase.hasRemembered) (requests : next.requests = session.requests)
    (generation : next.nextGeneration = session.nextGeneration) : next.Kept past where
  bounded := requests ▸ kept.bounded
  counted := by
    rw [generation, requests]
    exact kept.counted
  numbered := requests ▸ kept.numbered
  alive := requests ▸ kept.alive
  locked := by
    rw [requests]
    intro held request other read holder
    refine puts.keeps (kept.locked held request other read holder) ?_
    rintro found rfl - -
    exact locked held request read holder
  passed := by
    rw [requests]
    intro other otherCall held found
    obtain ⟨rfl, rfl⟩ | ⟨-, found⟩ := puts.eq_or found
    · exact passed held
    · exact kept.passed other otherCall held found
  rules index mem := puts.keeps (kept.rules index mem) fun old _ => rules old

theorem setPhase (readCall : session.calls[index]? = some call)
    (locked : ∀ (held : Nat) (request : Request), session.requests[held]? = some request →
      request.holder = some (.resolver index) → phase.locks = some held)
    (passed : ∀ held, phase.passed = some held →
      ∃ request, session.requests[held]? = some request ∧ request.waiter.listens)
    (rules : call.phase.hasRemembered → phase.hasRemembered) :
    (session.setPhase index call phase).Kept past := by
  refine kept.putsCall (calls_setPhase readCall) locked passed ?_ rfl rfl
  intro old readOld
  cases readCall.symm.trans readOld
  exact rules

theorem of_same (requests : next.requests = session.requests)
    (calls : next.calls = session.calls)
    (generation : next.nextGeneration = session.nextGeneration) : next.Kept past := by
  cases session
  cases next
  cases requests
  cases calls
  cases generation
  exact { kept with }

theorem eq_of_requestId {other : Nat} {otherRequest : Request}
    (read : session.requests[held]? = some request)
    (readOther : session.requests[other]? = some otherRequest)
    (same : request.requestId = otherRequest.requestId) : held = other := by
  have lt : ∀ {index : Nat} {found : Request}, session.requests[index]? = some found →
      found.generation < 2 ^ 64 := by
    intro index found isFound
    rw [(kept.numbered index found isFound).1]
    exact Nat.lt_of_lt_of_le (List.getElem?_eq_some_iff.mp isFound).1 kept.bounded
  have generations := Request.generation_eq_of_requestId (lt read) (lt readOther) same
  rwa [(kept.numbered held request read).1, (kept.numbered other otherRequest readOther).1]
    at generations

/-- Nobody is past the check of a request that is not listened to. -/
theorem nobody_passed (read : session.requests[held]? = some request)
    (silent : request.waiter.listens = false) (index : Nat) (call : Call)
    (readCall : session.calls[index]? = some call) : call.phase.passed ≠ some held := by
  intro passed
  obtain ⟨other, readOther, listens⟩ := kept.passed index call held readCall passed
  cases read.symm.trans readOther
  rw [silent] at listens
  cases listens

theorem listens_or (read : session.requests[held]? = some request) :
    request.waiter.listens ∨ ∀ (index : Nat) (call : Call), session.calls[index]? = some call →
      call.phase.passed ≠ some held := by
  cases listens : request.waiter.listens with
  | true => exact .inl rfl
  | false => exact .inr (kept.nobody_passed read listens)

/-! ## Steps of the waiting call -/

theorem step_request (room : session.requests.length < 2 ^ 64)
    (toolCallId toolName : String) : (session.request toolCallId toolName).Kept past := by
  have length : (session.request toolCallId toolName).requests.length =
      session.requests.length + 1 := length_append
  refine kept.puts rfl ?_ ?_ (.inl rfl) (puts_concat session.requests _) ?_ ?_ ?_ rfl
  · exact fun _ => ⟨.inr ⟨rfl, .inl ⟨rfl, rfl⟩⟩, nofun⟩
  · exact nofun
  · rw [length]
    exact room
  · rw [length, request, kept.counted, Nat.mod_add_mod]
  · dsimp only
    rw [kept.counted, Nat.mod_eq_of_lt room]

section Waiting

variable (read : session.requests[held]? = some request)
include read

theorem leave (sameGeneration : changed.generation = request.generation)
    (undisplaced : changed.waiter.displaces = none) (silent : changed.waiter.listens = false)
    (locked : ∀ index, changed.holder = some (.resolver index) →
      request.holder = some (.resolver index))
    (nobody : ∀ (index : Nat) (call : Call), session.calls[index]? = some call →
      call.phase.passed ≠ some held) : (session.setRequest held changed).Kept past := by
  refine kept.setRequest undisplaced ?_ ?_ (.inr nobody) read sameGeneration
  · rw [silent]
    exact nofun
  · exact fun index holder => kept.locked held request index read (locked index holder)

theorem step_publish (inserted : request.waiter = .inserted) :
    (session.publish held request).Kept past := by
  obtain ⟨alive, unguarded⟩ := kept.alive held request read (by rw [inserted]; rfl)
  have stays : Request.Alive { request with waiter := .waiting } := by
    rcases alive with sent | ⟨active, ⟨-, created⟩ | underWay⟩
    · exact .inl sent
    · rw [inserted] at created
      cases created
    · exact .inr ⟨active, .inr underWay⟩
  have changes : (session.setRequest held { request with waiter := .waiting }).Kept past :=
    kept.setRequest rfl (fun _ => ⟨stays, unguarded⟩)
      (fun index => kept.locked held request index read) (.inl rfl) read rfl
  exact changes.of_same rfl rfl rfl

theorem step_dropReceiver
    (nobody : session.calls.all fun call => call.phase.passed ≠ some held) :
    (session.setRequest held { request with waiter := .leaving none }).Kept past := by
  refine kept.leave read rfl rfl rfl (fun _ holder => holder) ?_
  intro index call readCall
  simpa using all_eq_true.mp nobody call (mem_of_getElem? readCall)

theorem step_lockGuard {answer : Option PermissionDecision}
    (leaving : request.waiter = .leaving answer)
    (locked : session.lockGuard held request answer = some next) : next.Kept past := by
  have nobody := kept.nobody_passed read (by rw [leaving]; rfl)
  rw [lockGuard] at locked
  split at locked
  · split at locked
    · cases locked
      exact kept.leave read rfl rfl rfl (by rintro _ ⟨⟩) nobody
    · cases locked
      exact kept.leave read rfl rfl rfl (fun _ holder => holder) nobody
  · cases locked

variable (linked : session.Linked)
include linked

/-- A request that its resolver has or had in hand is not in the table. -/
theorem pending_eq_none (unstored : request.sender ≠ .stored) :
    session.pending request.requestId = none := by
  cases isStored : session.pending request.requestId with
  | none => rfl
  | some other =>
    obtain ⟨otherRequest, readOther, stored, sameId⟩ := linked.stored isStored
    cases kept.eq_of_requestId read readOther sameId.symm
    cases read.symm.trans readOther
    exact absurd stored unstored

theorem step_insert (created : request.waiter = .created) :
    (session.insert held request).Kept past := by
  have fresh := (linked.agrees.fits held request read).created created
  obtain ⟨alive, unguarded⟩ := kept.alive held request read (by rw [created]; rfl)
  have free := kept.pending_eq_none read linked (by rw [fresh]; exact nofun)
  rw [Permissions.insert, free]
  have active : request.active := by
    rcases alive with ⟨call, decision, sent⟩ | ⟨active, -⟩
    · rw [fresh] at sent
      cases sent
    · exact active
  have changes : (session.setRequest held
      { request with sender := .stored, waiter := .inserted }).Kept past :=
    kept.setRequest rfl (fun _ => ⟨.inr ⟨active, .inr (.inl rfl)⟩, unguarded⟩)
      (fun index => kept.locked held request index read) (.inl rfl) read rfl
  exact changes.of_same rfl rfl rfl

omit kept in
/-- No resolver is past its check of a request that is in no resolver's hands. -/
theorem nobody_of_untaken (untaken : ∀ index, request.sender ≠ .taken index) (index : Nat)
    (call : Call) (readCall : session.calls[index]? = some call) :
    call.phase.passed ≠ some held := fun passed =>
  untaken index (linked.taken readCall read (Phase.holds_of_passed passed)).1

theorem step_poll (polled : session.poll held request = some next) : next.Kept past := by
  have leaves (answer : Option PermissionDecision)
      (untaken : ∀ index, request.sender ≠ .taken index) :
      (session.setRequest held { request with waiter := .leaving answer }).Kept past :=
    kept.leave read rfl rfl rfl (fun _ holder => holder) (nobody_of_untaken read linked untaken)
  rw [poll] at polled
  split at polled
  · rename_i sent
    cases polled
    exact leaves _ (by rw [sent]; rintro _ ⟨⟩)
  · rename_i dropped
    cases polled
    exact leaves _ (by rw [dropped]; rintro _ ⟨⟩)
  · cases polled

theorem step_cancel {answer : Option PermissionDecision}
    (retiring : request.waiter = .retiring answer) :
    (session.cancel held request answer).Kept past := by
  have nobody := kept.nobody_passed read (by rw [retiring]; rfl)
  rw [cancel]
  split
  · exact kept.leave read rfl rfl rfl (by rintro _ ⟨⟩) nobody
  · rename_i stored isStored
    obtain ⟨other, readOther, otherStored, otherId⟩ := linked.stored isStored
    cases kept.eq_of_requestId read readOther otherId.symm
    cases read.symm.trans readOther
    rw [read]
    dsimp only
    rw [if_pos rfl, if_pos rfl, Request.dropSender_of_unsent (by rw [otherStored]; rintro _ _ ⟨⟩)]
    have dropped : (session.setRequest held
        { request with holder := none, sender := .dropped, waiter := .gone answer }).Kept past :=
      kept.leave read rfl rfl rfl (by rintro _ ⟨⟩) nobody
    exact dropped.of_same rfl rfl rfl

end Waiting

/-! ## Steps of the resolver -/

theorem step_resolve (requestId : String) (decision : PermissionDecision) :
    Kept past { session with calls := session.calls ++ [⟨requestId, decision, .started⟩] } := by
  have last : session.calls[session.calls.length]? = none :=
    getElem?_eq_none (Nat.le_refl _)
  refine kept.putsCall (puts_concat session.calls _) ?_ nofun ?_ rfl rfl
  · intro held request read holder
    obtain ⟨call, readCall, -⟩ := kept.locked held request _ read holder
    cases last.symm.trans readCall
  · intro old readOld
    cases last.symm.trans readOld

section Resolving

variable (readCall : session.calls[index]? = some call)
include readCall

/-- The lifecycle lock is with the call that knows of it. -/
theorem locks_of_holder (read : session.requests[held]? = some request)
    (holder : request.holder = some (.resolver index)) : call.phase.locks = some held := by
  obtain ⟨other, readOther, locks⟩ := kept.locked held request index read holder
  cases readCall.symm.trans readOther
  exact locks

/-- A call that has remembered nothing goes on with the lock that it has. -/
theorem goOn (locks : ∀ other, call.phase.locks = some other → phase.locks = some other)
    (passed : ∀ other, phase.passed = some other →
      ∃ request, session.requests[other]? = some request ∧ request.waiter.listens)
    (quiet : call.phase.hasRemembered = false) : (session.setPhase index call phase).Kept past := by
  apply kept.setPhase readCall
  · exact fun _ _ read holder => locks _ (kept.locks_of_holder readCall read holder)
  · exact passed
  · rw [quiet]
    exact nofun

theorem step_claim (linked : session.Linked) (started : call.phase = .started) :
    (session.claim index call).Kept past := by
  have fails (error : RuntimeError) : (session.setPhase index call (.failed error)).Kept past :=
    kept.goOn readCall (by rw [started]; rintro _ ⟨⟩) (by rintro _ ⟨⟩) (by rw [started]; rfl)
  rw [Permissions.claim]
  split
  · exact fails _
  · split
    · exact fails _
    · rename_i claimed isStored
      obtain ⟨request, read, stored, -⟩ := linked.stored isStored
      rw [read]
      have changes : (session.setRequest claimed { request with sender := .taken index }).Kept
          past := by
        refine kept.setRequest (kept.numbered claimed request read).2 ?_
          (fun other => kept.locked claimed request other read) (.inr ?_) read rfl
        · intro listens
          obtain ⟨alive, unguarded⟩ := kept.alive claimed request read listens
          rcases alive with ⟨other, decision, sent⟩ | ⟨active, -⟩
          · rw [stored] at sent
            cases sent
          · exact ⟨.inr ⟨active, .inr (.inr ⟨index, rfl⟩)⟩, unguarded⟩
        · exact nobody_of_untaken read linked (by rw [stored]; rintro _ ⟨⟩)
      have empties : ((session.setRequest claimed { request with sender := .taken index }
          ).setPending call.requestId none).Kept past := changes.of_same rfl rfl rfl
      exact empties.goOn readCall (by rw [started]; rintro _ ⟨⟩) (by rintro _ ⟨⟩)
        (by rw [started]; rfl)

theorem step_remember {scope : PermissionRuleScope} (checked : call.phase = .checked held) :
    (session.remember store index call held request scope).Kept past := by
  have passed := kept.passed index call held readCall (by rw [checked]; rfl)
  have changes (result : Except RuntimeError Unit) :
      (session.setPhase index call (.afterRemembering held result)).Kept past := by
    apply kept.goOn readCall
    · rw [checked]
      cases result <;> exact fun _ isHeld => isHeld
    · cases result <;> rintro other ⟨⟩
      exact passed
    · rw [checked]
      rfl
  exact (changes _).of_same rfl rfl rfl

theorem step_announce (remembered : call.phase = .remembered held) :
    (session.announce index call held request).Kept past := by
  have passed := kept.passed index call held readCall (by rw [remembered]; rfl)
  have changes : (session.setPhase index call (.announced held)).Kept past := by
    apply kept.setPhase readCall
    · intro other otherRequest read holder
      have locks := kept.locks_of_holder readCall read holder
      rwa [remembered] at locks
    · rintro other ⟨⟩
      exact passed
    · exact fun _ => rfl
  exact changes.of_same rfl rfl rfl

variable (read : session.requests[held]? = some request)
include read

theorem step_lock (claimed : call.phase = .claimed held)
    (locked : session.lock index call held request = some next) : next.Kept past := by
  rw [Permissions.lock] at locked
  split at locked
  · cases locked
    have changes : (session.setPhase index call (.locked held)).Kept past :=
      kept.goOn readCall (by rw [claimed]; rintro _ ⟨⟩) (by rintro _ ⟨⟩) (by rw [claimed]; rfl)
    have isLocked : (session.setPhase index call (.locked held)).calls[index]? =
        some { call with phase := .locked held } := by
      rw [calls_setPhase readCall, if_pos rfl]
    -- The two changes are on different lists.
    have listens := changes.listens_or read
    refine changes.setRequest (kept.numbered held request read).2 ?_ ?_ listens read rfl
    · exact fun listens => ⟨(kept.alive held request read listens).1, by rintro ⟨⟩⟩
    · rintro other ⟨⟩
      exact ⟨_, isLocked, rfl⟩
  · cases locked

/-- A call that has let its lock go has none. -/
theorem unlocked (locks : call.phase.locks = some held) (free : changed.holder = none)
    {other : Nat} {otherRequest : Request}
    (found : (session.setRequest held changed).requests[other]? = some otherRequest) :
    otherRequest.holder ≠ some (.resolver index) := by
  intro holder
  obtain ⟨rfl, rfl⟩ | ⟨differs, found⟩ := (requests_setRequest read).eq_or found
  · rw [free] at holder
    cases holder
  · have same := kept.locks_of_holder readCall found holder
    rw [locks] at same
    exact differs (Option.some.inj same).symm

theorem release {error : RuntimeError} (locks : call.phase.locks = some held)
    (sameGeneration : changed.generation = request.generation)
    (sameWaiter : changed.waiter = request.waiter) (free : changed.holder = none)
    (alive : request.waiter.listens → changed.Alive) (quiet : call.phase.hasRemembered = false) :
    ((session.setRequest held changed).setPhase index call (.failed error)).Kept past := by
  have changes : (session.setRequest held changed).Kept past := by
    refine kept.setRequest ?_ ?_ ?_ ?_ read sameGeneration
    · rw [sameWaiter]
      exact (kept.numbered held request read).2
    · rw [sameWaiter, free]
      exact fun listens => ⟨alive listens, nofun⟩
    · rw [free]
      exact nofun
    · rw [sameWaiter]
      exact kept.listens_or read
  apply changes.setPhase readCall
  · exact fun _ _ found holder =>
      absurd holder (kept.unlocked readCall read locks free found)
  · exact nofun
  · rw [quiet]
    exact nofun

theorem step_send (announced : call.phase = .announced held) :
    (session.send index call held request).Kept past := by
  obtain ⟨found, readFound, listens⟩ :=
    kept.passed index call held readCall (by rw [announced]; rfl)
  cases read.symm.trans readFound
  rw [Permissions.send, if_pos listens]
  have changes : (session.setRequest held { request with
      active := false, holder := none, sender := .sent index call.decision }).Kept past := by
    refine kept.setRequest (kept.numbered held request read).2 ?_ (by rintro _ ⟨⟩) (.inl listens)
      read rfl
    exact fun _ => ⟨.inl ⟨index, call.decision, rfl⟩, by rintro ⟨⟩⟩
  apply changes.setPhase readCall
  · exact fun _ _ found holder =>
      absurd holder (kept.unlocked readCall read (by rw [announced]; rfl) rfl found)
  · rintro _ ⟨⟩
  · exact fun _ => rfl

variable (linked : session.Linked) (holds : call.phase.holds = some held)
include linked holds

/-- A request in the hands of a resolver is active while it is listened to. -/
theorem active (listens : request.waiter.listens) : request.active := by
  rcases (kept.alive held request read listens).1 with ⟨other, decision, sent⟩ | ⟨active, -⟩
  · exact absurd sent ((linked.entered readCall read holds).2 other decision)
  · exact active

theorem step_check (locked : call.phase = .locked held) :
    (session.check index call held request).Kept past := by
  rw [Permissions.check]
  split
  · rename_i fit
    obtain ⟨-, listens⟩ := Bool.and_eq_true_iff.mp fit
    apply kept.goOn readCall
    · rw [locked]
      split <;> exact fun _ isHeld => isHeld
    · split
      · rintro other ⟨⟩
        exact ⟨request, read, listens⟩
      · rintro other ⟨⟩
        exact ⟨request, read, listens⟩
    · rw [locked]
      rfl
  · rename_i unfit
    have silent : ¬ request.waiter.listens := fun listens =>
      unfit (Bool.and_eq_true_iff.mpr ⟨kept.active readCall read linked holds listens, listens⟩)
    rw [Request.dropSender_of_unsent (linked.entered readCall read holds).2]
    exact kept.release readCall read (by rw [locked]; rfl) rfl rfl rfl
      (fun listens => absurd listens silent) (by rw [locked]; rfl)

theorem step_restore {error : RuntimeError} (refused : call.phase = .refused held error) :
    (session.restore index call held request error).Kept past := by
  obtain ⟨taken, sameId⟩ := linked.taken readCall read holds
  have free := kept.pending_eq_none read linked (by rw [taken]; exact nofun)
  rw [sameId] at free
  rw [restore, free]
  have released : ((session.setRequest held
      { request with holder := none, sender := .stored }).setPhase index call
        (.failed error)).Kept past := by
    refine kept.release readCall read (by rw [refused]; rfl) rfl rfl rfl ?_ (by rw [refused]; rfl)
    intro listens
    have active := kept.active readCall read linked holds listens
    exact .inr ⟨active, .inr (.inl rfl)⟩
  exact released.of_same rfl rfl rfl

end Resolving

end Kept

/-! ## Every run -/

/-- One step, for both invariants. -/
theorem Linked.step {action : Action σ} (linked : session.Linked)
    (stepped : session.step store action = some next) :
    next.Linked ∧ (session.Kept past → session.undisturbed action → next.Kept past) := by
  cases action with
  | request toolCallId toolName =>
    cases stepped
    exact ⟨linked.step_request toolCallId toolName, fun kept room =>
      kept.step_request (of_decide_eq_true room) toolCallId toolName⟩
  | insert held =>
    obtain ⟨request, read, created, ⟨⟩⟩ := bind_ite_eq_some stepped
    exact ⟨linked.step_insert read created, fun kept _ => kept.step_insert read linked created⟩
  | displace held =>
    obtain ⟨request, read, stepped⟩ := Option.bind_eq_some_iff.mp stepped
    split at stepped
    · rename_i displacing
      refine ⟨linked.step_displace read displacing stepped, fun kept _ => ?_⟩
      have none := (kept.numbered held request read).2
      rw [displacing] at none
      cases none
    · cases stepped
  | publish held =>
    obtain ⟨request, read, inserted, ⟨⟩⟩ := bind_ite_eq_some stepped
    exact ⟨linked.step_publish read inserted, fun kept _ => kept.step_publish read inserted⟩
  | poll held =>
    obtain ⟨request, read, waiting, stepped⟩ := bind_ite_eq_some stepped
    exact ⟨linked.step_poll read waiting stepped, fun kept _ => kept.step_poll read linked stepped⟩
  | dropReceiver held =>
    obtain ⟨request, read, waiting, ⟨⟩⟩ := bind_ite_eq_some stepped
    exact ⟨linked.step_dropReceiver read waiting, fun kept => kept.step_dropReceiver read⟩
  | lockGuard held =>
    obtain ⟨request, read, stepped⟩ := Option.bind_eq_some_iff.mp stepped
    split at stepped
    · rename_i leaving
      exact ⟨linked.step_lockGuard read leaving stepped,
        fun kept _ => kept.step_lockGuard read leaving stepped⟩
    · cases stepped
  | cancel held =>
    obtain ⟨request, read, stepped⟩ := Option.bind_eq_some_iff.mp stepped
    split at stepped
    · rename_i retiring
      cases stepped
      exact ⟨linked.step_cancel read retiring, fun kept _ => kept.step_cancel read linked retiring⟩
    · cases stepped
  | resolve requestId decision =>
    cases stepped
    exact ⟨linked.step_resolve requestId decision, fun kept _ =>
      kept.step_resolve requestId decision⟩
  | claim index =>
    obtain ⟨call, readCall, started, ⟨⟩⟩ := bind_ite_eq_some stepped
    exact ⟨linked.step_claim readCall started,
      fun kept _ => kept.step_claim readCall linked started⟩
  | lock index =>
    obtain ⟨call, held, request, readCall, read, -, claimed, stepped⟩ := stepCall_ite stepped
    exact ⟨linked.step_lock readCall read claimed stepped,
      fun kept _ => kept.step_lock readCall read claimed stepped⟩
  | check index =>
    obtain ⟨call, held, request, readCall, read, holds, locked, ⟨⟩⟩ := stepCall_ite stepped
    exact ⟨linked.step_check readCall read holds locked,
      fun kept _ => kept.step_check readCall read linked holds locked⟩
  | remember index =>
    obtain ⟨call, held, request, readCall, -, -, checked, stepped⟩ := stepCall_ite stepped
    obtain ⟨scope, -, rfl⟩ := Option.map_eq_some_iff.mp stepped
    exact ⟨linked.step_remember readCall checked, fun kept _ => kept.step_remember readCall checked⟩
  | restore index =>
    obtain ⟨call, held, request, readCall, read, holds, stepped⟩ := stepCall_eq_some stepped
    split at stepped
    · rename_i other error refused
      have sameHeld := holds
      rw [refused] at sameHeld
      cases sameHeld
      cases stepped
      exact ⟨linked.step_restore readCall read holds,
        fun kept _ => kept.step_restore readCall read linked holds refused⟩
    · cases stepped
  | announce index =>
    obtain ⟨call, held, request, readCall, -, -, remembered, ⟨⟩⟩ := stepCall_ite stepped
    exact ⟨linked.step_announce readCall remembered,
      fun kept _ => kept.step_announce readCall remembered⟩
  | send index =>
    obtain ⟨call, held, request, readCall, read, holds, announced, ⟨⟩⟩ := stepCall_ite stepped
    exact ⟨linked.step_send readCall read holds,
      fun kept _ => kept.step_send readCall read announced⟩
  | outside durable =>
    cases stepped
    exact ⟨linked.of_same rfl rfl rfl, fun kept _ => kept.of_same rfl rfl rfl⟩

theorem linked_of_reachable {handle : SessionPermissionHandle} {durable : σ}
    (reachable : Reachable (step store) (.new handle durable) session) :
    session.Linked := by
  refine reachable.invariant (fun _ _ _ linked stepped => ?_) (.new handle durable)
  have both : _ ∧ (Kept [] _ → _) := linked.step stepped
  exact both.1

/-- Both invariants, for runs of allowed steps. -/
structure Orderly (past : List Nat) (session : Permissions σ) : Prop where
  linked : session.Linked
  kept : session.Kept past

theorem Orderly.new (handle : SessionPermissionHandle) (durable : σ) :
    (Permissions.new handle durable).Orderly [] :=
  ⟨.new handle durable, .new handle durable⟩

section Allowed

variable [DecidableEq σ]

theorem undisturbed_of_allows {action : Action σ} (allowed : session.allows store action) :
    session.undisturbed action := by
  cases action with
  | remember index => rfl
  | _ => exact allowed

theorem Orderly.reach (orderly : session.Orderly past)
    (reachable : Reachable (guarded (step store) (allows store)) session next) :
    next.Orderly past := by
  refine reachable.invariant ?_ orderly
  intro before action after orderly stepped
  obtain ⟨allowed, stepped⟩ := guarded_eq_some_iff.mp stepped
  obtain ⟨linked, kept⟩ := orderly.linked.step stepped
  exact ⟨linked, kept orderly.kept (undisturbed_of_allows allowed)⟩

/-- A step of a call leaves the rules and the events alone, or the call has remembered its rule
after it. -/
theorem clean_or_remembered {action : Action σ} (allowed : session.allows store action)
    (stepped : session.step store action = some next) (isCall : action.call? = some index) :
    (next.handle = session.handle ∧ next.durable = session.durable ∧
        next.resolvedEvents = session.resolvedEvents) ∨
      ∃ call, next.calls[index]? = some call ∧ call.phase.hasRemembered := by
  cases action with
  | claim other | lock other | check other | restore other | send other =>
    left
    simp only [step, stepCall, claim, lock, check, restore, send, setRequest, setPending,
      setPhase, Option.bind_eq_bind, Option.bind_eq_some_iff] at stepped
    grind
  | remember index =>
    cases isCall
    rw [allows, stepped, Option.all_some] at allowed
    obtain ⟨call, held, request, readCall, -, -, checked, stepped⟩ := stepCall_ite stepped
    obtain ⟨scope, -, rfl⟩ := Option.map_eq_some_iff.mp stepped
    have isLast (phase : Phase) : (session.setPhase index call phase).calls[index]? =
        some { call with phase } := by
      rw [calls_setPhase readCall, if_pos rfl]
    cases result : (session.handle.rememberRule store (call.rule request scope)
        session.durable).1 with
    | ok done =>
      refine .inr ⟨{ call with phase := .remembered held }, ?_, rfl⟩
      simp only [remember, result]
      exact isLast _
    | error error =>
      have refused : (session.remember store index call held request scope).calls[index]? =
          some { call with phase := .refused held error } := by
        simp only [remember, result]
        exact isLast _
      rw [refused] at allowed
      exact .inl ⟨SessionPermissionHandle.handle_of_refused result,
        by simpa [Phase.isRefused] using allowed, rfl⟩
  | announce index =>
    obtain ⟨call, held, request, readCall, -, -, remembered, ⟨⟩⟩ := stepCall_ite stepped
    cases isCall
    refine .inr ⟨{ call with phase := .announced held }, ?_, rfl⟩
    rw [announce, calls_setPhase readCall, if_pos rfl]
  | _ => cases isCall

end Allowed

/-! ## What resolvers are told -/

/-- The steps of one more resolver that asks for no rule. -/
def resolution (session : Permissions σ) (requestId : String) (decision : PermissionDecision) :
    List (Action σ) :=
  let index := session.calls.length
  [.resolve requestId decision, .claim index, .lock index, .check index, .announce index,
    .send index]

/-- One more resolver that runs now, whatever it decides, resolves the request. -/
def Resolvable (store : PermissionRuleStore σ RuntimeError) (session : Permissions σ)
    (held : Nat) (requestId : String) : Prop :=
  ∀ decision : PermissionDecision, decision.rememberAs = none →
    ∃ final call, run (step store) session (session.resolution requestId decision) =
      some final ∧ final.calls[session.calls.length]? = some call ∧ call.phase = .resolved held

theorem resolvable_of_stored (read : session.requests[held]? = some request)
    (stored : session.pending request.requestId = some held) (active : request.active)
    (listens : request.waiter.listens) (free : request.holder = none) :
    session.Resolvable store held request.requestId := by
  intro decision forgets
  have readSet (new : Request) : (session.requests.set held new)[held]? = some new :=
    getElem?_set_self (List.getElem?_eq_some_iff.mp read).1
  simp [run, step, resolution, stepCall, claim, lock, check, announce, send, setRequest,
    setPhase, setPending, Phase.holds, readSet, forgets, stored, read, active, listens, free]

/-- Of the calls that returned success, no two resolved one request. -/
def ResolvedOnce (session : Permissions σ) : Prop :=
  ∀ (first second : Nat) (firstCall secondCall : Call) (held : Nat),
    session.calls[first]? = some firstCall → session.calls[second]? = some secondCall →
      firstCall.phase = .resolved held → secondCall.phase = .resolved held → first = second

/-- A call that returned success resolved the request of its id: the waiting call has had no
other answer, and if it still waits, it reads this one next. -/
def Delivered (store : PermissionRuleStore σ RuntimeError) (session : Permissions σ) : Prop :=
  ∀ (index : Nat) (call : Call) (held : Nat), session.calls[index]? = some call →
    call.phase = .resolved held →
      ∃ request, session.requests[held]? = some request ∧ request.requestId = call.requestId ∧
        (∀ answer, request.waiter.answer = some answer → answer = call.decision) ∧
        (request.waiter = .waiting → ∃ next changed, session.step store (.poll held) = some next ∧
          next.requests[held]? = some changed ∧ changed.waiter.answer = some call.decision)

/-- No step that the call made between the two states changed the rules of the session or of
the store, or sent an event. -/
def LeavesNothing (step : Permissions σ → Action σ → Option (Permissions σ))
    (start session : Permissions σ) (index : Nat) : Prop :=
  ∀ before action after, Reachable step start before → step before action = some after →
    Reachable step after session → action.call? = some index →
      after.handle = before.handle ∧ after.durable = before.durable ∧
        after.resolvedEvents = before.resolvedEvents

/-- A call that returned an error remembered no rule and sent no event.  While the waiting call
of its request is there, the request can be resolved at once, or another call has it in hand or
has resolved it. -/
def FailsClean [DecidableEq σ] (store : PermissionRuleStore σ RuntimeError)
    (start session : Permissions σ) : Prop :=
  ∀ (index : Nat) (call : Call) (error : RuntimeError), session.calls[index]? = some call →
    call.phase = .failed error →
      LeavesNothing (guarded (step store) (allows store)) start session index ∧
      ∀ (held : Nat) (request : Request), session.requests[held]? = some request →
        request.requestId = call.requestId → request.waiter ≠ .created →
        request.waiter.listens →
          session.Resolvable store held call.requestId ∨
            ∃ (other : Nat) (otherCall : Call), session.calls[other]? = some otherCall ∧
              (otherCall.phase.holds = some held ∨ otherCall.phase = .resolved held)

theorem Linked.sent (linked : session.Linked) (readCall : session.calls[index]? = some call)
    (resolved : call.phase = .resolved held) :
    ∃ request, session.requests[held]? = some request ∧
      request.sender = .sent index call.decision ∧ request.requestId = call.requestId := by
  have isDone : session.content (.done index) = some held := by
    rw [content_done readCall, resolved]
    rfl
  obtain ⟨request, read, isPlace⟩ := Option.bind_eq_some_iff.mp ((linked.placed _ _).mp isDone)
  have named := linked.agrees.named index call held readCall (.inr (by rw [resolved]; rfl))
  rw [requestIdAt, read, Option.map_some, Option.some.injEq] at named
  refine ⟨request, read, ?_, named⟩
  obtain ⟨decision, isSent⟩ := Request.place_eq_done_iff.mp isPlace
  rw [isSent, linked.agrees.decided held request index decision read isSent call readCall]

/-- The sender of a request was used by a call that returned success. -/
theorem Linked.resolved_of_sent (linked : session.Linked)
    (read : session.requests[held]? = some request) {decision : PermissionDecision}
    (sent : request.sender = .sent index decision) :
    ∃ call, session.calls[index]? = some call ∧ call.phase = .resolved held := by
  have isPlace := place_of_sender read
  rw [Request.place, sent] at isPlace
  obtain ⟨call, readCall, isResolved⟩ :=
    Option.bind_eq_some_iff.mp ((linked.placed (.done index) held).mpr isPlace)
  refine ⟨call, readCall, ?_⟩
  cases isPhase : call.phase <;> rw [isPhase] at isResolved <;>
    first | (cases isResolved; rfl) | cases isResolved

theorem Linked.resolvedOnce (linked : session.Linked) : session.ResolvedOnce := by
  intro first second firstCall secondCall held readFirst readSecond resolvedFirst resolvedSecond
  obtain ⟨request, read, sentFirst, -⟩ := linked.sent readFirst resolvedFirst
  obtain ⟨again, readAgain, sentSecond, -⟩ := linked.sent readSecond resolvedSecond
  cases read.symm.trans readAgain
  rw [sentFirst] at sentSecond
  exact (Sender.sent.inj sentSecond).1

theorem Linked.delivered (linked : session.Linked) : session.Delivered store := by
  intro index call held readCall resolved
  obtain ⟨request, read, sent, sameId⟩ := linked.sent readCall resolved
  refine ⟨request, read, sameId, ?_, ?_⟩
  · intro answer answered
    rcases (linked.agrees.fits held request read).answered answer answered with
      ⟨other, isSent⟩ | ⟨dropped, -⟩
    · rw [sent] at isSent
      exact (Sender.sent.inj isSent).2.symm
    · rw [sent] at dropped
      cases dropped
  · intro waiting
    refine ⟨session.setRequest held { request with waiter := .leaving (some call.decision) },
      { request with waiter := .leaving (some call.decision) }, ?_, ?_, rfl⟩
    · rw [Permissions.step, stepWaiter, read, Option.bind_some, if_pos waiting, poll, sent]
    · rw [requests_setRequest read, if_pos rfl]

theorem Orderly.failsClean [DecidableEq σ] {start : Permissions σ} (orderly : start.Orderly [])
    (reachable : Reachable (guarded (step store) (allows store)) start session) :
    FailsClean store start session := by
  intro index call error readCall failed
  constructor
  · intro before action after reached stepped rest isCall
    obtain ⟨allowed, stepped⟩ := guarded_eq_some_iff.mp stepped
    refine (clean_or_remembered allowed stepped isCall).resolve_right fun hasRemembered => ?_
    -- From there on the call stays past its rule, and so does not fail.
    obtain ⟨linked, kept⟩ := (orderly.reach reached).linked.step stepped
    have marked : after.Orderly [index] := by
      refine ⟨linked, { kept (orderly.reach reached).kept (undisturbed_of_allows allowed) with
        rules := ?_ }⟩
      simpa using hasRemembered
    obtain ⟨same, readSame, has⟩ := (marked.reach rest).kept.rules index mem_cons_self
    cases readCall.symm.trans readSame
    rw [failed] at has
    cases has
  · obtain ⟨linked, kept⟩ := orderly.reach reachable
    intro held request read sameId entered listens
    obtain ⟨alive, unguarded⟩ := kept.alive held request read listens
    have isPlace := place_of_sender read
    rcases alive with ⟨other, decision, sent⟩ | ⟨active, ⟨-, created⟩ | stored | ⟨other, taken⟩⟩
    · -- Another call has resolved it.
      obtain ⟨otherCall, readOther, isResolved⟩ := linked.resolved_of_sent read sent
      exact .inr ⟨other, otherCall, readOther, .inr isResolved⟩
    · exact absurd created entered
    · -- It is in the table, and whoever had the lock has let it go.
      rw [Request.place, stored] at isPlace
      have isStored : session.pending request.requestId = some held :=
        (linked.placed (.table request.requestId) held).mpr isPlace
      have free : request.holder = none := by
        cases isHolder : request.holder with
        | none => rfl
        | some holder =>
          cases holder with
          | guard => exact absurd isHolder unguarded
          | resolver other =>
            obtain ⟨otherCall, readOther, locks⟩ := kept.locked held request other read isHolder
            have taken := (linked.taken readOther read (Phase.holds_of_locks locks)).1
            rw [stored] at taken
            cases taken
      rw [← sameId]
      exact .inl (resolvable_of_stored read isStored active listens free)
    · -- Another call has it in hand.
      rw [Request.place, taken] at isPlace
      obtain ⟨otherCall, readOther, holds⟩ :=
        Option.bind_eq_some_iff.mp ((linked.placed (.call other) held).mpr isPlace)
      exact .inr ⟨other, otherCall, readOther, .inl holds⟩

/-- In every interleaving a request is resolved at most once, with the decision its waiting call
is told.  If no receiver is dropped between the check and the send of a resolver, generations do
not start over and the store keeps no rule that it refuses, a resolver that returns an error has
left nothing behind and the request can still be resolved. -/
theorem resolutions_of_allowed [DecidableEq σ] (store : PermissionRuleStore σ RuntimeError)
    (handle : SessionPermissionHandle) (durable : σ) :
    (∀ session, Reachable (step store) (.new handle durable) session →
      session.ResolvedOnce ∧ session.Delivered store) ∧
    (∀ session, Reachable (guarded (step store) (allows store)) (.new handle durable) session →
      FailsClean store (.new handle durable) session) := by
  constructor
  · intro session reachable
    have linked := linked_of_reachable reachable
    exact ⟨linked.resolvedOnce, linked.delivered⟩
  · intro session reachable
    exact (Orderly.new handle durable).failsClean reachable

/-- A store that keeps every rule until the medium is full. -/
def rowStore (room : Nat) : PermissionRuleStore (List RememberedRule) RuntimeError where
  upsertRule _ rule rows :=
    if rows.length < room then (.ok (), rows ++ [rule]) else (.error (.store "disk full"), rows)
  loadApplicableRules _ rows := .ok rows
  revokeRule _ _ rows := (.ok false, rows)
  clearScope _ _ rows := (.ok 0, rows)

def allowForSession : PermissionDecision :=
  ⟨true, some .session, none⟩

/-- One tool call asks, and one resolver goes as far as its check. -/
def askAndCheck : List (Action (List RememberedRule)) :=
  [.request "call-1" "shell", .insert 0, .publish 0,
    .resolve "perm-call-1-0000000000000000" allowForSession, .claim 0, .lock 0, .check 0]

/-- The waiting call is cancelled after the check: the resolver is told that there is no such
request, with its rule remembered and its event sent. -/
theorem remembered_after_cancelled_wait :
    ∃ session, Reachable (step (rowStore 1)) (.new (.new ⟨"agent", none⟩) []) session ∧
      (∃ call error, session.calls[0]? = some call ∧ call.phase = .failed error) ∧
      session.durable = [⟨⟨"shell", none⟩, true, .session, none⟩] ∧
      session.resolvedEvents ≠ [] := by
  have ran : (run (step (rowStore 1)) (.new (.new ⟨"agent", none⟩) [])
      (askAndCheck ++ [.dropReceiver 0, .remember 0, .announce 0, .send 0])).any fun session =>
        decide (session.calls[0]?.map Call.phase =
          some (.failed (noPending "perm-call-1-0000000000000000")) ∧
          session.durable = [⟨⟨"shell", none⟩, true, .session, none⟩] ∧
          session.resolvedEvents ≠ []) := by
    decide +kernel
  obtain ⟨session, reachable, tested⟩ := exists_reachable_of_any ran
  obtain ⟨failed, left⟩ := of_decide_eq_true tested
  obtain ⟨call, readCall, isFailed⟩ := Option.map_eq_some_iff.mp failed
  exact ⟨session, reachable, ⟨call, _, readCall, isFailed⟩, left⟩

/-- A rule that could not be kept leaves the request resolvable. -/
theorem resolvable_after_full_disk :
    ∃ session, Reachable (guarded (step (rowStore 0)) (allows (rowStore 0)))
        (.new (.new ⟨"agent", none⟩) []) session ∧ session.durable = [] ∧
      (∃ call error, session.calls[0]? = some call ∧ call.phase = .failed error) ∧
      FailsClean (rowStore 0) (.new (.new ⟨"agent", none⟩) []) session := by
  have ran : (run (guarded (step (rowStore 0)) (allows (rowStore 0)))
      (.new (.new ⟨"agent", none⟩) []) (askAndCheck ++ [.remember 0, .restore 0])).any
        fun session => decide (session.durable = [] ∧
          session.calls[0]?.map Call.phase = some (.failed (.store "disk full"))) := by
    decide +kernel
  obtain ⟨session, reachable, tested⟩ := exists_reachable_of_any ran
  obtain ⟨durable, failed⟩ := of_decide_eq_true tested
  obtain ⟨call, readCall, isFailed⟩ := Option.map_eq_some_iff.mp failed
  exact ⟨session, reachable, durable, ⟨call, _, readCall, isFailed⟩,
    (resolutions_of_allowed (rowStore 0) (.new ⟨"agent", none⟩) []).2 session reachable⟩

/-- In every interleaving a tool call is told the denial of a request that was dropped, or the
decision of a resolver that returned success for this very request. -/
theorem answer_is_from_resolver {handle : SessionPermissionHandle} {durable : σ}
    (reachable : Reachable (step store) (.new handle durable) session)
    (read : session.requests[held]? = some request) {decision : PermissionDecision}
    (answered : request.waiter.answer = some decision) :
    decision = .deny ∨ ∃ (index : Nat) (call : Call), session.calls[index]? = some call ∧
      call.phase = .resolved held ∧ call.requestId = request.requestId ∧
        call.decision = decision := by
  have linked := linked_of_reachable reachable
  rcases (linked.agrees.fits held request read).answered decision answered with
    ⟨index, sent⟩ | ⟨-, denied⟩
  · obtain ⟨call, readCall, resolved⟩ := linked.resolved_of_sent read sent
    obtain ⟨same, readSame, sentSame, sameId⟩ := linked.sent readCall resolved
    cases read.symm.trans readSame
    rw [sent] at sentSame
    exact .inr ⟨index, call, readCall, resolved, sameId.symm, (Sender.sent.inj sentSame).2.symm⟩
  · exact .inl denied

/-- A resolver allows a tool for the session. -/
theorem allowance_is_from_resolver :
    ∃ (session : Permissions (List RememberedRule)) (request : Request),
      Reachable (step (rowStore 1)) (.new (.new ⟨"agent", none⟩) []) session ∧
        session.requests[0]? = some request ∧ request.waiter.answer = some allowForSession ∧
        ∃ (index : Nat) (call : Call), session.calls[index]? = some call ∧
          call.phase = .resolved 0 ∧ call.decision = allowForSession := by
  have ran : (run (step (rowStore 1)) (.new (.new ⟨"agent", none⟩) [])
      (askAndCheck ++ [.remember 0, .announce 0, .send 0, .poll 0])).any fun session =>
        session.requests[0]?.any fun request =>
          decide (request.waiter.answer = some allowForSession) := by
    decide +kernel
  obtain ⟨session, reachable, tested⟩ := exists_reachable_of_any ran
  obtain ⟨request, read, told⟩ := (Option.any_eq_true _ _).mp tested
  have answered := of_decide_eq_true told
  rcases answer_is_from_resolver reachable read answered with
    denied | ⟨index, call, readCall, resolved, -, decided⟩
  · cases denied
  · exact ⟨session, request, reachable, read, answered, index, call, readCall, resolved, decided⟩

end Permissions

end Mentra.Permission
