import Mentra.Mcp.StreamableHttp.Answers

/-!
# Forgotten sessions

When the server forgets the session, every call that named it is refused.  A refused call
replaces the session and is sent again, provided that the calls do not get into each other's
way: whether a refusal means an expired session is decided by the session the client has
then, which another call may just have dropped; and a call may drop a session that another
one established.
-/

namespace Mentra.Mcp.StreamableHttp

open Foundation List Transition

/-! ## What the log has to show -/

/-- A session was established, and the call was sent in it. -/
def SentAgain (number : Nat) (log : List (Nat × CallEvent)) : Prop :=
  ∃ owner sessionId, [(owner, .established sessionId), (number, .sent (some sessionId))].Sublist log

variable (log : List (Nat × CallEvent))

/-- Between the refusal of a forgotten session and its end, a call was sent again in a
session that was established in between. -/
def RefusalsRenewed : Prop :=
  ∀ before number sessionId between result after,
    log = before ++ (number, .refused sessionId) :: between ++ (number, .ended result) :: after →
      SentAgain number between

/-- No request to replace a session names one. -/
def ReplacementsBare : Prop :=
  ∀ number sessionId, (number, .initializing sessionId) ∈ log → sessionId = none

/-! ## Calls that do not get into each other's way -/

/-- The call is replacing the session, until its request is sent again. -/
def CallPhase.recovers : CallPhase → Bool
  | .exchanging .handshake _ | .exchanging .notify _ | .exchanging (.call true) .sending => true
  | _ => false

/-- The call dropped the session, and has no other yet. -/
def CallPhase.replaces : CallPhase → Bool
  | .exchanging .handshake (.reading _) => false
  | .exchanging .handshake _ => true
  | _ => false

def CallPhase.isOver : CallPhase → Bool
  | .finished _ | .abandoned => true
  | _ => false

def CallEvent.isRefused : CallEvent → Bool
  | .refused _ => true
  | _ => false

/-- A call is refused for its session only the first time it is sent, and not while the session
is being replaced; the session is dropped only while nobody replaces it; and a call that
replaces it gets an id and is not stopped. -/
def carefulMove (client : Client) (phase : CallPhase) (move : Move) : Bool :=
  match phase, move.phase with
  | .exchanging (.call again) (.waiting _), .exchanging _ (.refusing _) =>
    !move.events.any CallEvent.isRefused ||
      (!again && client.calls.all fun call => !call.phase.replaces)
  | .exchanging (.call false) (.refusing .sessionExpired), .finished _ => false
  | .expired, .exchanging _ _ => client.calls.all fun call => !call.phase.recovers
  | .exchanging .handshake (.waiting _), .exchanging _ (.reading _) => move.session.id.isSome
  | phase, next => !(phase.recovers && next.isOver)

def careful (limits : McpStreamableHttpLimits) (readers : Readers) (client : Client) :
    Action → Bool
  | .act number action =>
    match client.calls[number]? with
    | none => true
    | some call =>
      match call.move limits readers client.session client.forgotten action with
      | none => true
      | some move => carefulMove client call.phase move
  | .shutdown => client.calls.all fun call => call.phase.isOver
  | .call | .forget _ => true

/-! ## Logs that grow -/

section Logs

variable {number : Nat} {log events : List (Nat × CallEvent)}

/-- A refusal that is not new was there before. -/
theorem split_of_append {before after : List (Nat × CallEvent)} {entry : Nat × CallEvent}
    (grown : log ++ events = before ++ entry :: after) (old : entry ∉ events) :
    ∃ between, log = before ++ entry :: between ∧ after = between ++ events := by
  rcases append_eq_append_iff.mp grown with ⟨middle, -, rest⟩ | ⟨middle, first, rest⟩
  · exact absurd (rest ▸ mem_append_right _ mem_cons_self) old
  · cases middle with
    | nil => exact absurd (rest ▸ mem_cons_self : entry ∈ [] ++ events) old
    | cons head between =>
      obtain ⟨rfl, rfl⟩ := cons_eq_cons.mp rest
      exact ⟨between, first, rfl⟩

/-- No request of the call was refused because of its session. -/
def Unrefused (number : Nat) (log : List (Nat × CallEvent)) : Prop :=
  ∀ sessionId, (number, .refused sessionId) ∉ log

/-- A session was established since the call was refused. -/
def Reestablished (number : Nat) (sessionId : SessionId) (log : List (Nat × CallEvent)) : Prop :=
  ∀ before refused after, log = before ++ (number, .refused refused) :: after →
    ∃ owner, (owner, .established sessionId) ∈ after

/-- The call was sent again since it was refused. -/
def Renewed (number : Nat) (log : List (Nat × CallEvent)) : Prop :=
  ∀ before refused after, log = before ++ (number, .refused refused) :: after →
    SentAgain number after

theorem Unrefused.append (unrefused : Unrefused number log) (quiet : Unrefused number events) :
    Unrefused number (log ++ events) := by
  intro sessionId mem
  exact (mem_append.mp mem).elim (unrefused sessionId) (quiet sessionId)

theorem Reestablished.append {sessionId : SessionId}
    (established : Reestablished number sessionId log) (quiet : Unrefused number events) :
    Reestablished number sessionId (log ++ events) := by
  intro before refused after grown
  obtain ⟨between, split, rfl⟩ := split_of_append grown (quiet refused)
  obtain ⟨owner, mem⟩ := established before refused between split
  exact ⟨owner, mem_append_left _ mem⟩

theorem Renewed.append (renewed : Renewed number log) (quiet : Unrefused number events) :
    Renewed number (log ++ events) := by
  intro before refused after grown
  obtain ⟨between, split, rfl⟩ := split_of_append grown (quiet refused)
  obtain ⟨owner, sessionId, again⟩ := renewed before refused between split
  exact ⟨owner, sessionId, again.trans (sublist_append_left between events)⟩

theorem Unrefused.renewed (unrefused : Unrefused number log) : Renewed number log := by
  rintro before refused after rfl
  exact absurd (mem_append_right _ mem_cons_self) (unrefused refused)

/-- A session that is established now was established since every refusal before. -/
theorem reestablished_append (owner : Nat) (sessionId : SessionId) :
    Reestablished number sessionId (log ++ [(owner, .established sessionId)]) := by
  intro before refused after grown
  obtain ⟨between, -, rfl⟩ := split_of_append grown (by simp)
  exact ⟨owner, by simp⟩

/-- A call is sent in a session established since its refusal. -/
theorem Reestablished.sent {sessionId : SessionId}
    (established : Reestablished number sessionId log) :
    Renewed number (log ++ [(number, .sent (some sessionId))]) := by
  intro before refused after grown
  obtain ⟨between, split, rfl⟩ := split_of_append grown (by simp)
  obtain ⟨owner, mem⟩ := established before refused between split
  refine ⟨owner, sessionId, ?_⟩
  exact (singleton_sublist.mpr mem).append (List.Sublist.refl _)

theorem RefusalsRenewed.append (renewed : RefusalsRenewed log)
    (quiet : ∀ entry ∈ events, ∀ result, entry.2 ≠ .ended result) :
    RefusalsRenewed (log ++ events) := by
  intro before number sessionId between result after grown
  obtain ⟨rest, split, -⟩ := split_of_append grown fun mem => quiet _ mem result rfl
  exact renewed before number sessionId between result rest split

/-- A call may end once it was sent again since its refusal. -/
theorem RefusalsRenewed.ended (renewed : RefusalsRenewed log) (again : Renewed number log)
    (result : CallResult) : RefusalsRenewed (log ++ [(number, .ended result)]) := by
  intro before other sessionId between otherResult after grown
  by_cases last : after = []
  · subst last
    obtain ⟨split, same⟩ := append_inj' grown rfl
    cases same
    exact again before sessionId between split
  · obtain ⟨front, back, rfl⟩ := (eq_nil_or_concat after).resolve_left last
    refine renewed before other sessionId between otherResult front ?_
    rw [concat_eq_append, ← cons_append, ← append_assoc] at grown
    exact (append_inj' grown rfl).1

end Logs

/-! ## One call -/

/-- Where a call in a phase stands with its refusal. -/
def Standing (session : Session) (number : Nat) (log : List (Nat × CallEvent)) :
    CallPhase → Prop
  | .exchanging (.call false) (.refusing error) =>
    error = .sessionExpired ∨ Unrefused number log
  | .exchanging (.call false) _ => Unrefused number log
  | .exchanging (.call true) .sending | .exchanging .handshake (.reading _)
  | .exchanging .notify _ =>
    ∃ sessionId, session.id = some sessionId ∧ Reestablished number sessionId log
  | .exchanging (.call true) _ => Renewed number log
  | _ => True

section Call

variable {session other : Session} {forgotten : List SessionId} {client : Client}
  {number : Nat} {log events : List (Nat × CallEvent)} {phase : CallPhase} {move : Move}

theorem Standing.append (standing : Standing session number log phase)
    (sameId : phase.recovers → other.id = session.id) (quiet : Unrefused number events) :
    Standing other number (log ++ events) phase := by
  unfold Standing at standing ⊢
  split at standing
  · exact standing.imp_right fun unrefused => unrefused.append quiet
  · exact standing.append quiet
  · obtain ⟨sessionId, held, established⟩ := standing
    exact ⟨sessionId, (sameId rfl).trans held, established.append quiet⟩
  · obtain ⟨sessionId, held, established⟩ := standing
    exact ⟨sessionId, (sameId rfl).trans held, established.append quiet⟩
  · obtain ⟨sessionId, held, established⟩ := standing
    exact ⟨sessionId, (sameId rfl).trans held, established.append quiet⟩
  · exact standing.append quiet
  · trivial

/-- A step that refuses nothing and keeps the session, between two phases in which a call
stands alike. -/
theorem Standing.quietly {next : CallPhase} {added : List CallEvent}
    (standing : Standing session number log next) (sameId : other.id = session.id)
    (quiet : ¬ added.any CallEvent.isRefused) :
    Standing other number (log ++ added.map (number, ·)) next := by
  refine standing.append (fun _ => sameId) fun sessionId mem => quiet ?_
  exact any_eq_true.mpr ⟨_, (mem_map_of_injective (Prod.mk_right_injective number)).mp mem, rfl⟩

theorem Standing.moves (standing : Standing session number log phase)
    (moves : Moves session forgotten phase move) (allowed : carefulMove client phase move)
    (held : (∀ call ∈ client.calls, ¬ call.phase.replaces) → ∀ again sessionId,
      phase = .exchanging (.call again) (.waiting (some sessionId)) → session.id.isSome) :
    Standing move.session number (log ++ move.events.map (number, ·)) move.phase := by
  cases moves with
  | sent again =>
    cases again with
    | false =>
      refine .quietly ?_ rfl (by simp [CallEvent.isRefused])
      exact standing
    | true =>
      obtain ⟨sessionId, current, established⟩ := standing
      rw [current]
      exact established.sent
  | notificationSent | acknowledged | notified =>
    refine .quietly ?_ rfl (by simp)
    exact standing
  | refused expired =>
    obtain ⟨first, alone⟩ : _ = false ∧ ∀ call ∈ client.calls, ¬ call.phase.replaces := by
      simpa [carefulMove, CallEvent.isRefused] using allowed
    subst first
    exact .inl (expired (held alone false _ rfl))
  | declined leg sessionId error =>
    refine .quietly ?_ rfl (by simp)
    cases leg with
    | call again =>
      cases again with
      | false => exact .inr standing
      | true => exact standing
    | handshake => trivial
    | notify => exact standing
  | accepted again =>
    refine .quietly ?_ rfl (by simp [CallEvent.isRefused])
    cases again with
    | false | true => exact standing
  | adopted sessionId response =>
    obtain ⟨established, usable⟩ : ∃ established, usableSessionId response = some established :=
      Option.isSome_iff_exists.mp allowed
    refine ⟨established, usable, ?_⟩
    rw [usable]
    exact reestablished_append number established
  | greeted response sameId =>
    refine .quietly ?_ sameId (by simp)
    exact standing
  | handshakeSent | expired | cleared | returned | failed | abandoned => trivial

/-- A call that may end was sent again since its refusal. -/
theorem Standing.renewed {leg : Leg} {stage : Stage}
    (standing : Standing session number log (.exchanging leg stage))
    (ends : move.phase matches .finished _)
    (allowed : carefulMove client (.exchanging leg stage) move) : Renewed number log := by
  obtain ⟨next, nextSession, nextEvents⟩ := move
  cases next with
  | exchanging | expired | abandoned => cases ends
  | finished result =>
    cases leg with
    | call again =>
      cases again with
      | false =>
        cases stage with
        | sending | waiting | reading => exact Unrefused.renewed standing
        | refusing error =>
          rcases standing with rfl | unrefused
          · cases allowed
          · exact unrefused.renewed
      | true =>
        cases stage with
        | sending => cases allowed
        | waiting | refusing | reading => exact standing
    | handshake | notify => cases stage <;> cases allowed

theorem RefusalsRenewed.moves (renewed : RefusalsRenewed log)
    (standing : Standing session number log phase) (moves : Moves session forgotten phase move)
    (allowed : carefulMove client phase move) :
    RefusalsRenewed (log ++ move.events.map (number, ·)) := by
  cases moves with
  | returned again response value =>
    have again := standing.renewed rfl allowed
    have shown : RefusalsRenewed (log ++ [(number, .returned value)]) := renewed.append (by simp)
    have ended := shown.ended (again.append (by simp [Unrefused])) (resultOf value)
    rwa [append_assoc] at ended
  | failed answered => exact renewed.ended (standing.renewed rfl allowed) _
  | adopted sessionId response =>
    refine renewed.append ?_
    intro entry mem result
    obtain ⟨event, eventMem, rfl⟩ := mem_map.mp mem
    obtain ⟨established, -, rfl⟩ := mem_map.mp eventMem
    exact nofun
  | sent | handshakeSent | notificationSent | refused | declined | accepted | acknowledged
  | expired | cleared | greeted | notified | abandoned => exact renewed.append (by simp)

/-- A call sends no session id with a handshake while there is none. -/
theorem ReplacementsBare.moves (bare : ReplacementsBare log)
    (moves : Moves session forgotten phase move)
    (vacant : phase = .exchanging .handshake .sending → session.id = none) :
    ReplacementsBare (log ++ move.events.map (number, ·)) := by
  intro other sessionId mem
  rcases mem_append.mp mem with earlier | added
  · exact bare other sessionId earlier
  · obtain ⟨event, eventMem, equal⟩ := mem_map.mp added
    cases equal
    cases moves with
    | handshakeSent =>
      have same : sessionId = session.id := by simpa using eventMem
      exact same.trans (vacant rfl)
    | adopted =>
      obtain ⟨_, _, equal⟩ := mem_map.mp eventMem
      cases equal
    | _ => simp at eventMem

/-! ## Calls side by side -/

section

variable (moves : Moves session forgotten phase move)
include moves

/-- Only a call that drops the session begins to replace it. -/
theorem Moves.recovers (recovers : move.phase.recovers) :
    phase.recovers ∨ phase = .expired ∧ move.phase = .exchanging .handshake .sending := by
  cases moves with
  | handshakeSent | notificationSent | adopted | acknowledged | greeted | notified =>
    exact .inl rfl
  | cleared => exact .inr ⟨rfl, rfl⟩
  | @sent again | @refused again | @accepted again => cases again <;> cases recovers
  | declined leg =>
    cases leg with
    | call again => cases again <;> cases recovers
    | handshake | notify => exact .inl rfl
  | expired | returned | failed | abandoned => cases recovers

/-- A step keeps the id of the session, drops the session, or adopts the id of a new
one. -/
theorem Moves.session_id :
    move.session.id = session.id ∨
      phase = .expired ∧ move.phase = .exchanging .handshake .sending ∧ move.session.id = none ∨
      phase.replaces ∧ ∃ sessionId response,
        phase = .exchanging .handshake (.waiting sessionId) ∧
          move.phase = .exchanging .handshake (.reading response) := by
  cases moves with
  | cleared => exact .inr (.inl ⟨rfl, rfl, rfl⟩)
  | adopted sessionId response => exact .inr (.inr ⟨rfl, sessionId, response, rfl, rfl⟩)
  | greeted response sameId => exact .inl sameId
  | sent | handshakeSent | notificationSent | refused | declined | accepted | acknowledged
  | expired | returned | notified | failed | abandoned => exact .inl rfl

/-- A call that is about to shake hands has just dropped the session. -/
theorem Moves.vacant
    (sending : move.phase = .exchanging .handshake .sending) : move.session.id = none := by
  cases moves with
  | cleared => rfl
  | sent | handshakeSent | notificationSent | refused | declined | accepted | adopted
  | acknowledged | expired | returned | greeted | notified | failed | abandoned => cases sending

/-- A request names the session that there is. -/
theorem Moves.named {again : Bool} {sessionId : SessionId}
    (waiting : move.phase = .exchanging (.call again) (.waiting (some sessionId))) :
    move.session.id.isSome := by
  cases moves with
  | sent =>
    simp only [CallPhase.exchanging.injEq, Stage.waiting.injEq] at waiting
    exact Option.isSome_of_eq_some waiting.2
  | handshakeSent | notificationSent | refused | declined | accepted | adopted
  | acknowledged | expired | cleared | returned | greeted | notified | failed | abandoned =>
    cases waiting

end

/-- A call is not stopped while it replaces the session. -/
theorem not_isOver_of_recovers (allowed : carefulMove client phase move)
    (recovers : phase.recovers) : ¬ move.phase.isOver := by
  unfold carefulMove at allowed
  split at allowed
  · rename_i next
    rw [next]
    exact nofun
  · cases recovers
  · cases recovers
  · rename_i next
    rw [next]
    exact nofun
  · simpa [recovers] using allowed

theorem CallPhase.recovers_of_replaces (replaces : phase.replaces) : phase.recovers := by
  unfold CallPhase.replaces at replaces
  split at replaces
  · cases replaces
  · rfl
  · cases replaces

/-- A call that has dropped the session goes on until it has another. -/
theorem Moves.replaces (moves : Moves session forgotten phase move)
    (allowed : carefulMove client phase move) (replaces : phase.replaces) :
    move.phase.replaces ∨ move.session.id.isSome := by
  cases moves with
  | handshakeSent => exact .inl rfl
  | adopted => exact .inr allowed
  | declined leg =>
    cases leg with
    | handshake => exact .inl rfl
    | call | notify => cases replaces
  | failed | abandoned =>
    exact absurd rfl (not_isOver_of_recovers allowed (CallPhase.recovers_of_replaces replaces))
  | sent | notificationSent | refused | accepted | acknowledged
  | expired | cleared | returned | greeted | notified => cases replaces

end Call

/-! ## Runs -/

structure Orderly (client : Client) : Prop where
  numbered : ∀ entry ∈ client.log, entry.1 < client.calls.length
  alone : ∀ (first second : Nat) (call other : Call), client.calls[first]? = some call →
    client.calls[second]? = some other → call.phase.recovers → other.phase.recovers → first = second
  vacant : ∀ (number : Nat) (call : Call), client.calls[number]? = some call →
    call.phase = .exchanging .handshake .sending → client.session.id = none
  /-- A request that names a session can be told that it expired, unless the session is
  being replaced. -/
  held : ∀ (number : Nat) (call : Call) again sessionId, client.calls[number]? = some call →
    call.phase = .exchanging (.call again) (.waiting (some sessionId)) →
      client.session.id.isSome ∨ ∃ other ∈ client.calls, other.phase.replaces
  standing : ∀ number call, client.calls[number]? = some call →
    Standing client.session number client.log call.phase
  renewed : RefusalsRenewed client.log
  bare : ReplacementsBare client.log

namespace Orderly

variable {limits : McpStreamableHttpLimits} {readers : Readers} {client next : Client}
  {number : Nat} {call : Call} {move : Move} {requestId : Nat}

theorem connected (session : Session) (nextId : Nat) : Orderly (.connected session nextId) where
  numbered _ mem := absurd mem (by simp [Client.connected])
  alone _ _ _ _ found := absurd found (by simp [Client.connected])
  vacant _ _ found := absurd found (by simp [Client.connected])
  held _ _ _ _ found := absurd found (by simp [Client.connected])
  standing _ _ found := absurd found (by simp [Client.connected])
  renewed before _ _ _ _ _ split := absurd split (by simp [Client.connected])
  bare _ _ mem := absurd mem (by simp [Client.connected])

theorem called (orderly : Orderly client) :
    Orderly { client with calls := client.calls ++ [{}] } := by
  -- The new call is sending its request, or the call was there before.
  have lookup : ∀ (number : Nat) (call : Call),
      (client.calls ++ [({} : Call)])[number]? = some call →
      client.calls[number]? = some call ∨ client.calls.length ≤ number ∧ call = {} := by
    intro number call found
    rw [getElem?_append] at found
    split at found
    · exact .inl found
    · rename_i fresh
      obtain ⟨_, same⟩ := List.getElem?_eq_some_iff.mp found
      exact .inr ⟨Nat.le_of_not_lt fresh, by simpa using same.symm⟩
  constructor
  · intro entry mem
    have := orderly.numbered entry mem
    rw [length_append]
    omega
  · intro first second call other found otherFound recovers otherRecovers
    rcases lookup first call found with earlier | ⟨-, rfl⟩
    · rcases lookup second other otherFound with otherEarlier | ⟨-, rfl⟩
      · exact orderly.alone first second call other earlier otherEarlier recovers otherRecovers
      · cases otherRecovers
    · cases recovers
  · intro number call found phase
    rcases lookup number call found with earlier | ⟨-, rfl⟩
    · exact orderly.vacant number call earlier phase
    · cases phase
  · intro number call again sessionId found phase
    rcases lookup number call found with earlier | ⟨-, rfl⟩
    · refine (orderly.held number call again sessionId earlier phase).imp_right ?_
      rintro ⟨other, mem, replaces⟩
      exact ⟨other, mem_append_left _ mem, replaces⟩
    · cases phase
  · intro number call found
    rcases lookup number call found with earlier | ⟨fresh, rfl⟩
    · exact orderly.standing number call earlier
    · intro sessionId mem
      have := orderly.numbered _ mem
      omega
  · exact orderly.renewed
  · exact orderly.bare

theorem lookup_set {calls : List Call} {other : Nat} {found : Call}
    (after : (calls.set number { requestId, phase := move.phase })[other]? = some found) :
    other = number ∧ found.phase = move.phase ∨ other ≠ number ∧ calls[other]? = some found := by
  by_cases same : number = other
  · subst same
    obtain ⟨inRange, equal⟩ := List.getElem?_eq_some_iff.mp after
    rw [getElem_set_self] at equal
    exact .inl ⟨rfl, by rw [← equal]⟩
  · rw [getElem?_set_ne same] at after
    exact .inr ⟨Ne.symm same, after⟩

theorem held_act (found : client.calls[number]? = some call)
    (moves : Moves client.session client.forgotten call.phase move)
    (allowed : carefulMove client call.phase move)
    (held : client.session.id.isSome ∨ ∃ other ∈ client.calls, other.phase.replaces) :
    move.session.id.isSome ∨
      ∃ other ∈ client.calls.set number { requestId, phase := move.phase },
        other.phase.replaces := by
  have inRange := (List.getElem?_eq_some_iff.mp found).1
  have mem : (⟨requestId, move.phase⟩ : Call) ∈
      client.calls.set number { requestId, phase := move.phase } :=
    mem_of_getElem? (getElem?_set_self inRange)
  rcases held with present | ⟨other, otherMem, replaces⟩
  · rcases moves.session_id with same | ⟨-, sending, -⟩ | ⟨replaces, -⟩
    · exact .inl (same ▸ present)
    · exact .inr ⟨_, mem, by rw [sending]; rfl⟩
    · exact (moves.replaces allowed replaces).symm.imp_right fun still => ⟨_, mem, still⟩
  · obtain ⟨index, otherFound⟩ := mem_iff_getElem?.mp otherMem
    by_cases same : number = index
    · subst same
      rw [found] at otherFound
      cases otherFound
      exact (moves.replaces allowed replaces).symm.imp_right fun still => ⟨_, mem, still⟩
    · refine .inr ⟨other, mem_iff_getElem?.mpr ⟨index, ?_⟩, replaces⟩
      rw [getElem?_set_ne same]
      exact otherFound

theorem act (orderly : Orderly client) (found : client.calls[number]? = some call)
    (moves : Moves client.session client.forgotten call.phase move)
    (allowed : carefulMove client call.phase move) :
    Orderly { client with
      session := move.session
      calls := client.calls.set number { requestId, phase := move.phase }
      log := client.log ++ move.events.map (number, ·) } := by
  have inRange := (List.getElem?_eq_some_iff.mp found).1
  -- Nobody else replaces the session when it is dropped, and so nobody but this call does
  -- when it begins to.
  have others : ∀ other otherCall, other ≠ number → client.calls[other]? = some otherCall →
      otherCall.phase.recovers → ¬ move.phase.recovers ∧ move.session.id = client.session.id := by
    intro other otherCall different otherFound recovers
    have notRecovers : ¬ call.phase.recovers := fun thisRecovers =>
      different (orderly.alone other number otherCall call otherFound found recovers thisRecovers)
    have notDropped : ¬ (call.phase = .expired ∧ move.phase = .exchanging .handshake .sending) := by
      rintro ⟨isExpired, isSending⟩
      have alone : client.calls.all fun call => !call.phase.recovers := by
        simpa [carefulMove, isExpired, isSending] using allowed
      have := all_eq_true.mp alone otherCall (mem_of_getElem? otherFound)
      simp [recovers] at this
    refine ⟨fun begins => (moves.recovers begins).elim notRecovers notDropped, ?_⟩
    rcases moves.session_id with same | ⟨isExpired, isSending, -⟩ | ⟨replaces, -⟩
    · exact same
    · exact absurd ⟨isExpired, isSending⟩ notDropped
    · exact absurd (CallPhase.recovers_of_replaces replaces) notRecovers
  have quiet : ∀ other, other ≠ number → Unrefused other (move.events.map (number, ·)) := by
    intro other different sessionId mem
    obtain ⟨_, _, equal⟩ := mem_map.mp mem
    exact different (congrArg Prod.fst equal).symm
  constructor
  · intro entry mem
    rw [length_set]
    rcases mem_append.mp mem with earlier | added
    · exact orderly.numbered entry earlier
    · obtain ⟨_, _, rfl⟩ := mem_map.mp added
      exact inRange
  · intro first second a b foundA foundB recoversA recoversB
    rcases lookup_set foundA with ⟨rfl, phaseA⟩ | ⟨otherA, earlierA⟩
    · rcases lookup_set foundB with ⟨rfl, -⟩ | ⟨otherB, earlierB⟩
      · rfl
      · exact absurd (phaseA ▸ recoversA) (others second b otherB earlierB recoversB).1
    · rcases lookup_set foundB with ⟨rfl, phaseB⟩ | ⟨-, earlierB⟩
      · exact absurd (phaseB ▸ recoversB) (others first a otherA earlierA recoversA).1
      · exact orderly.alone first second a b earlierA earlierB recoversA recoversB
  · intro other otherCall otherFound sending
    rcases lookup_set otherFound with ⟨-, phase⟩ | ⟨different, earlier⟩
    · exact moves.vacant (phase ▸ sending)
    · rw [(others other otherCall different earlier (by rw [sending]; rfl)).2]
      exact orderly.vacant other otherCall earlier sending
  · intro other otherCall again sessionId otherFound waiting
    rcases lookup_set otherFound with ⟨-, phase⟩ | ⟨different, earlier⟩
    · exact .inl (moves.named (phase ▸ waiting))
    · exact held_act found moves allowed
        (orderly.held other otherCall again sessionId earlier waiting)
  · intro other otherCall otherFound
    rcases lookup_set otherFound with ⟨rfl, phase⟩ | ⟨different, earlier⟩
    · rw [phase]
      refine (orderly.standing other call found).moves moves allowed ?_
      intro alone again sessionId waiting
      refine (orderly.held other call again sessionId found waiting).resolve_right ?_
      rintro ⟨replacing, mem, replaces⟩
      exact alone replacing mem replaces
    · exact (orderly.standing other otherCall earlier).append
        (fun recovers => (others other otherCall different earlier recovers).2)
        (quiet other different)
  · exact orderly.renewed.moves (orderly.standing number call found) moves allowed
  · exact orderly.bare.moves moves (orderly.vacant number call found)

/-- A session is ended when every call is over. -/
theorem shutdown (orderly : Orderly client) (allOver : ∀ call ∈ client.calls, call.phase.isOver) :
    Orderly { client with session := { client.session with id := none } } := by
  have overAt : ∀ (number : Nat) (call : Call), client.calls[number]? = some call →
      call.phase.isOver := fun _ call found => allOver call (mem_of_getElem? found)
  refine ⟨orderly.numbered, orderly.alone, fun _ _ _ _ => rfl, ?_, ?_, orderly.renewed,
    orderly.bare⟩
  · intro number call again sessionId found waiting
    have := overAt number call found
    rw [waiting] at this
    cases this
  · intro number call found
    have := overAt number call found
    revert this
    cases call.phase with
    | finished | abandoned => exact fun _ => trivial
    | exchanging | expired => exact nofun

theorem step (orderly : Orderly client) {action : Action}
    (allowed : careful limits readers client action)
    (stepped : client.step limits readers action = some next) : Orderly next := by
  cases action with
  | call =>
    cases stepped
    exact orderly.called
  | act number action =>
    obtain ⟨call, move, requestId, found, moved, moves, session, calls, log⟩ :=
      Client.moves_of_step stepped
    have allowedMove : carefulMove client call.phase move := by
      simpa only [careful, found, moved] using allowed
    have kept : Orderly { client with
        session := move.session
        calls := client.calls.set number { requestId, phase := move.phase }
        log := client.log ++ move.events.map (number, ·) } :=
      orderly.act found moves allowedMove
    rw [← session, ← calls, ← log] at kept
    exact ⟨kept.numbered, kept.alone, kept.vacant, kept.held, kept.standing, kept.renewed,
      kept.bare⟩
  | forget sessionId =>
    cases stepped
    exact ⟨orderly.numbered, orderly.alone, orderly.vacant, orderly.held, orderly.standing,
      orderly.renewed, orderly.bare⟩
  | shutdown =>
    cases stepped
    exact orderly.shutdown (all_eq_true.mp allowed)

end Orderly

/-- As long as calls do not get into each other's way, every call refused because its session
was forgotten is sent again in a new one before it ends, and no request to replace a session
names one. -/
theorem refused_calls_sent_again (limits : McpStreamableHttpLimits) (readers : Readers)
    (session : Session) (nextId : Nat) (client : Client)
    (reachable : Reachable
      (guarded (Client.step limits readers) (careful limits readers))
      (.connected session nextId) client) :
    RefusalsRenewed client.log ∧ ReplacementsBare client.log := by
  have orderly : Orderly client := by
    refine reachable.invariant ?_ (.connected session nextId)
    intro _ _ _ holds stepped
    obtain ⟨allowed, stepped⟩ := guarded_eq_some_iff.mp stepped
    exact holds.step allowed stepped
  exact ⟨orderly.renewed, orderly.bare⟩

/-! ## Runs of two calls -/

def oldSession : Session where
  id := some (asciiBytes "old")
  protocolVersion := some "2025-06-18"

def notFound : HttpResponse where
  status := 404

/-- Two calls are sent, and the server forgets the session. -/
def forgetful : List Action :=
  [.call, .call, .act 0 .send, .act 1 .send, .forget (asciiBytes "old")]

/-- The first call drops the session before the second is refused. -/
def droppedUnderneath : List Action :=
  forgetful ++ [.act 0 (.arrive (.ok notFound)), .act 0 .settle, .act 0 .clear,
    .act 1 (.arrive (.ok notFound)), .act 1 .settle]

/-- Both calls drop the session, and the second has another before the first asks for
one. -/
def replacedTwice : List Action :=
  forgetful ++ [.act 0 (.arrive (.ok notFound)), .act 1 (.arrive (.ok notFound)),
    .act 0 .settle, .act 1 .settle, .act 0 .clear, .act 1 .clear, .act 1 .send,
    .act 1 (.arrive (.ok { status := 200, sessionId := some (asciiBytes "new") })), .act 0 .send]

/-- The last thing in the log is that a refused call failed with the refusal. -/
def failsWithRefusal : Bool :=
  match log.reverse with
  | (number, .ended (.error (.httpStatus _ status))) :: (other, .refused _) :: _ =>
    number = other && status = 404
  | _ => false

theorem not_refusalsRenewed_of_failsWithRefusal {log : List (Nat × CallEvent)}
    (fails : failsWithRefusal log) :
    ¬ RefusalsRenewed log ∧
      ∃ number method, (number, .ended (.error (.httpStatus method 404))) ∈ log := by
  unfold failsWithRefusal at fails
  split at fails
  · rename_i number method status other sessionId rest reversed
    obtain ⟨rfl, rfl⟩ : number = other ∧ status = 404 := by simpa using fails
    have split : log = rest.reverse ++ (number, .refused sessionId) :: [] ++
        [(number, .ended (.error (.httpStatus method 404)))] := by
      simpa using congrArg List.reverse reversed
    refine ⟨fun renewed => ?_, number, method, by simp [split]⟩
    obtain ⟨_, _, again⟩ := renewed _ _ _ _ _ _ split
    cases again
  · cases fails

def namesSession : Nat × CallEvent → Bool
  | (_, .initializing (some _)) => true
  | _ => false

theorem not_replacementsBare_of_namesSession {log : List (Nat × CallEvent)}
    (names : log.any namesSession) : ¬ ReplacementsBare log := by
  obtain ⟨entry, mem, named⟩ := any_eq_true.mp names
  unfold namesSession at named
  split at named
  · intro bare
    cases bare _ _ mem
  · cases named

/-- A call can fail with the refusal of a forgotten session, and a request to replace a
session can name one. -/
theorem refused_call_lost :
    (∃ client, Reachable
        (Client.step smallLimits (readersOf emptyText emptyReply))
        (.connected oldSession 1) client ∧
      ¬ RefusalsRenewed client.log ∧
      ∃ number method, (number, .ended (.error (.httpStatus method 404))) ∈ client.log) ∧
    ∃ client, Reachable
        (Client.step smallLimits (readersOf emptyText emptyReply))
        (.connected oldSession 1) client ∧
      ¬ ReplacementsBare client.log := by
  have lost : (run (Client.step smallLimits (readersOf emptyText emptyReply))
      (.connected oldSession 1) droppedUnderneath).any fun client =>
        failsWithRefusal client.log := by
    decide +kernel
  have named : (run (Client.step smallLimits (readersOf emptyText emptyReply))
      (.connected oldSession 1) replacedTwice).any fun client =>
        client.log.any namesSession := by
    decide +kernel
  obtain ⟨first, firstReachable, fails⟩ := exists_reachable_of_any lost
  obtain ⟨second, secondReachable, names⟩ := exists_reachable_of_any named
  exact ⟨⟨first, firstReachable, not_refusalsRenewed_of_failsWithRefusal fails⟩,
    second, secondReachable, not_replacementsBare_of_namesSession names⟩

/-- `{"jsonrpc":"2.0","id":2,"result":["2025-06-18",{},["server"]]}`. -/
def greetingText : String :=
  "\x7b\"jsonrpc\":\"2.0\",\"id\":2,\"result\":[\"2025-06-18\",\x7b\x7d,[\"server\"]]\x7d"

def greetingReply : JsonRpcResponse where
  id := .number 2
  result := some (.array [.string "2025-06-18", .object [], .array [.string "server"]])

/-- One call is refused, replaces the session and is sent again. -/
def renewedCall : List Action :=
  [.call, .act 0 .send, .forget (asciiBytes "old"), .act 0 (.arrive (.ok notFound)),
    .act 0 .settle, .act 0 .clear, .act 0 .send,
    .act 0 (.arrive (.ok {
      status := 200
      contentType := some (asciiBytes "application/json")
      sessionId := some (asciiBytes "new")
      body := [.chunk (asciiBytes greetingText)] })),
    .act 0 .settle, .act 0 .send, .act 0 (.arrive (.ok { status := 202 })), .act 0 .settle,
    .act 0 .send, .act 0 .expire]

theorem renewed_call_sent_again :
    ∃ client, Reachable
        (guarded (Client.step smallLimits (readersOf greetingText greetingReply))
          (careful smallLimits (readersOf greetingText greetingReply)))
        (.connected oldSession 1) client ∧
      (client.log.any fun entry => entry.2.isRefused) ∧
      RefusalsRenewed client.log ∧ ReplacementsBare client.log := by
  have ran : (run
      (guarded (Client.step smallLimits (readersOf greetingText greetingReply))
        (careful smallLimits (readersOf greetingText greetingReply)))
      (.connected oldSession 1) renewedCall).any fun client =>
        client.log.any fun entry => entry.2.isRefused := by
    decide +kernel
  obtain ⟨client, reachable, refused⟩ := exists_reachable_of_any ran
  exact ⟨client, reachable, refused,
    refused_calls_sent_again smallLimits (readersOf greetingText greetingReply) oldSession 1 client
      reachable⟩

end Mentra.Mcp.StreamableHttp
