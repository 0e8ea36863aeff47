import Mentra.Team.Manager
import Mentra.Team.VolatileStore

/-!
# What a failed call of the team manager leaves behind

A call fails because the team cannot be read, because it is refused, or because a store
write fails.  Four calls change the members or the requests in memory before a write that
may still fail.  For them, and for no other, a failure can leave the change in place.
-/

namespace Mentra.Team

open Foundation Program List Function

variable {σ α β : Type}

/-! ## Records -/

namespace TeamState

/-- The same members, requests and live actors. -/
structure SameRecords (first second : TeamState) : Prop where
  members : second.members = first.members
  requests : second.requests = first.requests
  actors : second.actors = first.actors

theorem SameRecords.refl (team : TeamState) : team.SameRecords team :=
  ⟨rfl, rfl, rfl⟩

theorem SameRecords.trans {first second third : TeamState} (same : first.SameRecords second)
    (further : second.SameRecords third) : first.SameRecords third :=
  ⟨further.members.trans same.members, further.requests.trans same.requests,
    further.actors.trans same.actors⟩

theorem SameRecords.symm {first second : TeamState} (same : first.SameRecords second) :
    second.SameRecords first :=
  ⟨same.members.symm, same.requests.symm, same.actors.symm⟩

end TeamState

/-- The record of a team that a call made now works on. -/
def loaded (store : TeamStore σ) (teamDir : String) (manager : TeamManager σ) : Option TeamState :=
  ((ensureTeamState store teamDir).exec manager).1.toOption

/-- The records of every team are as they were.  A team that was not there has the records read
from the store. -/
structure KeepsRecords (store : TeamStore σ) (before after : TeamManager σ) : Prop where
  held : ∀ teamDir team, before.teams teamDir = some team →
    ∃ kept, after.teams teamDir = some kept ∧ team.SameRecords kept
  read : ∀ teamDir kept, before.teams teamDir = none → after.teams teamDir = some kept →
    ∃ team, loaded store teamDir before = some team ∧ team.SameRecords kept

/-- If the call changes a record and goes on to the store, the store does not fail, or a member
had its new status before. -/
def Settles (store : TeamStore σ) (manager : TeamManager σ) : TeamCall → Prop
  | .spawnTeammate teamDir summary actor =>
    Followed (enterTeammate store teamDir summary actor) (saveTeammate store summary) manager
  | .updateMemberStatus teamDir name status =>
    ∀ changed middle,
      (changeStatus store teamDir name status).exec manager = (.ok changed, middle) →
        (∃ team, loaded store teamDir manager = some team ∧
          changed.1.members = team.members) ∨ Succeeds (saveStatus store changed) middle
  | .createRequest teamDir sender recipient protocol content now =>
    Followed (postRequest store teamDir sender recipient protocol content now)
      (saveRequest store) manager
  | .resolveRequest teamDir responder requestId approve reason now =>
    Followed (decideRequest store teamDir responder requestId approve reason now)
      (deliverResponse store teamDir responder approve now) manager
  | _ => True

/-! ## Steps that keep the records -/

/-- The teams are those of `start`, with a record for one of them. -/
def Holds (start : TeamManager σ) (teamDir : String) (team : TeamState)
    (manager : TeamManager σ) : Prop :=
  manager.teams = update start.teams teamDir (some team)

/-- The teams are those of `start`, with a record for one of them that has the records
of the given one. -/
def Within (start : TeamManager σ) (teamDir : String) (team : TeamState)
    (manager : TeamManager σ) : Prop :=
  ∃ held, Holds start teamDir held manager ∧ team.SameRecords held

variable {store : TeamStore σ} {start : TeamManager σ} {teamDir : String} {team : TeamState}

variable {before after : TeamManager σ}

theorem KeepsRecords.of_teams_eq
    (same : after.teams = before.teams) : KeepsRecords store before after where
  held teamDir team held := ⟨team, by rw [same, held], .refl team⟩
  read teamDir kept absent present := by
    rw [same, absent] at present
    cases present

theorem exec_ensureTeamState (held : start.teams teamDir = some team) :
    (ensureTeamState store teamDir).exec start = (.ok team, start) := by
  have read : (get : TeamM σ (TeamManager σ)).exec start = (.ok start, start) := rfl
  rw [ensureTeamState, exec_bind, read]
  dsimp only
  rw [held]
  rfl

theorem loaded_of_held (held : start.teams teamDir = some team) :
    loaded store teamDir start = some team := by
  rw [loaded, exec_ensureTeamState held]
  rfl

variable {held : TeamState} {manager : TeamManager σ}

theorem keepsRecords_iff
    (isLoaded : loaded store teamDir start = some team) (holds : Holds start teamDir held manager) :
    KeepsRecords store start manager ↔ team.SameRecords held := by
  have here : manager.teams teamDir = some held := by
    rw [holds, update_self]
  constructor
  · intro keeps
    cases before : start.teams teamDir with
    | some old =>
      obtain ⟨kept, isKept, same⟩ := keeps.held teamDir old before
      cases (loaded_of_held before).symm.trans isLoaded
      cases here.symm.trans isKept
      exact same
    | none =>
      obtain ⟨old, isOld, same⟩ := keeps.read teamDir held before here
      cases isOld.symm.trans isLoaded
      exact same
  · intro same
    constructor
    · intro other old before
      by_cases isHere : other = teamDir
      · subst isHere
        cases (loaded_of_held before).symm.trans isLoaded
        exact ⟨held, here, same⟩
      · refine ⟨old, ?_, .refl old⟩
        rw [holds, update_of_ne isHere, before]
    · intro other kept absent present
      by_cases isHere : other = teamDir
      · subst isHere
        cases here.symm.trans present
        exact ⟨team, isLoaded, same⟩
      · rw [holds, update_of_ne isHere, absent] at present
        cases present

/-- Programs that stay within the given records of one team. -/
abbrev KeepsWithin (start : TeamManager σ) (teamDir : String) (team : TeamState)
    (program : TeamM σ α) : Prop :=
  Keeps (Within start teamDir team) (Within start teamDir team) program

/-- Programs that leave the teams alone. -/
abbrev LeavesTeams (program : TeamM σ α) : Prop :=
  Along (fun before after => after.teams = before.teams) program

theorem leavesTeams_onStore (program : Program RuntimeError σ α) :
    LeavesTeams (onStore program) := by
  intro start
  rw [onStore, ensures_zoom, Ensures]
  split <;> rfl

theorem leavesTeams_notify (notices : List Notice) : LeavesTeams (notify (σ := σ) notices) :=
  fun _ => rfl

theorem Within.of_teams_eq (within : Within start teamDir team before)
    (same : after.teams = before.teams) : Within start teamDir team after := by
  obtain ⟨held, holds, sameRecords⟩ := within
  exact ⟨held, same.trans holds, sameRecords⟩

/-- What neither the store nor the unread counts of a team bear on. -/
structure Steady (teamDir : String) (team : TeamState) (Good : TeamManager σ → Prop) : Prop where
  teams : ∀ before after, after.teams = before.teams → Good before → Good after
  record : ∀ {held}, team.SameRecords held → held.pendingShutdowns = team.pendingShutdowns →
    Keeps Good Good (setTeam teamDir held)

namespace Steady

variable {Good : TeamManager σ → Prop} (steady : Steady teamDir team Good)
include steady

theorem onStore {program : Program RuntimeError σ α} : Keeps Good Good (onStore program) :=
  Along.keeps (leavesTeams_onStore program) steady.teams fun _ good => good

theorem notify {notices : List Notice} : Keeps Good Good (notify notices) :=
  Along.keeps (leavesTeams_notify notices) steady.teams fun _ good => good

theorem setTeam {rest : TeamM σ α} (goesOn : Keeps Good Good rest) (same : team.SameRecords held)
    (signals : held.pendingShutdowns = team.pendingShutdowns) :
    Keeps Good Good (do
      Team.setTeam teamDir held
      rest) :=
  (steady.record same signals).bind fun _ => goesOn

end Steady

theorem Keeps.setTeam {rest : TeamM σ α} (goesOn : KeepsWithin start teamDir team rest)
    (same : team.SameRecords held) :
    KeepsWithin start teamDir team (do
      Team.setTeam teamDir held
      rest) := by
  refine Keeps.bind ?_ fun _ => goesOn
  rintro manager ⟨_, holds, -⟩
  refine ⟨held, ?_, same⟩
  show update manager.teams teamDir (some held) = _
  rw [holds, update_idem]

theorem steady_within : Steady teamDir team (Within start teamDir team) where
  teams _ _ same within := within.of_teams_eq same
  record same _ := Keeps.setTeam (.pure _) same

theorem ensureTeamState_holds :
    Ensures (ensureTeamState store teamDir) (fun team => Holds start teamDir team)
      (fun _ final => final.teams = start.teams) start := by
  rw [ensureTeamState, ensures_bind, ensures_get]
  cases held : start.teams teamDir with
  | some team => exact (update_eq_self_iff.mpr held.symm).symm
  | none =>
    refine (leavesTeams_onStore _ start).bind ?_ fun _ _ same => same
    intro members first sameFirst
    refine (leavesTeams_onStore _ first).bind ?_ fun _ _ same => same.trans sameFirst
    intro requests second sameSecond
    have same := sameSecond.trans sameFirst
    refine (leavesTeams_onStore _ second).bind ?_ fun _ _ further => further.trans same
    intro names third sameThird
    exact congrArg (update · teamDir _) (sameThird.trans same)

theorem ensureTeamState_spec :
    Ensures (ensureTeamState store teamDir)
      (fun team middle => loaded store teamDir start = some team ∧ Holds start teamDir team middle)
      (fun _ final => final.teams = start.teams) start := by
  refine (ensures_exec.both ensureTeamState_holds).weaken ?_ fun _ _ both => both.2
  rintro team middle ⟨ended, holds⟩
  exact ⟨by rw [loaded, ended]; rfl, holds⟩

/-- A call that goes on from the record of its team without changing what is kept. -/
theorem keeps_of_ensured {rest : TeamState → TeamM σ α}
    (keeps : ∀ team, KeepsWithin start teamDir team (rest team)) :
    Reaches (KeepsRecords store start) (ensureTeamState store teamDir >>= rest) start := by
  refine ensureTeamState_spec.bind ?_ fun _ _ same => .of_teams_eq same
  rintro team middle ⟨isLoaded, holds⟩
  have kept (final : TeamManager σ) (within : Within start teamDir team final) :
      KeepsRecords store start final := by
    obtain ⟨held, holds, same⟩ := within
    exact (keepsRecords_iff isLoaded holds).mpr same
  exact (keeps team middle ⟨team, holds, .refl team⟩).weaken (fun _ => kept) (fun _ => kept)

/-! ## The calls that only fail in time -/

/-- A call that keeps what is steady, whatever the record of its team. -/
def QuietCall (store : TeamStore σ) (teamDir : String) (call : TeamM σ α) : Prop :=
  ∃ rest : TeamState → TeamM σ α, call = ensureTeamState store teamDir >>= rest ∧
    ∀ team Good, Steady teamDir team Good → Keeps Good Good (rest team)

theorem QuietCall.keeps {call : TeamM σ α} (quiet : QuietCall store teamDir call) :
    Reaches (KeepsRecords store start) call start := by
  obtain ⟨rest, rfl, quiet⟩ := quiet
  exact keeps_of_ensured fun team => quiet team _ steady_within

theorem keeps_throw {Good : TeamManager σ → Prop} {error : RuntimeError} :
    Keeps Good Good (throw error : TeamM σ α) :=
  fun _ good => good

theorem registerAgent_quiet (agentName : String) (sink : Nat) :
    QuietCall store teamDir (registerAgent store teamDir agentName sink) := by
  refine ⟨_, rfl, fun team Good steady => ?_⟩
  refine steady.setTeam ?_ ⟨rfl, rfl, rfl⟩ rfl
  refine steady.onStore.bind fun unread => ?_
  exact steady.setTeam steady.notify ⟨rfl, rfl, rfl⟩ rfl

variable (sender recipient content : String)

theorem sendMessage_quiet (now : Nat) :
    QuietCall store teamDir (sendMessage store teamDir sender recipient content now) := by
  refine ⟨_, rfl, fun team Good steady => ?_⟩
  cases known : team.knows recipient with
  | false => exact keeps_throw
  | true =>
    refine steady.onStore.bind fun _ => ?_
    refine steady.setTeam ?_ ⟨rfl, rfl, rfl⟩ rfl
    exact steady.notify.bind fun _ => .pure _

theorem broadcastTo_keeps (now : Nat) (recipients : List String) {Good : TeamManager σ → Prop}
    (steady : Steady teamDir team Good) (same : team.SameRecords held)
    (signals : held.pendingShutdowns = team.pendingShutdowns) :
    Keeps Good Good (broadcastTo store teamDir sender content now held recipients) := by
  induction recipients generalizing held with
  | nil => exact .pure _
  | cons recipient recipients ih =>
    have counted : team.SameRecords (held.incrementUnreadCount recipient) :=
      same.trans ⟨rfl, rfl, rfl⟩
    refine steady.onStore.bind fun _ => ?_
    exact steady.setTeam ((ih counted signals).bind fun _ => .pure _) counted signals

theorem broadcastMessage_quiet (now : Nat) :
    QuietCall store teamDir (broadcastMessage store teamDir sender content now) := by
  refine ⟨_, rfl, fun team Good steady => ?_⟩
  refine (broadcastTo_keeps sender content now _ steady (.refl team) rfl).bind fun _ => ?_
  exact steady.notify.bind fun _ => .pure _

theorem readInbox_quiet (agentName : String) :
    QuietCall store teamDir (readInbox store teamDir agentName) := by
  refine ⟨_, rfl, fun team Good steady => ?_⟩
  refine steady.onStore.bind fun _ => ?_
  refine steady.setTeam ?_ ⟨rfl, rfl, rfl⟩ rfl
  exact steady.notify.bind fun _ => .pure _

theorem settleMessages_quiet (settle : String → String → Program RuntimeError σ Unit)
    (agentName : String) :
    QuietCall store teamDir (settleMessages store settle teamDir agentName) := by
  refine ⟨_, rfl, fun team Good steady => ?_⟩
  refine steady.onStore.bind fun _ => ?_
  refine steady.onStore.bind fun unread => ?_
  exact steady.setTeam steady.notify ⟨rfl, rfl, rfl⟩ rfl

theorem wakeTeammate_quiet (teammateName : String) :
    QuietCall store teamDir (wakeTeammate store teamDir teammateName) := by
  refine ⟨_, rfl, fun team Good steady => ?_⟩
  cases team.actors teammateName with
  | none => exact keeps_throw
  | some actor => exact steady.notify

/-- What only reads the record of its team, or changes it and cannot fail afterwards. -/
theorem fails_of_ensured {rest : TeamState → TeamM σ α}
    (total : ∀ team middle, Succeeds (rest team) middle) :
    Ensures (ensureTeamState store teamDir >>= rest) (fun _ _ => True)
      (fun _ => KeepsRecords store start) start := by
  refine ensureTeamState_spec.bind ?_ fun _ _ same => .of_teams_eq same
  intro team middle _
  obtain ⟨value, succeeded⟩ := total team middle
  refine ensures_exec.weaken (fun _ _ _ => trivial) fun error final failed => ?_
  rw [failed] at succeeded
  cases succeeded

/-! ## The calls that change a record first -/

/-- What a call has done when it has changed the record of its team. -/
structure Changed (store : TeamStore σ) (start : TeamManager σ) (teamDir : String)
    (unchanged : Prop) (team held : TeamState) (middle : TeamManager σ) : Prop where
  isLoaded : loaded store teamDir start = some team
  holds : Holds start teamDir held middle
  same_iff : team.SameRecords held ↔ unchanged

/-- A call whose failures after a change leave that change. -/
theorem failed_iff {first : TeamM σ α} {second : α → TeamM σ β} {unchanged : α → Prop}
    (early : Ensures first
      (fun value middle => ∃ team held,
        Changed store start teamDir (unchanged value) team held middle ∧
        KeepsWithin start teamDir held (second value))
      (fun _ => KeepsRecords store start) start) :
    Ensures (first >>= second) (fun _ _ => True)
      (fun _ final => KeepsRecords store start final ↔
        ∀ value middle, first.exec start = (.ok value, middle) →
          unchanged value ∨ Succeeds (second value) middle) start := by
  refine (ensures_exec.both early).bind ?_ ?_
  · rintro value middle ⟨ended, team, held, changed, keeps⟩
    refine (ensures_exec.both (keeps middle ⟨held, changed.holds, .refl held⟩)).weaken
      (fun _ _ _ => trivial) ?_
    rintro error final ⟨failed, other, holds, same⟩
    rw [keepsRecords_iff changed.isLoaded holds]
    constructor
    · intro unmoved value' middle' ended'
      cases ended.symm.trans ended'
      exact .inl (changed.same_iff.mp (unmoved.trans same.symm))
    · intro settles
      rcases settles value middle ended with isUnchanged | ⟨result, succeeded⟩
      · exact (changed.same_iff.mpr isUnchanged).trans same
      · rw [failed] at succeeded
        cases succeeded
  · rintro error final ⟨failed, keeps⟩
    refine iff_of_true keeps ?_
    intro value middle ended
    cases failed.symm.trans ended

theorem failed_iff_followed {first : TeamM σ α} {second : α → TeamM σ β}
    (early : Ensures first
      (fun value middle => ∃ team held, Changed store start teamDir False team held middle ∧
        KeepsWithin start teamDir held (second value))
      (fun _ => KeepsRecords store start) start) :
    Ensures (first >>= second) (fun _ _ => True)
      (fun _ final => KeepsRecords store start final ↔ Followed first second start) start := by
  have failed := @failed_iff σ α β store start teamDir first second (fun _ => False) early
  simp only [false_or] at failed
  exact failed

/-- A record is entered in the place of the one that was loaded. -/
theorem Changed.of_setTeam {unchanged : Prop} {middle : TeamManager σ}
    (isLoaded : loaded store teamDir start = some team) (holds : Holds start teamDir team middle)
    (same_iff : team.SameRecords held ↔ unchanged) :
    Ensures (setTeam teamDir held)
      (fun _ => Changed store start teamDir unchanged team held) (fun _ _ => False) middle := by
  refine ⟨isLoaded, ?_, same_iff⟩
  show update middle.teams teamDir (some held) = _
  rw [holds, update_idem]

theorem enterTeammate_spec (summary : TeamMemberSummary) (actor : Nat) :
    Ensures (enterTeammate store teamDir summary actor)
      (fun held middle => ∃ team, Changed store start teamDir False team held middle)
      (fun _ => KeepsRecords store start) start := by
  refine ensureTeamState_spec.bind ?_ fun _ _ same => .of_teams_eq same
  rintro team middle ⟨isLoaded, holds⟩
  have entered (members : List TeamMemberSummary)
      (differs : members ≠ team.members ∨ team.actors summary.name = none) :
      Ensures (do
        let held := { team with
          members
          knownAgents := team.knownAgents.insert summary.name
          actors := update team.actors summary.name (some actor) }
        setTeam teamDir held
        return held)
        (fun held middle => ∃ team, Changed store start teamDir False team held middle)
        (fun _ => KeepsRecords store start) middle := by
    refine (Changed.of_setTeam isLoaded holds ?_).bind (fun _ _ changed => ⟨team, changed⟩) nofun
    rw [iff_false]
    intro same
    rcases differs with newMembers | noActor
    · exact newMembers same.members
    · have sameActor := congrFun same.actors summary.name
      dsimp only at sameActor
      rw [update_self, noActor] at sameActor
      cases sameActor
  cases found : team.members.findFinIdx? fun member => member.name = summary.name with
  | none => exact entered _ (.inl (by simp))
  | some index =>
    cases live : team.actors summary.name with
    | some other =>
      exact (keepsRecords_iff isLoaded holds).mpr (.refl team)
    | none =>
      exact entered _ (.inr live)

theorem spawnTeammate_fails (summary : TeamMemberSummary) (actor : Nat) :
    Ensures (spawnTeammate store teamDir summary actor) (fun _ _ => True)
      (fun _ final => KeepsRecords store start final ↔
        Followed (enterTeammate store teamDir summary actor) (saveTeammate store summary) start)
      start := by
  apply failed_iff_followed
  refine (enterTeammate_spec summary actor).weaken ?_ fun _ _ keeps => keeps
  rintro held middle ⟨team, changed⟩
  refine ⟨team, held, changed, ?_⟩
  refine steady_within.onStore.bind fun _ => ?_
  exact steady_within.notify.bind fun _ => .pure _

theorem changeStatus_spec (name : String) (status : TeamMemberStatus) :
    Ensures (changeStatus store teamDir name status)
      (fun changed middle => ∃ team, Changed store start teamDir
        (∃ team, loaded store teamDir start = some team ∧ changed.1.members = team.members)
        team changed.1 middle)
      (fun _ => KeepsRecords store start) start := by
  refine ensureTeamState_spec.bind ?_ fun _ _ same => .of_teams_eq same
  rintro team middle ⟨isLoaded, holds⟩
  cases team.members.findFinIdx? fun member => member.name = name with
  | none => exact (keepsRecords_iff isLoaded holds).mpr (.refl team)
  | some index =>
    refine (Changed.of_setTeam isLoaded holds ?_).bind (fun _ _ changed => ⟨team, changed⟩) nofun
    constructor
    · intro same
      exact ⟨team, isLoaded, same.members⟩
    · rintro ⟨other, isOther, sameMembers⟩
      cases isLoaded.symm.trans isOther
      exact ⟨sameMembers, rfl, rfl⟩

theorem updateMemberStatus_fails (name : String) (status : TeamMemberStatus) :
    Ensures (updateMemberStatus store teamDir name status) (fun _ _ => True)
      (fun _ final => KeepsRecords store start final ↔
        Settles store start (.updateMemberStatus teamDir name status)) start := by
  apply failed_iff
  refine (changeStatus_spec name status).weaken ?_ fun _ _ keeps => keeps
  rintro changed middle ⟨team, isChanged⟩
  refine ⟨team, changed.1, isChanged, ?_⟩
  exact steady_within.onStore.bind fun _ => steady_within.notify

theorem postRequest_spec (protocol content : String) (now : Nat) :
    Ensures (postRequest store teamDir sender recipient protocol content now)
      (fun posted middle => ∃ team, Changed store start teamDir False team posted.1 middle)
      (fun _ => KeepsRecords store start) start := by
  refine ensureTeamState_spec.bind ?_ fun _ _ same => .of_teams_eq same
  rintro team middle ⟨isLoaded, holds⟩
  cases known : team.knows recipient with
  | false => exact (keepsRecords_iff isLoaded holds).mpr (.refl team)
  | true =>
    refine ensures_bind.mpr (ensures_modifyGet.mpr ?_)
    refine (leavesTeams_onStore _ _).bind ?_ ?_
    · intro _ appended same
      refine (Changed.of_setTeam isLoaded (same.trans holds) ?_).bind
        (fun _ _ changed => ⟨team, changed⟩) nofun
      rw [iff_false]
      intro sameRecords
      exact absurd sameRecords.requests (by simp [TeamState.incrementUnreadCount,
        TeamState.setUnreadCount])
    · intro error final same
      exact (keepsRecords_iff isLoaded (same.trans holds)).mpr (.refl team)

theorem createRequest_fails (protocol content : String) (now : Nat) :
    Ensures (createRequest store teamDir sender recipient protocol content now) (fun _ _ => True)
      (fun _ final => KeepsRecords store start final ↔
        Followed (postRequest store teamDir sender recipient protocol content now)
          (saveRequest store) start) start := by
  apply failed_iff_followed
  refine (postRequest_spec sender recipient protocol content now).weaken ?_ fun _ _ keeps => keeps
  rintro posted middle ⟨team, changed⟩
  refine ⟨team, posted.1, changed, ?_⟩
  refine steady_within.onStore.bind fun _ => ?_
  exact steady_within.notify.bind fun _ => .pure _

variable {request : TeamProtocolRequestSummary}

theorem TeamProtocolRequestSummary.answer_ne
    (pending : request.status = .pending) (approve : Bool) (reason : Option String) (now : Nat) :
    request.answer approve reason now ≠ request := by
  intro same
  have sameStatus := congrArg TeamProtocolRequestSummary.status same
  rw [pending] at sameStatus
  cases approve <;> cases sameStatus

variable (responder : String)

theorem decideRequest_spec (requestId : String) (approve : Bool)
    (reason : Option String) (now : Nat) :
    Ensures (decideRequest store teamDir responder requestId approve reason now)
      (fun decided middle => ∃ team, Changed store start teamDir False team decided.1 middle)
      (fun _ => KeepsRecords store start) start := by
  refine ensureTeamState_spec.bind ?_ fun _ _ same => .of_teams_eq same
  rintro team middle ⟨isLoaded, holds⟩
  have refused := (keepsRecords_iff isLoaded holds).mpr (.refl team)
  cases team.requests.findFinIdx? fun request => request.requestId = requestId with
  | none => exact refused
  | some index =>
    dsimp only
    by_cases addressed : team.requests[index].toAgent = responder
    · rw [if_neg (not_not.mpr addressed)]
      by_cases pending : team.requests[index].status = .pending
      · rw [if_neg (not_not.mpr pending)]
        refine (Changed.of_setTeam isLoaded holds ?_).bind
          (fun _ _ changed => ⟨team, changed⟩) (by rintro _ _ ⟨⟩)
        rw [iff_false]
        intro same
        have unmoved := congrArg (fun requests => requests[index.1]?) same.requests
        rw [getElem?_set_self index.2, getElem?_eq_getElem index.2, Option.some.injEq] at unmoved
        exact TeamProtocolRequestSummary.answer_ne pending approve reason now unmoved
      · rw [if_pos pending]
        exact refused
    · rw [if_pos addressed]
      exact refused

theorem deliverResponse_keeps (approve : Bool) (now : Nat) (request : TeamProtocolRequestSummary) :
    KeepsWithin start teamDir held
      (deliverResponse store teamDir responder approve now (held, request)) := by
  refine steady_within.onStore.bind fun _ => ?_
  refine Keeps.setTeam ?_ ⟨rfl, rfl, rfl⟩
  refine steady_within.onStore.bind fun _ => ?_
  exact steady_within.notify.bind fun _ => .pure _

theorem resolveRequest_fails (requestId : String) (approve : Bool)
    (reason : Option String) (now : Nat) :
    Ensures (resolveRequest store teamDir responder requestId approve reason now)
      (fun _ _ => True)
      (fun _ final => KeepsRecords store start final ↔
        Followed (decideRequest store teamDir responder requestId approve reason now)
          (deliverResponse store teamDir responder approve now) start) start := by
  apply failed_iff_followed
  refine (decideRequest_spec responder requestId approve reason now).weaken ?_
    fun _ _ keeps => keeps
  rintro ⟨held, request⟩ middle ⟨team, changed⟩
  exact ⟨team, held, changed, deliverResponse_keeps responder approve now request⟩

/-- A call leaves the records exactly if it settles. -/
theorem perform_fails (call : TeamCall) :
    Ensures (perform store call) (fun _ _ => True)
      (fun _ final => KeepsRecords store start final ↔ Settles store start call) start := by
  have keeping {α : Type} {program : TeamM σ α} {reply : α → TeamReply} {settles : Prop}
      (fails : Ensures program (fun _ _ => True)
        (fun _ final => KeepsRecords store start final ↔ settles) start) :
      Ensures (do return reply (← program)) (fun _ _ => True)
        (fun _ final => KeepsRecords store start final ↔ settles) start :=
    fails.bind (fun _ _ _ => trivial) fun _ _ kept => kept
  have settled {α : Type} {program : TeamM σ α} {post : α → TeamManager σ → Prop}
      (keeps : Ensures program post (fun _ => KeepsRecords store start) start) :
      Ensures program (fun _ _ => True)
        (fun _ final => KeepsRecords store start final ↔ True) start :=
    keeps.weaken (fun _ _ _ => trivial) fun _ _ kept => iff_true_intro kept
  cases call with
  | registerAgent teamDir agentName sink =>
    exact keeping (settled (registerAgent_quiet agentName sink).keeps)
  | spawnTeammate teamDir summary actor => exact keeping (spawnTeammate_fails summary actor)
  | wakeTeammate teamDir teammateName =>
    exact keeping (settled (wakeTeammate_quiet teammateName).keeps)
  | updateMemberStatus teamDir name status => exact keeping (updateMemberStatus_fails name status)
  | sendMessage teamDir sender recipient content now =>
    exact keeping (settled (sendMessage_quiet sender recipient content now).keeps)
  | broadcastMessage teamDir sender content now =>
    exact keeping (settled (broadcastMessage_quiet sender content now).keeps)
  | readInbox teamDir agentName => exact keeping (settled (readInbox_quiet agentName).keeps)
  | hasPendingMessages teamDir agentName =>
    have reads : Ensures (hasPendingMessages store teamDir agentName) (fun _ _ => True)
        (fun _ => KeepsRecords store start) start :=
      (leavesTeams_onStore _ start).bind (fun _ _ _ => trivial) fun _ _ same => .of_teams_eq same
    exact keeping (settled reads)
  | requeueMessages teamDir agentName =>
    exact keeping (settled (settleMessages_quiet store.requeueTeamInbox agentName).keeps)
  | acknowledgeMessages teamDir agentName =>
    exact keeping (settled (settleMessages_quiet store.ackTeamInbox agentName).keeps)
  | createRequest teamDir sender recipient protocol content now =>
    exact keeping (createRequest_fails sender recipient protocol content now)
  | resolveRequest teamDir responder requestId approve reason now =>
    exact keeping (resolveRequest_fails responder requestId approve reason now)
  | listRequests teamDir agentName filter | takeShutdownSignal teamDir teammateName
  | unregisterTeammateActor teamDir teammateName =>
    exact keeping (settled (fails_of_ensured fun _ _ => ⟨_, rfl⟩))

/-! ## Resolving again -/

/-- The request found under an id waits for its answer. -/
def Awaits (manager : TeamManager σ) (teamDir : String) (request : TeamProtocolRequestSummary) :
    Prop :=
  request.status = .pending ∧ ∃ team, manager.teams teamDir = some team ∧
    team.requests.find? (fun other => other.requestId = request.requestId) = some request

theorem Awaits.kept
    (awaits : Awaits before teamDir request) (keeps : KeepsRecords store before after) :
    Awaits after teamDir request := by
  obtain ⟨pending, team, held, found⟩ := awaits
  obtain ⟨kept, isKept, same⟩ := keeps.held teamDir team held
  exact ⟨pending, kept, isKept, by rw [same.requests]; exact found⟩

theorem findFinIdx?_of_find? {items : List α} {matching : α → Bool} {item : α}
    (found : items.find? matching = some item) :
    ∃ index, items.findFinIdx? matching = some index ∧ items[index] = item := by
  obtain ⟨isMatching, position, inRange, isItem, earlier⟩ := find?_eq_some_iff_getElem.mp found
  refine ⟨⟨position, inRange⟩, findFinIdx?_eq_some_iff.mpr ⟨?_, ?_⟩, isItem⟩
  · exact isItem ▸ isMatching
  · intro other before
    have notEarlier := earlier other.1 before
    rw [Bool.not_eq_true'] at notEarlier
    rw [Bool.not_eq_true]
    exact notEarlier

theorem decideRequest_succeeds (awaits : Awaits manager teamDir request) (approve : Bool)
    (reason : Option String) (now : Nat) :
    Succeeds (decideRequest store teamDir request.toAgent request.requestId approve reason now)
      manager := by
  obtain ⟨pending, team, held, found⟩ := awaits
  obtain ⟨index, isIndex, isRequest⟩ := findFinIdx?_of_find? found
  rw [Succeeds, decideRequest, exec_bind, exec_ensureTeamState held]
  simp only [isIndex, isRequest, pending]
  rw [if_neg (not_not.mpr rfl), if_neg (not_not.mpr rfl)]
  exact ⟨_, rfl⟩

/-- After any calls, a call that fails leaves the records exactly if it settles.  If it
does, every request that awaited its answer still does, and answering it fails only if
the store fails. -/
theorem failed_call_keeps_records_iff (store : TeamStore σ) (initial : σ)
    (earlier : List TeamCall) (call : TeamCall) (error : RuntimeError) (after : TeamManager σ)
    (failed : (perform store call).exec (performAll store (.new initial) earlier) =
      (.error error, after)) :
    let before := performAll store (.new initial) earlier
    (KeepsRecords store before after ↔ Settles store before call) ∧
      (Settles store before call → ∀ teamDir request, Awaits before teamDir request →
        ∀ approve reason now,
          let answer : TeamCall :=
            .resolveRequest teamDir request.toAgent request.requestId approve reason now
          Awaits after teamDir request ∧
            (Settles store after answer → Succeeds (perform store answer) after)) := by
  intro before
  have keeps_iff : KeepsRecords store before after ↔ Settles store before call :=
    (ensures_of_exec (perform_fails call)).2 error after failed
  refine ⟨keeps_iff, ?_⟩
  intro settles teamDir request awaits approve reason now answer
  have still := awaits.kept (keeps_iff.mpr settles)
  refine ⟨still, fun followed => ?_⟩
  have resolves := followed.succeeds (decideRequest_succeeds still approve reason now)
  exact Followed.succeeds (fun _ _ _ => ⟨_, rfl⟩) resolves

/-- Two agents, and a request of the first to the second. -/
def requestMade : List TeamCall :=
  [.registerAgent "team" "lead" 0, .registerAgent "team" "mate" 1,
    .createRequest "team" "lead" "mate" "shutdown" "please stop" 0]

def madeRequest : TeamProtocolRequestSummary :=
  ⟨"0-1", "shutdown", "lead", "mate", "please stop", .pending, 0, none, none⟩

/-- The two writes of the request succeed, and the one after them fails. -/
def thirdWriteFails : Faults × VolatileTeams :=
  ([none, none, some (.store "disk full")], .new)

theorem awaits_madeRequest : Awaits
    (performAll volatileTeamStore.withFaults (.new thirdWriteFails) requestMade) "team"
    madeRequest :=
  ⟨rfl, _, rfl, rfl⟩

/-- The answer cannot be sent, and the request counts as answered all the same. -/
theorem failed_answer_not_repeatable :
    let store := volatileTeamStore.withFaults
    let before := performAll store (.new thirdWriteFails) requestMade
    let answer : TeamCall := .resolveRequest "team" "mate" "0-1" true none 0
    let after := ((perform store answer).exec before).2
    ((perform store answer).exec before).1 = .error (.store "disk full") ∧
      Awaits before "team" madeRequest ∧ ¬KeepsRecords store before after ∧
      ((perform store answer).exec after).1 =
        .error (.invalidTeam "Team request '0-1' is already resolved") := by
  intro store before answer after
  refine ⟨by decide +kernel, awaits_madeRequest, ?_, by decide +kernel⟩
  intro keeps
  have answered : (after.teams "team").all fun team =>
      team.requests.all fun request => request.status ≠ .pending := by decide +kernel
  obtain ⟨pending, team, held, found⟩ := awaits_madeRequest.kept keeps
  rw [held, Option.all_some, all_eq_true] at answered
  exact of_decide_eq_true (answered madeRequest (mem_of_find?_eq_some found)) pending

/-- A message cannot be sent, and the request can still be answered. -/
theorem answered_after_failed_message :
    let store := volatileTeamStore.withFaults
    let before := performAll store (.new thirdWriteFails) requestMade
    let message : TeamCall := .sendMessage "team" "lead" "mate" "hello" 0
    let answer : TeamCall := .resolveRequest "team" "mate" "0-1" true none 0
    let after := ((perform store message).exec before).2
    ((perform store message).exec before).1 = .error (.store "disk full") ∧
      KeepsRecords store before after ∧ Awaits after "team" madeRequest ∧
      Succeeds (perform store answer) after := by
  intro store before message answer after
  obtain ⟨keeps_iff, resolvable⟩ := failed_call_keeps_records_iff store thirdWriteFails
    requestMade message (.store "disk full") after rfl
  obtain ⟨awaits, succeeds⟩ := resolvable trivial "team" madeRequest awaits_madeRequest true none 0
  have delivered : Succeeds (resolveRequest store "team" "mate" "0-1" true none 0) after :=
    ⟨madeRequest.answer true none 0, by decide +kernel⟩
  exact ⟨rfl, keeps_iff.mpr trivial, awaits, succeeds delivered.followed⟩

end Mentra.Team
