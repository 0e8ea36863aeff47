import Mentra.Team.Actors
import Mentra.Team.Failures

/-!
# Who takes a shutdown signal

The signal of a teammate is a name in a set that every actor of that name shares.  An actor
that ends leaves the name there, and an agent that is no actor can put it there, so an actor
may find a signal that it did not ask for.  It never does as long as no actor is started while
a signal waits for its name, and whoever approves a shutdown is the only actor of its name.
-/

namespace Mentra.Team

open Foundation Program List Function Transition
open Foundation.Transition (Reachable guarded)

variable {σ α β : Type}

/-- The names a team keeps shutdown signals for. -/
def TeamManager.signals (manager : TeamManager σ) (teamDir : String) : List String :=
  ((manager.teams teamDir).map TeamState.pendingShutdowns).getD []

/-- Every signal is for a team and a name that are allowed to have one. -/
def Signals (Allowed : String → String → Prop) (manager : TeamManager σ) : Prop :=
  ∀ teamDir, ∀ name ∈ manager.signals teamDir, Allowed teamDir name

/-- The program adds no other signal. -/
abbrev Signalless (Allowed : String → String → Prop) (program : TeamM σ α) : Prop :=
  Keeps (Signals Allowed) (Signals Allowed) program

/-! ## What the calls do to the signals -/

section Calls

variable {store : TeamStore σ} {Allowed : String → String → Prop} {teamDir : String}
  {team : TeamState}

variable {before after : TeamManager σ}

theorem TeamManager.signals_of_teams_eq
    (same : after.teams = before.teams) : after.signals = before.signals := by
  funext teamDir
  rw [signals, same, signals]

theorem LeavesTeams.signalless {program : TeamM σ α} (leaves : LeavesTeams program) :
    Signalless Allowed program := by
  refine Along.keeps leaves (fun before after same kept teamDir => ?_) fun _ kept => kept
  rw [TeamManager.signals_of_teams_eq same]
  exact kept teamDir

theorem TeamManager.signals_update (holds : Holds before teamDir team after) :
    after.signals = update before.signals teamDir team.pendingShutdowns := by
  funext other
  rw [signals, holds]
  by_cases here : other = teamDir
  · subst here
    rw [update_self, update_self]
    rfl
  · rw [update_of_ne here, update_of_ne here]
    rfl

theorem Signals.update (kept : Signals Allowed before) (holds : Holds before teamDir team after)
    (fewer : ∀ name ∈ team.pendingShutdowns, Allowed teamDir name) : Signals Allowed after := by
  intro other
  rw [TeamManager.signals_update holds]
  by_cases here : other = teamDir
  · subst here
    rw [update_self]
    exact fewer
  · rw [update_of_ne here]
    exact kept other

theorem signalless_setTeam (fewer : ∀ name ∈ team.pendingShutdowns, Allowed teamDir name) :
    Signalless Allowed (setTeam (σ := σ) teamDir team) :=
  fun _ kept => kept.update rfl fewer

variable (start : TeamManager σ)

/-- A team that was read just now has no signals. -/
theorem ensureTeamState_pending :
    Ensures (ensureTeamState store teamDir)
      (fun team _ => team.pendingShutdowns = start.signals teamDir) (fun _ _ => True) start := by
  rw [ensureTeamState, ensures_bind, ensures_get, TeamManager.signals]
  cases start.teams teamDir with
  | some team => rfl
  | none =>
    have read {β : Type} (program : Program RuntimeError σ β) (middle : TeamManager σ) :
        Ensures (onStore program) (fun _ _ => True) (fun _ _ => True) middle :=
      (leavesTeams_onStore program middle).weaken (fun _ _ _ => trivial) fun _ _ _ => trivial
    refine (read _ start).bind (fun members first _ => ?_) fun _ _ _ => trivial
    refine (read _ first).bind (fun requests second _ => ?_) fun _ _ _ => trivial
    refine (read _ second).bind (fun names third _ => ?_) fun _ _ _ => trivial
    rfl

theorem ensureTeamState_signals :
    Ensures (ensureTeamState store teamDir)
      (fun team final => team.pendingShutdowns = start.signals teamDir ∧
        final.signals = start.signals)
      (fun _ final => final.signals = start.signals) start := by
  refine (ensureTeamState_holds.both (ensureTeamState_pending start)).weaken ?_ ?_
  · rintro team final ⟨holds, pending⟩
    refine ⟨pending, ?_⟩
    rw [TeamManager.signals_update holds, pending, update_eq_self]
  · exact fun _ final both => TeamManager.signals_of_teams_eq both.1

/-- A call that goes on from the record of its team. -/
theorem signals_of_ensured {rest : TeamState → TeamM σ α} {post : α → TeamManager σ → Prop}
    {start : TeamManager σ} (kept : Signals Allowed start)
    (goesOn : ∀ team : TeamState, (∀ name ∈ team.pendingShutdowns, Allowed teamDir name) →
      ∀ middle, Signals Allowed middle →
        Ensures (rest team) post (fun _ => Signals Allowed) middle) :
    Ensures (ensureTeamState store teamDir >>= rest) post (fun _ => Signals Allowed) start := by
  have still {manager : TeamManager σ} (same : manager.signals = start.signals) :
      Signals Allowed manager := fun other => same ▸ kept other
  refine (ensureTeamState_signals start).bind ?_ fun _ _ same => still same
  rintro team middle ⟨pending, same⟩
  exact goesOn team (pending ▸ kept teamDir) middle (still same)

theorem signalless_of_ensured {rest : TeamState → TeamM σ α}
    (goesOn : ∀ team : TeamState, (∀ name ∈ team.pendingShutdowns, Allowed teamDir name) →
      Signalless Allowed (rest team)) :
    Signalless Allowed (ensureTeamState store teamDir >>= rest) :=
  fun _ kept => signals_of_ensured kept goesOn

theorem steady_signals (fewer : ∀ name ∈ team.pendingShutdowns, Allowed teamDir name) :
    Steady teamDir team (Signals (σ := σ) Allowed) where
  teams _ _ same kept other := TeamManager.signals_of_teams_eq same ▸ kept other
  record _ same := signalless_setTeam (same ▸ fewer)

theorem QuietCall.signalless {call : TeamM σ α} (quiet : QuietCall store teamDir call) :
    Signalless Allowed call := by
  obtain ⟨rest, rfl, quiet⟩ := quiet
  exact signalless_of_ensured fun team fewer => quiet team _ (steady_signals fewer)

theorem enterTeammate_signalless (summary : TeamMemberSummary) (actor : Nat) :
    Signalless Allowed (enterTeammate store teamDir summary actor) := by
  refine signalless_of_ensured fun team fewer => ?_
  have enters (held : TeamState) (same : held.pendingShutdowns = team.pendingShutdowns) :
      Signalless Allowed (setTeam teamDir held >>= fun _ => pure held : TeamM σ TeamState) :=
    .bind (signalless_setTeam (same ▸ fewer)) fun _ => .pure _
  split
  · split
    · exact keeps_throw
    · exact .bind (.pure _) fun members => enters _ rfl
  · exact .bind (.pure _) fun members => enters _ rfl

theorem spawnTeammate_signalless (summary : TeamMemberSummary) (actor : Nat) :
    Signalless Allowed (spawnTeammate store teamDir summary actor) := by
  refine .bind (enterTeammate_signalless summary actor) fun team => ?_
  refine .bind (leavesTeams_onStore _).signalless fun _ => ?_
  exact .bind (leavesTeams_notify _).signalless fun _ => .pure _

variable (teammateName : String)

theorem updateMemberStatus_signalless (name : String) (status : TeamMemberStatus) :
    Signalless Allowed (updateMemberStatus store teamDir name status) := by
  refine .bind (signalless_of_ensured fun team fewer => ?_) fun changed => ?_
  · split
    · exact keeps_throw
    · exact .bind (signalless_setTeam fewer) fun _ => .pure _
  · exact .bind (leavesTeams_onStore _).signalless fun _ => (leavesTeams_notify _).signalless

theorem unregisterTeammateActor_signalless :
    Signalless Allowed (unregisterTeammateActor store teamDir teammateName) :=
  signalless_of_ensured fun _ fewer => signalless_setTeam fewer

theorem takeShutdownSignal_signalless :
    Signalless Allowed (takeShutdownSignal store teamDir teammateName) :=
  signalless_of_ensured fun _ fewer =>
    .bind (signalless_setTeam fun name mem => fewer name (mem_of_mem_erase mem)) fun _ => .pure _

variable (sender : String)

theorem createRequest_signalless (recipient protocol content : String) (now : Nat) :
    Signalless Allowed (createRequest store teamDir sender recipient protocol content now) := by
  refine .bind (signalless_of_ensured fun team fewer => ?_) fun posted => ?_
  · split
    · exact keeps_throw
    · refine .bind (fun _ kept => kept) fun requestId => ?_
      refine .bind (leavesTeams_onStore _).signalless fun _ => ?_
      exact .bind (signalless_setTeam fewer) fun _ => .pure _
  · refine .bind (leavesTeams_onStore _).signalless fun _ => ?_
    exact .bind (leavesTeams_notify _).signalless fun _ => .pure _

/-! ## The call that adds one -/

theorem decideRequest_signals (store : TeamStore σ) (teamDir : String) {start : TeamManager σ}
    (kept : Signals Allowed start) (responder requestId : String) (approve : Bool)
    (reason : Option String) (now : Nat) :
    Ensures (decideRequest store teamDir responder requestId approve reason now)
      (fun decided middle => (∀ name ∈ decided.1.pendingShutdowns, Allowed teamDir name) ∧
        Signals Allowed middle) (fun _ => Signals Allowed) start := by
  refine signals_of_ensured kept fun team fewer middle kept => ?_
  dsimp only
  split
  · exact kept
  · split
    · exact kept
    · split
      · exact kept
      · exact ⟨fewer, kept.update rfl fewer⟩

theorem deliverResponse_signalless {request : TeamProtocolRequestSummary} {responder : String}
    {approve : Bool} {now : Nat} (fewer : ∀ name ∈ team.pendingShutdowns, Allowed teamDir name)
    (raised : approve → request.protocol = "shutdown" → Allowed teamDir responder) :
    Signalless Allowed (deliverResponse store teamDir responder approve now (team, request)) := by
  have more : ∀ name ∈ (if approve && request.protocol = "shutdown" then
      team.pendingShutdowns.insert responder else team.pendingShutdowns), Allowed teamDir name := by
    intro name mem
    split at mem
    · rename_i shutdown
      rw [Bool.and_eq_true, decide_eq_true_eq] at shutdown
      rcases mem_insert_iff.mp mem with rfl | earlier
      · exact raised shutdown.1 shutdown.2
      · exact fewer name earlier
    · exact fewer name mem
  refine .bind (leavesTeams_onStore _).signalless fun _ => ?_
  refine .bind (signalless_setTeam more) fun _ => ?_
  refine .bind (leavesTeams_onStore _).signalless fun _ => ?_
  exact .bind (leavesTeams_notify _).signalless fun _ => .pure _

/-- A call adds a signal only if it approves a request to shut down. -/
theorem perform_signals {crew : Crew σ} {call : TeamCall} (kept : Signals Allowed crew.manager)
    (raised : crew.approves store call → ∀ name, call.speaker = some name →
      Allowed call.teamDir name) :
    Ensures (perform store call) (fun _ => Signals Allowed) (fun _ => Signals Allowed)
      crew.manager := by
  have replies {α : Type} {program : TeamM σ α} {reply : α → TeamReply}
      (signalless : Signalless Allowed program) :
      Ensures (do return reply (← program)) (fun _ => Signals Allowed) (fun _ => Signals Allowed)
        crew.manager :=
    signalless.bind (fun _ => .pure _) crew.manager kept
  cases call with
  | registerAgent teamDir agentName sink =>
    exact replies (registerAgent_quiet agentName sink).signalless
  | spawnTeammate teamDir summary actor => exact replies (spawnTeammate_signalless summary actor)
  | wakeTeammate teamDir teammateName => exact replies (wakeTeammate_quiet teammateName).signalless
  | updateMemberStatus teamDir name status =>
    exact replies (updateMemberStatus_signalless name status)
  | sendMessage teamDir sender recipient content now =>
    exact replies (sendMessage_quiet sender recipient content now).signalless
  | broadcastMessage teamDir sender content now =>
    exact replies (broadcastMessage_quiet sender content now).signalless
  | readInbox teamDir agentName => exact replies (readInbox_quiet agentName).signalless
  | hasPendingMessages teamDir agentName =>
    exact replies (.bind (leavesTeams_onStore _).signalless fun _ => .pure _)
  | requeueMessages teamDir agentName =>
    exact replies (settleMessages_quiet store.requeueTeamInbox agentName).signalless
  | acknowledgeMessages teamDir agentName =>
    exact replies (settleMessages_quiet store.ackTeamInbox agentName).signalless
  | createRequest teamDir sender recipient protocol content now =>
    exact replies (createRequest_signalless sender recipient protocol content now)
  | resolveRequest teamDir responder requestId approve reason now =>
    have decides := ensures_exec.both
      (decideRequest_signals store teamDir kept responder requestId approve reason now)
    refine (decides.bind ?_ fun _ _ both => both.2).bind (fun _ _ kept => kept) fun _ _ kept => kept
    rintro ⟨team, request⟩ middle ⟨ended, fewer, kept⟩
    refine deliverResponse_signalless fewer (fun approved shutdown => ?_) middle kept
    refine raised ?_ responder rfl
    rw [Crew.approves, ended]
    simp [approved, shutdown]
  | listRequests teamDir agentName filter =>
    exact replies (signalless_of_ensured fun _ _ => .pure _)
  | takeShutdownSignal teamDir teammateName =>
    exact replies (takeShutdownSignal_signalless teammateName)
  | unregisterTeammateActor teamDir teammateName =>
    exact replies (unregisterTeammateActor_signalless teammateName)

/-! ## What an actor does to them -/

theorem attempt_signalless {program : TeamM σ α} (signalless : Signalless Allowed program) :
    Signalless Allowed (attempt program) := by
  intro start kept
  rw [ensures_attempt]
  exact signalless start kept

theorem takeShutdownSignal_taken :
    Ensures (takeShutdownSignal store teamDir teammateName)
      (fun taken _ => taken = true → teammateName ∈ start.signals teamDir) (fun _ _ => True)
      start := by
  refine (ensureTeamState_signals start).bind ?_ fun _ _ _ => trivial
  rintro team middle ⟨pending, _⟩ taken
  rw [← pending]
  exact of_decide_eq_true taken

variable {statusText : Nat → String}

/-- No signal was added, and one that was taken was for the actor's name. -/
abbrev Actor.Heeds (Allowed : String → String → Prop) (actor : Actor) (start : TeamManager σ)
    (reached : ActorPhase × Bool) (final : TeamManager σ) : Prop :=
  Signals Allowed final ∧ (reached.2 = true → actor.name ∈ start.signals actor.teamDir)

theorem Actor.advance_signals {actor : Actor} {held wake : Bool} {input : ActorInput}
    {start : TeamManager σ} (kept : Signals Allowed start) :
    Ensures (actor.advance store statusText held wake input)
      (actor.Heeds Allowed start) (fun _ _ => True) start := by
  have looks {rest : Except RuntimeError Bool → TeamM σ (ActorPhase × Bool)}
      (failed : ∀ error, ∃ phase, rest (.error error) = pure (phase, false))
      (looked : ∀ taken, ∃ phase, rest (.ok taken) = pure (phase, taken)) :
      Ensures (attempt (takeShutdownSignal store actor.teamDir actor.name) >>= rest)
      (actor.Heeds Allowed start) (fun _ _ => True) start := by
    rw [ensures_bind, ensures_attempt]
    refine ((takeShutdownSignal_signalless actor.name start kept).both
      (takeShutdownSignal_taken start actor.name)).weaken ?_ ?_
    · rintro taken final ⟨kept, own⟩
      obtain ⟨phase, reached⟩ := looked taken
      rw [reached]
      exact ⟨kept, own⟩
    · rintro error final ⟨kept, _⟩
      obtain ⟨phase, reached⟩ := failed error
      rw [reached]
      exact ⟨kept, by rintro ⟨⟩⟩
  have quiet {α : Type} {program : TeamM σ α} (signalless : Signalless Allowed program)
      {rest : Except RuntimeError α → TeamM σ (ActorPhase × Bool)}
      (goesOn : ∀ result, ∃ phase, rest result = pure (phase, false)) :
      Ensures (attempt program >>= rest)
      (actor.Heeds Allowed start) (fun _ _ => True) start := by
    refine (attempt_signalless signalless start kept).bind (fun result final kept => ?_)
      fun _ _ _ => trivial
    obtain ⟨phase, reached⟩ := goesOn result
    rw [reached]
    exact ⟨kept, by rintro ⟨⟩⟩
  have still (phase : ActorPhase) : Ensures (pure (phase, false) : TeamM σ (ActorPhase × Bool))
      (actor.Heeds Allowed start) (fun _ _ => True) start := ⟨kept, by rintro ⟨⟩⟩
  rw [advance]
  cases actor.phase with
  | top shouldProcess =>
    dsimp only
    split
    · exact still _
    · split
      · exact still _
      · exact still _
  | processing processedPrompt =>
    refine quiet (.bind (leavesTeams_onStore _).signalless fun _ => .pure _) fun result => ?_
    cases result with
    | error error => exact ⟨_, rfl⟩
    | ok pending =>
      dsimp only
      split
      · exact ⟨_, rfl⟩
      · exact ⟨_, rfl⟩
  | taking processedPrompt =>
    refine looks (fun error => ⟨_, rfl⟩) fun taken => ?_
    cases taken with
    | true => exact ⟨_, rfl⟩
    | false =>
      dsimp only
      split
      · exact ⟨_, rfl⟩
      · exact ⟨_, rfl⟩
  | prompting claimed =>
    dsimp only
    split
    · split
      · exact still _
      · exact still _
    · split
      · exact still _
      · exact still _
    · exact still _
  | resting =>
    dsimp only
    split
    · exact still _
    · exact still _
  | waiting =>
    dsimp only
    split
    · exact still _
    · split
      · exact still _
      · split
        · exact still _
        · exact still _
  | ticking =>
    refine looks (fun error => ⟨_, rfl⟩) fun taken => ?_
    cases taken with
    | true | false => exact ⟨_, rfl⟩
  | claiming =>
    dsimp only
    split
    · exact still _
    · exact still _
    · split
      · exact still _
      · exact still _
  | reporting status next =>
    exact quiet (updateMemberStatus_signalless actor.name status) fun _ => ⟨next, rfl⟩
  | leaving => exact quiet (unregisterTeammateActor_signalless actor.name) fun _ => ⟨.gone, rfl⟩
  | gone => exact still _

end Calls

/-! ## The crew -/

/-- The actor was started and later approved a shutdown. -/
def Agreed (log : List CrewEvent) (number : Nat) : Prop :=
  [.started number, .approved (some number)].Sublist log

/-- Every signal that was taken had been agreed to by the actor that took it. -/
def Earned (log : List CrewEvent) : Prop :=
  ∀ number before after, log = before ++ .took number :: after → Agreed before number

variable {log : List CrewEvent} {number : Nat}

theorem Agreed.append (agreed : Agreed log number) (event : CrewEvent) :
    Agreed (log ++ [event]) number :=
  agreed.trans (sublist_append_left log [event])

theorem Agreed.of_started (started : .started number ∈ log) :
    Agreed (log ++ [.approved (some number)]) number :=
  (singleton_sublist.mpr started).append (.refl [CrewEvent.approved (some number)])

theorem Earned.append {event : CrewEvent} (earned : Earned log)
    (own : ∀ number, event = .took number → Agreed log number) : Earned (log ++ [event]) := by
  intro number before after split
  rcases eq_nil_or_concat after with rfl | ⟨rest, last, rfl⟩
  · obtain ⟨rfl, same⟩ := append_inj' split rfl
    exact own number (singleton_inj.mp same)
  · rw [concat_eq_append, ← cons_append, ← append_assoc] at split
    exact earned number before rest (append_inj' split rfl).1

namespace Crew

variable {store : TeamStore σ} {statusText : Nat → String} {crew next : Crew σ}

/-- No actor is started while a signal waits for its name, and a shutdown is approved by
the only actor of its name that is left. -/
def careful (store : TeamStore σ) (crew : Crew σ) : CrewAction → Bool
  | .start teamDir name _ => name ∉ crew.manager.signals teamDir
  | .call speaker call =>
    !crew.approves store call || crew.actors.zipIdx.all fun (actor, number) =>
      actor.phase = .gone || actor.teamDir ≠ call.teamDir || call.speaker ≠ some actor.name ||
        speaker = some number
  | _ => true

/-- A signal that waits for an actor is one that it agreed to. -/
structure Attended (crew : Crew σ) : Prop where
  started : ∀ number < crew.actors.length, .started number ∈ crew.log
  signalled : ∀ number actor, crew.actors[number]? = some actor → actor.phase ≠ .gone →
    actor.name ∈ crew.manager.signals actor.teamDir → Agreed crew.log number
  earned : Earned crew.log

theorem attended_new (initial : σ) : (new initial : Crew σ).Attended where
  started _ none := absurd none (Nat.not_lt_zero _)
  signalled number actor found := by cases found
  earned number before after split := by simp [new] at split

section

variable (attended : crew.Attended)
include attended

theorem Attended.append {event : CrewEvent}
    (own : ∀ number, event = .took number → Agreed crew.log number) :
    Attended { crew with log := crew.log ++ [event] } where
  started number inside := mem_append_left _ (attended.started number inside)
  signalled number actor found alive waits :=
    (attended.signalled number actor found alive waits).append event
  earned := attended.earned.append own

/-- One actor goes on, and no signal is added. -/
theorem Attended.moved {actor moved : Actor} {manager : TeamManager σ}
    (found : crew.actors[number]? = some actor) (sameTeam : moved.teamDir = actor.teamDir)
    (sameName : moved.name = actor.name) (alive : moved.phase ≠ .gone → actor.phase ≠ .gone)
    (fewer : Signals (fun teamDir name => name ∈ crew.manager.signals teamDir) manager) :
    Attended { crew with manager, actors := crew.actors.set number moved } where
  started other inside := attended.started other (by rwa [length_set] at inside)
  signalled other current isCurrent isAlive waits := by
    have waited := fewer _ _ waits
    rw [getElem?_set] at isCurrent
    split at isCurrent
    · rename_i here
      split at isCurrent
      · subst here
        cases isCurrent
        rw [sameTeam, sameName] at waited
        exact attended.signalled number actor found (alive isAlive) waited
      · cases isCurrent
    · exact attended.signalled other current isCurrent isAlive waited
  earned := attended.earned

theorem Attended.start {teamDir name : String} {autonomous : Bool}
    (careful : name ∉ crew.manager.signals teamDir) :
    Attended { crew with
      actors := crew.actors ++ [{ teamDir, name, autonomous }]
      log := crew.log ++ [.started crew.actors.length] } where
  started number inside := by
    rw [length_append, length_singleton, Nat.lt_succ_iff_lt_or_eq] at inside
    rcases inside with before | rfl
    · exact mem_append_left _ (attended.started number before)
    · exact mem_append_right _ (mem_singleton_self _)
  signalled number actor found alive waits := by
    rw [getElem?_append] at found
    split at found
    · exact (attended.signalled number actor found alive waits).append _
    · obtain rfl := mem_singleton.mp (mem_of_getElem? found)
      exact absurd waits careful
  earned := attended.earned.append nofun

theorem Attended.call {speaker : Option Nat} {call : TeamCall}
    (careful : crew.careful store (.call speaker call)) :
    Attended { crew with
      manager := ((perform store call).exec crew.manager).2
      log := if crew.approves store call then crew.log ++ [.approved speaker] else crew.log } := by
  have signals : Signals (fun teamDir name => name ∈ crew.manager.signals teamDir ∨
      (crew.approves store call ∧ call.teamDir = teamDir ∧ call.speaker = some name))
      ((perform store call).exec crew.manager).2 :=
    (perform_signals (fun _ _ waited => .inl waited) fun approved _ speaks =>
      .inr ⟨approved, rfl, speaks⟩).final
  by_cases approved : crew.approves store call
  · simp only [approved, if_true, true_and] at signals ⊢
    refine ⟨fun number inside => mem_append_left _ (attended.started number inside), ?_,
      attended.earned.append nofun⟩
    intro number actor found alive waits
    rcases signals _ _ waits with waited | ⟨sameTeam, speaks⟩
    · exact (attended.signalled number actor found alive waited).append _
    · -- The signal was added now, so the speaker is this actor.
      rw [Crew.careful, approved, Bool.not_true, Bool.false_or, all_eq_true] at careful
      have alone := careful (actor, number) (mem_zipIdx_iff_getElem?.mpr found)
      simp only [alive, sameTeam, speaks, decide_false, ne_eq, not_true_eq_false, Bool.false_or,
        decide_eq_true_eq] at alone
      rw [alone]
      exact .of_started (attended.started number (List.getElem?_eq_some_iff.mp found).1)
  · simp only [approved, Bool.false_eq_true, if_false, false_and, or_false] at signals ⊢
    exact ⟨attended.started, fun number actor found alive waits =>
      attended.signalled number actor found alive (signals _ _ waits), attended.earned⟩

theorem Attended.advance {actor : Actor} {input : ActorInput} {phase : ActorPhase} {took : Bool}
    {manager : TeamManager σ} (found : crew.actors[number]? = some actor)
    (alive : actor.phase ≠ .gone)
    (advanced : (actor.advance store statusText (crew.holds number actor)
      (crew.wakes number actor) input).exec crew.manager = (.ok (phase, took), manager)) :
    Attended { crew with
      manager
      actors := crew.actors.set number (actor.enter phase)
      log := if took then crew.log ++ [.took number] else crew.log } := by
  obtain ⟨fewer, own⟩ := (ensures_of_exec (Actor.advance_signals fun _ _ waited => waited)).1 _ _
    advanced
  have moved : Attended { crew with
      manager, actors := crew.actors.set number (actor.enter phase) } :=
    attended.moved found rfl rfl (fun _ => alive) fewer
  cases took with
  | false => exact moved
  | true =>
    refine moved.append fun other same => ?_
    cases same
    exact attended.signalled number actor found alive (own rfl)

theorem Attended.step {action : CrewAction}
    (careful : crew.careful store action)
    (stepped : crew.step store statusText action = some next) :
    next.Attended := by
  cases action with
  | start teamDir name autonomous =>
    cases stepped
    exact attended.start (of_decide_eq_true careful)
  | register number summary =>
    obtain ⟨actor, found, stepped⟩ := Option.bind_eq_some_iff.mp stepped
    split at stepped
    · cases stepped
      exact attended.moved found rfl rfl id
        (spawnTeammate_signalless summary number crew.manager fun _ _ waited => waited).final
    · cases stepped
  | call speaker call =>
    rw [Crew.step] at stepped
    split at stepped
    · cases stepped
      exact attended.call careful
    · cases stepped
  | advance number input =>
    obtain ⟨actor, found, stepped⟩ := Option.bind_eq_some_iff.mp stepped
    split at stepped
    · cases stepped
    · rename_i alive
      split at stepped
      · rename_i advanced
        cases stepped
        exact attended.advance found alive advanced
      · cases stepped
  | abort number =>
    obtain ⟨actor, found, stepped⟩ := Option.bind_eq_some_iff.mp stepped
    split at stepped
    · cases stepped
    · cases stepped
      exact attended.moved found rfl rfl (fun alive => absurd rfl alive) fun _ _ waited => waited
  | panic number =>
    obtain ⟨actor, found, stepped⟩ := Option.bind_eq_some_iff.mp stepped
    split at stepped
    · cases stepped
      exact attended.moved found rfl rfl (fun alive => absurd rfl alive) fun _ _ waited => waited
    · cases stepped

end

/-- When no actor is started while a signal waits for its name, and each shutdown is approved by
the only actor of its name that is left, an actor takes a signal only after it was started and
then approved a shutdown itself. -/
theorem signals_earned_of_careful (store : TeamStore σ) (statusText : Nat → String)
    (initial : σ) (crew : Crew σ)
    (reachable : Reachable (guarded (step store statusText) (careful store)) (new initial) crew) :
    Earned crew.log := by
  suffices attended : crew.Attended from attended.earned
  refine reachable.invariant ?_ (attended_new initial)
  intro crew action next attended stepped
  obtain ⟨isCareful, stepped⟩ := guarded_eq_some_iff.mp stepped
  exact attended.step isCareful stepped

/-! ## Three runs -/

/-- The teammate of the runs. -/
def mate : TeamMemberSummary :=
  ⟨"0", "mate", "coder", "model", .idle⟩

/-- An actor goes on without asking anything. -/
def goesOn (number times : Nat) : List CrewAction :=
  .replicate times (.advance number {})

/-- A first actor is asked to shut down, and its agent is about to answer. -/
def askedToStop : List CrewAction :=
  [.start "team" "mate" false, .register 0 mate,
    .call none (.createRequest "team" "lead" "mate" "shutdown" "please stop" 0)] ++ goesOn 0 6 ++
  [.call (some 0) (.readInbox "team" "mate"),
    .call (some 0) (.resolveRequest "team" "mate" "0-1" true none 0)]

/-- The actor that approves the request takes the signal. -/
def stoppedItself : List CrewAction :=
  askedToStop ++ goesOn 0 3

theorem stoppedItself_earned :
    ∃ crew, Reachable (guarded (step volatileTeamStore toString) (careful volatileTeamStore))
        (new .new) crew ∧ CrewEvent.took 0 ∈ crew.log ∧ Earned crew.log := by
  have ran : (run (guarded (step volatileTeamStore toString)
      (careful volatileTeamStore)) (new .new) stoppedItself).any (CrewEvent.took 0 ∈ ·.log) := by
    decide +kernel
  obtain ⟨crew, reachable, took⟩ := exists_reachable_of_any ran
  exact ⟨crew, reachable, of_decide_eq_true took,
    signals_earned_of_careful volatileTeamStore toString .new crew reachable⟩

/-- Another spawn under the name is refused; its actor sees that its handle was dropped and
unregisters the first one, which is aborted.  Then the teammate is spawned again. -/
def spawnedAgain : List CrewAction :=
  askedToStop ++ [.start "team" "mate" false, .register 1 mate] ++ goesOn 1 2 ++
  [.abort 0, .start "team" "mate" false, .register 2 mate,
    .call none (.sendMessage "team" "lead" "mate" "hello" 0)] ++ goesOn 2 6 ++
  [.call (some 2) (.readInbox "team" "mate")] ++ goesOn 2 3

/-- An agent that is no actor approves the request, and a teammate gets its name. -/
def namesake : List CrewAction :=
  [.call none (.registerAgent "team" "mate" 0),
    .call none (.createRequest "team" "lead" "mate" "shutdown" "please stop" 0),
    .call none (.resolveRequest "team" "mate" "0-1" true none 0),
    .start "team" "mate" true, .register 0 mate] ++ goesOn 0 2 ++
  [.advance 0 { polled := true }] ++ goesOn 0 1

theorem not_earned_of_took {log : List CrewEvent} (took : .took number ∈ log)
    (silent : .approved (some number) ∉ log) : ¬ Earned log := by
  intro earned
  obtain ⟨before, after, rfl⟩ := append_of_mem took
  have agreed := (earned number before after rfl).subset
  exact silent (mem_append_left _ (agreed (by simp)))

/-- An actor takes a signal that it did not approve. -/
theorem stale_signal_taken :
    (∃ crew, run (step volatileTeamStore toString) (new .new) spawnedAgain = some crew ∧
      ¬ Earned crew.log) ∧
    ∃ crew, run (step volatileTeamStore toString) (new .new) namesake = some crew ∧
      ¬ Earned crew.log := by
  have ran : ∀ actions ∈ [spawnedAgain, namesake],
      (run (step volatileTeamStore toString) (new .new) actions).any fun crew =>
        crew.actors.zipIdx.any fun (_, number) =>
          .took number ∈ crew.log && .approved (some number) ∉ crew.log := by
    decide +kernel
  have taken : ∀ actions ∈ [spawnedAgain, namesake],
      ∃ crew, run (step volatileTeamStore toString) (new .new) actions = some crew ∧
        ¬ Earned crew.log := by
    intro actions listed
    obtain ⟨crew, reached, found⟩ := (Option.any_eq_true _ _).mp (ran actions listed)
    obtain ⟨⟨actor, number⟩, _, stale⟩ := any_eq_true.mp found
    rw [Bool.and_eq_true, decide_eq_true_eq, decide_eq_true_eq] at stale
    exact ⟨crew, reached, not_earned_of_took stale.1 stale.2⟩
  exact ⟨taken _ (by simp), taken _ (by simp)⟩

end Crew

end Mentra.Team
