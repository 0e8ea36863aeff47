import Mentra.Team.Manager
import Mentra.Team.VolatileStore

/-!
# Inboxes

What the calls of one manager do to the inboxes of the volatile store, and to the counts of
unread messages that the manager keeps.  The messages of an agent are, in the order in which
they were sent, those acknowledged, those in flight and those pending: a mailbox.
-/

namespace Mentra.Team

open Foundation Program Function List TeamInboxEntry

/-! ## Mailboxes -/

structure Mailbox where
  acked : List TeamMessage
  inflight : List TeamMessage
  pending : List TeamMessage

namespace Mailbox

def empty : Mailbox :=
  ⟨[], [], []⟩

/-- All messages that were ever sent to the agent. -/
def sent (box : Mailbox) : List TeamMessage :=
  box.acked ++ box.inflight ++ box.pending

def receive (box : Mailbox) (messages : List TeamMessage) : Mailbox :=
  { box with pending := box.pending ++ messages }

def read (box : Mailbox) : Mailbox :=
  ⟨box.acked, box.inflight ++ box.pending, []⟩

def acknowledge (box : Mailbox) : Mailbox :=
  ⟨box.acked ++ box.inflight, [], box.pending⟩

def requeue (box : Mailbox) : Mailbox :=
  ⟨box.acked, [], box.inflight ++ box.pending⟩

/-- The entries of the mailbox of an agent in the inbox of the store. -/
def entries (box : Mailbox) (teamDir agentName : String) : List TeamInboxEntry :=
  box.acked.map (⟨teamDir, agentName, ·, .acked⟩) ++
    box.inflight.map (⟨teamDir, agentName, ·, .inflight⟩) ++
      box.pending.map (⟨teamDir, agentName, ·, .pending⟩)

end Mailbox

/-- What a call does to the mailbox of an agent. -/
def MailStep (teamDir agentName : String) : TeamCall → Mailbox → Mailbox → Prop
  | .readInbox otherDir other, box, next =>
    next = if otherDir = teamDir ∧ other = agentName then box.read else box
  | .acknowledgeMessages otherDir other, box, next =>
    next = if otherDir = teamDir ∧ other = agentName then box.acknowledge else box
  | .requeueMessages otherDir other, box, next =>
    next = if otherDir = teamDir ∧ other = agentName then box.requeue else box
  | _, box, next => ∃ messages, next = box.receive messages

def TeamInboxEntry.isTo (entry : TeamInboxEntry) (teamDir agentName : String) : Bool :=
  entry.teamDir = teamDir && entry.recipient = agentName

/-- The inbox has the messages of the agent as its mailbox says. -/
def Represents (inbox : List TeamInboxEntry) (teamDir agentName : String) (box : Mailbox) : Prop :=
  (inbox.filter fun entry => entry.isTo teamDir agentName) = box.entries teamDir agentName

variable {teamDir agentName : String} {inbox : List TeamInboxEntry} {box : Mailbox}

theorem filter_isFor (inbox : List TeamInboxEntry) (teamDir agentName : String)
    (state : DeliveryState) :
    (inbox.filter fun entry => entry.isFor teamDir agentName state) =
      (inbox.filter fun entry => entry.isTo teamDir agentName).filter
        fun entry => entry.deliveryState = state := by
  rw [filter_filter]
  congr 1
  funext entry
  exact Bool.and_comm _ _

/-- The messages in a state are those of the mailbox. -/
theorem Represents.messagesIn {store : VolatileTeams}
    (represents : Represents store.inbox teamDir agentName box) (state : DeliveryState) :
    store.messagesIn teamDir agentName state =
      match state with
      | .acked => box.acked
      | .inflight => box.inflight
      | .pending => box.pending := by
  rw [VolatileTeams.messagesIn, filter_isFor, represents, Mailbox.entries]
  cases state <;> simp [filter_map, comp_def]

theorem Represents.append {entries : List TeamInboxEntry}
    (represents : Represents inbox teamDir agentName box)
    (pending : ∀ entry ∈ entries, entry.deliveryState = .pending) :
    Represents (inbox ++ entries) teamDir agentName (box.receive
      ((entries.filter fun entry => entry.isTo teamDir agentName).map TeamInboxEntry.message)) := by
  rw [Represents, filter_append, represents]
  simp only [Mailbox.entries, Mailbox.receive, map_append, append_assoc, map_map]
  congr 3
  refine ((map_congr_left ?_).trans (map_id _)).symm
  intro entry mem
  obtain ⟨isEntry, own⟩ := mem_filter.mp mem
  rw [TeamInboxEntry.isTo, Bool.and_eq_true, decide_eq_true_eq, decide_eq_true_eq] at own
  rcases entry with ⟨entryDir, recipient, message, state⟩
  cases own.1
  cases own.2
  cases pending _ isEntry
  rfl

theorem filter_turn (otherDir other : String) (source target : DeliveryState) :
    ((inbox.map (turn otherDir other source target)).filter fun entry =>
        entry.isTo teamDir agentName) =
      (inbox.filter fun entry => entry.isTo teamDir agentName).map
        (turn otherDir other source target) := by
  rw [filter_map]
  congr 2
  funext entry
  rw [comp_apply, turn]
  split <;> rfl

variable {otherDir : String}

theorem filter_turn_other {other : String} {source target : DeliveryState}
    (differ : ¬(otherDir = teamDir ∧ other = agentName)) :
    ((inbox.map (turn otherDir other source target)).filter fun entry =>
        entry.isTo teamDir agentName) =
      inbox.filter fun entry => entry.isTo teamDir agentName := by
  rw [filter_turn]
  refine (map_congr_left ?_).trans (map_id _)
  intro entry mem
  have own := (mem_filter.mp mem).2
  rw [TeamInboxEntry.isTo, Bool.and_eq_true, decide_eq_true_eq, decide_eq_true_eq] at own
  have notFor : ¬entry.isFor otherDir other source := by
    rw [isFor, Bool.and_eq_true, Bool.and_eq_true, decide_eq_true_eq,
      decide_eq_true_eq]
    rintro ⟨⟨sameDir, sameName⟩, -⟩
    exact differ ⟨sameDir.symm.trans own.1, sameName.symm.trans own.2⟩
  rw [turn, if_neg notFor]
  rfl

/-- A turn changes the mailbox of its own agent. -/
theorem Represents.turn {next : Mailbox} {other : String} {source target : DeliveryState}
    (represents : Represents inbox teamDir agentName box)
    (turned : (box.entries teamDir agentName).map
      (turn teamDir agentName source target) = next.entries teamDir agentName) :
    Represents (inbox.map (turn otherDir other source target)) teamDir agentName
      (if otherDir = teamDir ∧ other = agentName then next else box) := by
  split
  · rename_i same
    obtain ⟨rfl, rfl⟩ := same
    rw [Represents, filter_turn, represents, turned]
  · rename_i differ
    rw [Represents, filter_turn_other differ]
    exact represents

theorem entries_read : (box.entries teamDir agentName).map
    (turn teamDir agentName .pending .inflight) = box.read.entries teamDir agentName := by
  simp [Mailbox.entries, Mailbox.read, turn, isFor, comp_def]

theorem entries_acknowledge : (box.entries teamDir agentName).map
    (turn teamDir agentName .inflight .acked) = box.acknowledge.entries teamDir agentName := by
  simp [Mailbox.entries, Mailbox.acknowledge, turn, isFor, comp_def]

theorem entries_requeue : (box.entries teamDir agentName).map
    (turn teamDir agentName .inflight .pending) = box.requeue.entries teamDir agentName := by
  simp [Mailbox.entries, Mailbox.requeue, turn, isFor, comp_def]

/-! ## What a call does -/

/-- Messages are added to the inbox of the store, and counted. -/
inductive Sent (teamDir : String) :
    TeamState → List TeamInboxEntry → TeamState → List TeamInboxEntry → Prop
  | none {team next : TeamState} {inbox : List TeamInboxEntry}
      (observers : next.observers = team.observers)
      (counts : next.unreadCounts = team.unreadCounts) : Sent teamDir team inbox next inbox
  | message {team middle next : TeamState} {inbox rest : List TeamInboxEntry}
      (recipient : String) (message : TeamMessage)
      (observers : middle.observers = team.observers)
      (counts : middle.unreadCounts = (team.incrementUnreadCount recipient).unreadCounts)
      (further : Sent teamDir middle
        (inbox ++ [⟨teamDir, recipient, message, .pending⟩]) next rest) :
      Sent teamDir team inbox next rest

variable {team : TeamState}

theorem Sent.single {next : TeamState} (recipient : String) (message : TeamMessage)
    (observers : next.observers = team.observers)
    (counts : next.unreadCounts = (team.incrementUnreadCount recipient).unreadCounts) :
    Sent teamDir team inbox next (inbox ++ [⟨teamDir, recipient, message, .pending⟩]) :=
  .message recipient message observers counts (.none rfl rfl)

theorem Sent.cons {next : TeamState} {rest : List TeamInboxEntry} (recipient : String)
    (message : TeamMessage)
    (further : Sent teamDir (team.incrementUnreadCount recipient)
      (inbox ++ [⟨teamDir, recipient, message, .pending⟩]) next rest) :
    Sent teamDir team inbox next rest :=
  have observers : (team.incrementUnreadCount recipient).observers = team.observers := rfl
  .message recipient message observers rfl further

/-- What a call makes of the record of its team and of the inbox. -/
def Effect : TeamCall → TeamState → List TeamInboxEntry → TeamState → List TeamInboxEntry → Prop
  | .readInbox teamDir agentName, team, inbox, next, inbox' =>
    next = team.setUnreadCount agentName 0 ∧
      inbox' = inbox.map (turn teamDir agentName .pending .inflight)
  | .acknowledgeMessages teamDir agentName, team, inbox, next, inbox' =>
    inbox' = inbox.map (turn teamDir agentName .inflight .acked) ∧
      next = team.setUnreadCount agentName
        (inbox'.filter fun entry => entry.isFor teamDir agentName .pending).length
  | .requeueMessages teamDir agentName, team, inbox, next, inbox' =>
    inbox' = inbox.map (turn teamDir agentName .inflight .pending) ∧
      next = team.setUnreadCount agentName
        (inbox'.filter fun entry => entry.isFor teamDir agentName .pending).length
  | .registerAgent teamDir agentName sink, team, inbox, next, inbox' =>
    inbox' = inbox ∧
      next.unreadCounts = (team.setUnreadCount agentName
        (inbox.filter fun entry => entry.isFor teamDir agentName .pending).length).unreadCounts ∧
      next.observers = (team.observers.filter fun existing => existing.agentName ≠ agentName) ++
        [⟨agentName, sink⟩]
  | call, team, inbox, next, inbox' => Sent call.teamDir team inbox next inbox'

/-- The record of the team that a call starts from. -/
def Opened (start : TeamManager VolatileTeams) (teamDir : String) (team : TeamState) : Prop :=
  start.teams teamDir = some team ∨ start.teams teamDir = none ∧ team.observers = []

/-- The state after a call. -/
inductive Affects (call : TeamCall) (start final : TeamManager VolatileTeams) : Prop
  | opened (team next : TeamState) (opens : Opened start call.teamDir team)
      (teams : final.teams = update start.teams call.teamDir (some next))
      (effect : Effect call team start.store.inbox next final.store.inbox)
  | checked (agentName : String) (isCheck : call = .hasPendingMessages call.teamDir agentName)
      (teams : final.teams = start.teams) (inbox : final.store.inbox = start.store.inbox)

variable {start : TeamManager VolatileTeams}

theorem ensureTeamState_opens :
    Ensures (ensureTeamState volatileTeamStore teamDir)
      (fun team middle => Opened start teamDir team ∧
        middle.teams = update start.teams teamDir (some team) ∧
          middle.store = start.store) (fun _ _ => False) start := by
  rw [ensureTeamState, ensures_bind, ensures_get]
  cases held : start.teams teamDir with
  | some team => exact ⟨.inl held, (update_eq_self_iff.mpr held.symm).symm, rfl⟩
  | none => exact ⟨.inr ⟨held, rfl⟩, rfl, rfl⟩

/-- However the program ends, it has done what the call may do. -/
def Performs {α : Type} (call : TeamCall) (program : TeamM VolatileTeams α) : Prop :=
  ∀ start, Ensures program (fun _ => Affects call start) (fun _ => Affects call start) start

variable {call : TeamCall}

/-- A call that goes on from the record of its team. -/
theorem Performs.of_opened {α : Type} {rest : TeamState → TeamM VolatileTeams α}
    (goesOn : ∀ start team middle, Opened start call.teamDir team →
      middle.teams = update start.teams call.teamDir (some team) →
        middle.store.inbox = start.store.inbox →
          Ensures (rest team) (fun _ => Affects call start) (fun _ => Affects call start) middle) :
    Performs call (ensureTeamState volatileTeamStore call.teamDir >>= rest) := by
  refine fun start => ensureTeamState_opens.bind ?_ nofun
  rintro team middle ⟨opens, teams, sameStore⟩
  exact goesOn start team middle opens teams (congrArg _ sameStore)

theorem Affects.refused {middle : TeamManager VolatileTeams}
    (isSent : Effect call = Sent call.teamDir)
    (opens : Opened start call.teamDir team)
    (teams : middle.teams = update start.teams call.teamDir (some team))
    (sameInbox : middle.store.inbox = start.store.inbox) : Affects call start middle := by
  refine .opened team team opens teams ?_
  rw [isSent, sameInbox]
  exact .none rfl rfl

theorem updated {teams : String → Option TeamState} {next : TeamState}
    (isUpdate : teams = update start.teams teamDir (some team)) :
    update teams teamDir (some next) = update start.teams teamDir (some next) := by
  rw [isUpdate, update_idem]

theorem registerAgent_performs (sink : Nat) :
    Performs (.registerAgent teamDir agentName sink)
      (registerAgent volatileTeamStore teamDir agentName sink) := by
  refine .of_opened ?_
  intro start team middle opens teams sameInbox
  refine .opened team _ opens (updated (updated teams)) ?_
  rw [Effect, ← sameInbox]
  exact ⟨rfl, rfl, rfl⟩

variable (sender : String)

theorem sendMessage_performs (recipient content : String) (now : Nat) :
    Performs (.sendMessage teamDir sender recipient content now)
      (sendMessage volatileTeamStore teamDir sender recipient content now) := by
  refine .of_opened ?_
  intro start team middle opens teams sameInbox
  cases known : team.knows recipient with
  | false => exact .refused rfl opens teams sameInbox
  | true =>
    refine .opened team _ opens (updated teams) ?_
    rw [← sameInbox]
    exact .single recipient (TeamMessage.message sender content now) rfl rfl

theorem broadcastTo_sends (content : String) (now : Nat) (recipients : List String)
    {middle : TeamManager VolatileTeams}
    (teams : middle.teams = update start.teams teamDir (some team)) :
    Ensures (broadcastTo volatileTeamStore teamDir sender content now team recipients)
      (fun served final => final.teams = update start.teams teamDir (some served.1) ∧
        Sent teamDir team middle.store.inbox served.1 final.store.inbox)
      (fun _ _ => False) middle := by
  induction recipients generalizing team middle with
  | nil => exact ⟨teams, .none rfl rfl⟩
  | cons recipient recipients ih =>
    refine ensures_bind.mpr (ensures_zoom.mpr (ensures_modify.mpr ?_))
    refine ensures_bind.mpr (ensures_modify.mpr ?_)
    refine (ih (updated teams)).bind ?_ nofun
    rintro ⟨served, wakeUps⟩ final ⟨servedTeams, sends⟩
    exact ⟨servedTeams, sends.cons recipient _⟩

theorem broadcastMessage_performs (content : String) (now : Nat) :
    Performs (.broadcastMessage teamDir sender content now)
      (broadcastMessage volatileTeamStore teamDir sender content now) := by
  refine .of_opened ?_
  intro start team middle opens teams sameInbox
  refine (broadcastTo_sends sender content now _ teams).bind ?_ nofun
  rintro ⟨served, wakeUps⟩ final ⟨servedTeams, sends⟩
  rw [sameInbox] at sends
  exact .opened team served opens servedTeams sends

theorem readInbox_affects :
    Ensures (readInbox volatileTeamStore teamDir agentName)
      (fun messages final => messages = start.store.messagesIn teamDir agentName .pending ∧
        Affects (.readInbox teamDir agentName) start final)
      (fun _ _ => False) start := by
  refine ensureTeamState_opens.bind ?_ nofun
  rintro team middle ⟨opens, teams, sameStore⟩
  refine ⟨by rw [← sameStore], .opened team _ opens (updated teams) ?_⟩
  rw [Effect, ← sameStore]
  exact ⟨rfl, rfl⟩

theorem acknowledgeMessages_performs :
    Performs (.acknowledgeMessages teamDir agentName)
      (acknowledgeMessages volatileTeamStore teamDir agentName) := by
  refine .of_opened ?_
  intro start team middle opens teams sameInbox
  refine .opened team _ opens (updated teams) ?_
  rw [Effect, ← sameInbox]
  exact ⟨rfl, rfl⟩

theorem requeueMessages_performs :
    Performs (.requeueMessages teamDir agentName)
      (requeueMessages volatileTeamStore teamDir agentName) := by
  refine .of_opened ?_
  intro start team middle opens teams sameInbox
  refine .opened team _ opens (updated teams) ?_
  rw [Effect, ← sameInbox]
  exact ⟨rfl, rfl⟩

theorem createRequest_performs (recipient protocol content : String) (now : Nat) :
    Performs (.createRequest teamDir sender recipient protocol content now)
      (createRequest volatileTeamStore teamDir sender recipient protocol content now) := by
  rw [createRequest, postRequest, bind_assoc]
  refine .of_opened ?_
  intro start team middle opens teams sameInbox
  cases known : team.knows recipient with
  | false => exact .refused rfl opens teams sameInbox
  | true =>
    refine .opened team _ opens (updated teams) ?_
    rw [← sameInbox]
    exact .single recipient _ rfl rfl

theorem resolveRequest_performs (responder requestId : String) (approve : Bool)
    (reason : Option String) (now : Nat) :
    Performs (.resolveRequest teamDir responder requestId approve reason now)
      (resolveRequest volatileTeamStore teamDir responder requestId approve reason now) := by
  rw [resolveRequest, decideRequest, bind_assoc]
  refine .of_opened ?_
  intro start team middle opens teams sameInbox
  have refused : Affects (.resolveRequest teamDir responder requestId approve reason now) start
      middle := .refused rfl opens teams sameInbox
  cases team.requests.findFinIdx? fun request => request.requestId = requestId with
  | none => exact refused
  | some index =>
    dsimp only
    by_cases addressed : team.requests[index].toAgent = responder
    · rw [if_neg (not_not.mpr addressed)]
      by_cases pending : team.requests[index].status = .pending
      · rw [if_neg (not_not.mpr pending)]
        refine .opened team _ opens (updated (updated teams)) ?_
        rw [← sameInbox]
        exact .single team.requests[index].fromAgent _ rfl rfl
      · rw [if_pos pending]
        exact refused
    · rw [if_pos addressed]
      exact refused

/-- The inbox and the counts are left alone. -/
def Quiet (teamDir : String) (team : TeamState) (start final : TeamManager VolatileTeams) : Prop :=
  final.store.inbox = start.store.inbox ∧ (final.teams = start.teams ∨ ∃ next : TeamState,
    final.teams = update start.teams teamDir (some next) ∧
      next.observers = team.observers ∧ next.unreadCounts = team.unreadCounts)

theorem Performs.of_quiet {α : Type} {rest : TeamState → TeamM VolatileTeams α}
    (isSent : Effect call = Sent call.teamDir)
    (quiet : ∀ team middle, Ensures (rest team) (fun _ => Quiet call.teamDir team middle)
      (fun _ => Quiet call.teamDir team middle) middle) :
    Performs call (ensureTeamState volatileTeamStore call.teamDir >>= rest) := by
  refine .of_opened fun start team middle opens teams sameInbox => ?_
  have affects (final : TeamManager VolatileTeams)
      (isQuiet : Quiet call.teamDir team middle final) :
      Affects call start final := by
    have sameInbox := isQuiet.1.trans sameInbox
    rcases isQuiet.2 with unchanged | ⟨next, isUpdate, observers, counts⟩
    · exact .refused isSent opens (unchanged.trans teams) sameInbox
    · refine .opened team next opens (isUpdate.trans (updated teams)) ?_
      rw [isSent, sameInbox]
      exact .none observers counts
  exact (quiet team middle).weaken (fun _ => affects) (fun _ => affects)

theorem spawnTeammate_performs (summary : TeamMemberSummary) (actor : Nat) :
    Performs (.spawnTeammate teamDir summary actor)
      (spawnTeammate volatileTeamStore teamDir summary actor) := by
  rw [spawnTeammate, enterTeammate, bind_assoc]
  refine .of_quiet rfl ?_
  intro team middle
  cases team.members.findFinIdx? fun member => member.name = summary.name with
  | none => exact ⟨rfl, .inr ⟨_, rfl, rfl, rfl⟩⟩
  | some index =>
    cases live : team.actors summary.name with
    | some other => exact ⟨rfl, .inl rfl⟩
    | none => exact ⟨rfl, .inr ⟨_, rfl, rfl, rfl⟩⟩

theorem updateMemberStatus_performs (name : String) (status : TeamMemberStatus) :
    Performs (.updateMemberStatus teamDir name status)
      (updateMemberStatus volatileTeamStore teamDir name status) := by
  rw [updateMemberStatus, changeStatus, bind_assoc]
  refine .of_quiet rfl ?_
  intro team middle
  cases team.members.findFinIdx? fun member => member.name = name with
  | none => exact ⟨rfl, .inl rfl⟩
  | some index => exact ⟨rfl, .inr ⟨_, rfl, rfl, rfl⟩⟩

theorem wakeTeammate_performs (teammateName : String) :
    Performs (.wakeTeammate teamDir teammateName)
      (wakeTeammate volatileTeamStore teamDir teammateName) := by
  refine .of_quiet rfl ?_
  intro team middle
  cases team.actors teammateName with
  | none | some actor => exact ⟨rfl, .inl rfl⟩

/-- Every call affects the teams and the inbox as its kind says. -/
theorem perform_affects (call : TeamCall) :
    Affects call start ((perform volatileTeamStore call).exec start).2 := by
  have replied {α : Type} {program : TeamM VolatileTeams α} {reply : α → TeamReply}
      (performs : Performs call program) :
      Affects call start (Program.exec (do return reply (← program)) start).2 := by
    have wrapped : Performs call (do return reply (← program)) := fun start =>
      (performs start).bind (fun _ _ affected => affected) fun _ _ affected => affected
    exact (wrapped start).final
  cases call with
  | registerAgent teamDir agentName sink => exact replied (registerAgent_performs sink)
  | spawnTeammate teamDir summary actor => exact replied (spawnTeammate_performs summary actor)
  | wakeTeammate teamDir teammateName => exact replied (wakeTeammate_performs teammateName)
  | updateMemberStatus teamDir name status =>
    exact replied (updateMemberStatus_performs name status)
  | sendMessage teamDir sender recipient content now =>
    exact replied (sendMessage_performs sender recipient content now)
  | broadcastMessage teamDir sender content now =>
    exact replied (broadcastMessage_performs sender content now)
  | readInbox teamDir agentName =>
    exact replied fun _ => readInbox_affects.weaken (fun _ _ both => both.2) nofun
  | hasPendingMessages teamDir agentName => exact .checked agentName rfl rfl rfl
  | requeueMessages teamDir agentName => exact replied requeueMessages_performs
  | acknowledgeMessages teamDir agentName => exact replied acknowledgeMessages_performs
  | createRequest teamDir sender recipient protocol content now =>
    exact replied (createRequest_performs sender recipient protocol content now)
  | resolveRequest teamDir responder requestId approve reason now =>
    exact replied (resolveRequest_performs responder requestId approve reason now)
  | listRequests teamDir agentName filter =>
    refine replied (.of_quiet rfl ?_)
    exact fun _ _ => ⟨rfl, .inl rfl⟩
  | takeShutdownSignal teamDir teammateName | unregisterTeammateActor teamDir teammateName =>
    refine replied (.of_quiet rfl ?_)
    exact fun _ _ => ⟨rfl, .inr ⟨_, rfl, rfl, rfl⟩⟩

/-! ## Counts -/

/-- The count of each observed agent is that of its pending messages. -/
def CountedTeam (teamDir : String) (team : TeamState) (inbox : List TeamInboxEntry) : Prop :=
  ∀ observer ∈ team.observers, team.unreadCounts observer.agentName =
    some (inbox.filter fun entry => entry.isFor teamDir observer.agentName .pending).length

def Counted (manager : TeamManager VolatileTeams) : Prop :=
  ∀ teamDir team, manager.teams teamDir = some team → CountedTeam teamDir team manager.store.inbox

variable {team next : TeamState} {inbox' : List TeamInboxEntry}

theorem Sent.counted (sends : Sent teamDir team inbox next inbox')
    (counted : CountedTeam teamDir team inbox) : CountedTeam teamDir next inbox' := by
  induction sends with
  | none observers counts =>
    intro observer mem
    rw [observers] at mem
    rw [counts]
    exact counted observer mem
  | message recipient message observers counts further ih =>
    apply ih
    intro observer mem
    rw [observers] at mem
    have before := counted observer mem
    rw [counts, TeamState.incrementUnreadCount, TeamState.setUnreadCount, filter_append,
      length_append]
    by_cases isRecipient : observer.agentName = recipient
    · rw [← isRecipient]
      dsimp only
      rw [update_self, TeamState.unreadCount, before]
      simp [isFor]
    · dsimp only
      rw [update_of_ne isRecipient, before]
      simp [isFor, Ne.symm isRecipient]

/-- The messages of an agent are counted anew after a turn of theirs. -/
theorem CountedTeam.turn {source target : DeliveryState} (counted : CountedTeam teamDir team inbox)
    (agentName : String) :
    CountedTeam teamDir (team.setUnreadCount agentName
        ((inbox.map (turn teamDir agentName source target)).filter fun entry =>
          entry.isFor teamDir agentName .pending).length)
      (inbox.map (turn teamDir agentName source target)) := by
  intro observer mem
  rw [TeamState.setUnreadCount]
  dsimp only
  by_cases isAgent : observer.agentName = agentName
  · rw [isAgent, update_self]
  · have differ : ¬(teamDir = teamDir ∧ agentName = observer.agentName) :=
      fun same => isAgent same.2.symm
    rw [update_of_ne isAgent, counted observer mem, filter_isFor, filter_isFor,
      filter_turn_other differ]

theorem unread_read : ((inbox.map (turn teamDir agentName .pending .inflight)).filter
    fun entry => entry.isFor teamDir agentName .pending).length = 0 := by
  rw [length_eq_zero_iff, filter_eq_nil_iff]
  intro entry mem
  obtain ⟨old, -, rfl⟩ := mem_map.mp mem
  rw [turn]
  split
  · simp [isFor]
  · assumption

theorem Effect.counted (effect : Effect call team inbox next inbox')
    (counted : CountedTeam call.teamDir team inbox) : CountedTeam call.teamDir next inbox' := by
  cases call with
  | readInbox teamDir agentName =>
    obtain ⟨rfl, rfl⟩ := effect
    have turned := @CountedTeam.turn _ _ _ .pending .inflight counted agentName
    rw [TeamCall.teamDir, unread_read] at turned
    exact turned
  | acknowledgeMessages teamDir agentName | requeueMessages teamDir agentName =>
    obtain ⟨rfl, rfl⟩ := effect
    exact counted.turn agentName
  | registerAgent teamDir agentName sink =>
    obtain ⟨rfl, counts, observers⟩ := effect
    intro observer mem
    rw [observers, mem_append, mem_filter, mem_singleton] at mem
    rw [counts, TeamState.setUnreadCount]
    dsimp only
    rcases mem with ⟨older, differs⟩ | rfl
    · rw [update_of_ne (of_decide_eq_true differs)]
      exact counted observer older
    · rw [update_self]
      rfl
  | _ => exact Sent.counted effect counted

theorem Sent.filter_other (sends : Sent teamDir team inbox next inbox')
    (differ : otherDir ≠ teamDir) (agentName : String) :
    (inbox'.filter fun entry => entry.isTo otherDir agentName) =
      inbox.filter fun entry => entry.isTo otherDir agentName := by
  induction sends with
  | none => rfl
  | message recipient message observers counts further ih =>
    rw [ih, filter_append]
    simp [TeamInboxEntry.isTo, differ.symm]

theorem Effect.filter_other (effect : Effect call team inbox next inbox')
    (differ : otherDir ≠ call.teamDir) (agentName : String) :
    (inbox'.filter fun entry => entry.isTo otherDir agentName) =
      inbox.filter fun entry => entry.isTo otherDir agentName := by
  cases call with
  | readInbox teamDir other =>
    rw [effect.2]
    exact filter_turn_other fun same => differ same.1.symm
  | acknowledgeMessages teamDir other | requeueMessages teamDir other =>
    rw [effect.1]
    exact filter_turn_other fun same => differ same.1.symm
  | registerAgent teamDir other sink => rw [effect.1]
  | _ => exact Sent.filter_other effect differ agentName

theorem Counted.step {final : TeamManager VolatileTeams} (affects : Affects call start final)
    (counted : Counted start) : Counted final := by
  intro otherDir held isHeld
  cases affects with
  | checked agentName isCheck teams inbox =>
    rw [teams] at isHeld
    rw [inbox]
    exact counted otherDir held isHeld
  | opened team next opens teams effect =>
    rw [teams] at isHeld
    by_cases isOwn : otherDir = call.teamDir
    · subst isOwn
      rw [update_self, Option.some.injEq] at isHeld
      subst isHeld
      apply effect.counted
      rcases opens with wasHeld | ⟨-, unobserved⟩
      · exact counted call.teamDir team wasHeld
      · intro observer mem
        rw [unobserved] at mem
        cases mem
    · rw [update_of_ne isOwn] at isHeld
      intro observer mem
      rw [filter_isFor, effect.filter_other isOwn, ← filter_isFor]
      exact counted otherDir held isHeld observer mem

/-! ## Mail -/

theorem Mailbox.receive_receive (box : Mailbox) (first second : List TeamMessage) :
    (box.receive first).receive second = box.receive (first ++ second) := by
  simp [Mailbox.receive]

theorem Mailbox.receive_nil (box : Mailbox) : box.receive [] = box := by
  simp [Mailbox.receive]

theorem Sent.represents (sends : Sent otherDir team inbox next inbox')
    (represents : Represents inbox teamDir agentName box) :
    ∃ messages, Represents inbox' teamDir agentName (box.receive messages) := by
  induction sends generalizing box with
  | none observers counts =>
    refine ⟨[], ?_⟩
    rw [Mailbox.receive_nil]
    exact represents
  | message recipient message observers counts further ih =>
    have appended := @Represents.append _ _ _ _ [⟨otherDir, recipient, message, .pending⟩]
      represents (by simp)
    obtain ⟨messages, further⟩ := ih appended
    rw [Mailbox.receive_receive] at further
    exact ⟨_, further⟩

theorem Affects.represents {final : TeamManager VolatileTeams} (affects : Affects call start final)
    (represents : Represents start.store.inbox teamDir agentName box) :
    ∃ after, MailStep teamDir agentName call box after ∧
      Represents final.store.inbox teamDir agentName after := by
  cases affects with
  | checked other isCheck teams inbox =>
    rw [isCheck, inbox]
    exact ⟨box, ⟨[], box.receive_nil.symm⟩, represents⟩
  | opened team next opens teams effect =>
    cases call with
    | readInbox otherDir other =>
      rw [effect.2]
      exact ⟨_, rfl, represents.turn entries_read⟩
    | acknowledgeMessages otherDir other =>
      rw [effect.1]
      exact ⟨_, rfl, represents.turn entries_acknowledge⟩
    | requeueMessages otherDir other =>
      rw [effect.1]
      exact ⟨_, rfl, represents.turn entries_requeue⟩
    | registerAgent otherDir other sink =>
      rw [effect.1]
      exact ⟨box, ⟨[], box.receive_nil.symm⟩, represents⟩
    | _ =>
      obtain ⟨messages, after⟩ := Sent.represents effect represents
      exact ⟨_, ⟨messages, rfl⟩, after⟩

/-! ## Runs -/

/-- A mailbox over a sequence of calls. -/
inductive MailRun (teamDir agentName : String) : List TeamCall → Mailbox → Mailbox → Prop
  | nil (box : Mailbox) : MailRun teamDir agentName [] box box
  | cons {call : TeamCall} {calls : List TeamCall} {box middle after : Mailbox}
      (step : MailStep teamDir agentName call box middle)
      (run : MailRun teamDir agentName calls middle after) :
      MailRun teamDir agentName (call :: calls) box after

theorem represents_performAll (calls : List TeamCall)
    (represents : Represents start.store.inbox teamDir agentName box) :
    ∃ after, MailRun teamDir agentName calls box after ∧
      Represents (performAll volatileTeamStore start calls).store.inbox teamDir agentName
        after := by
  induction calls generalizing start box with
  | nil => exact ⟨box, .nil box, represents⟩
  | cons call calls ih =>
    obtain ⟨middle, step, stepped⟩ := (perform_affects call).represents represents
    obtain ⟨after, run, final⟩ := ih stepped
    exact ⟨after, .cons step run, final⟩

theorem counted_performAll (calls : List TeamCall) (counted : Counted start) :
    Counted (performAll volatileTeamStore start calls) := by
  induction calls generalizing start with
  | nil => exact counted
  | cons call calls ih => exact ih (counted.step (perform_affects call))

/-- How a call settles what an agent has read. -/
inductive Settlement
  | acknowledged
  | requeued
  deriving DecidableEq

/-- A call of the agent that settles what it has read. -/
def settles (teamDir agentName : String) : TeamCall → Option Settlement
  | .acknowledgeMessages otherDir other =>
    if otherDir = teamDir ∧ other = agentName then some .acknowledged else none
  | .requeueMessages otherDir other =>
    if otherDir = teamDir ∧ other = agentName then some .requeued else none
  | _ => none

/-- The first call that settles what the agent has read. -/
def settlement (teamDir agentName : String) (calls : List TeamCall) : Option Settlement :=
  calls.findSome? (settles teamDir agentName)

def isRead (teamDir agentName : String) : TeamCall → Bool
  | .readInbox otherDir other => otherDir = teamDir && other = agentName
  | _ => false

/-- Whether the agent has read and not settled yet. -/
def owes (teamDir agentName : String) (calls : List TeamCall) : Bool :=
  calls.foldl (fun owes call => isRead teamDir agentName call ||
    (owes && (settles teamDir agentName call).isNone)) false

variable {after : Mailbox}

/-- What a call does to a mailbox, by what it is to the agent. -/
theorem mailStep_cases (step : MailStep teamDir agentName call box after) :
    (isRead teamDir agentName call = true ∧ after = box.read) ∨
      (isRead teamDir agentName call = false ∧
        match settles teamDir agentName call with
        | some .acknowledged => after = box.acknowledge
        | some .requeued => after = box.requeue
        | none => ∃ messages, after = box.receive messages) := by
  have unchanged (same : after = box) : ∃ messages, after = box.receive messages :=
    ⟨[], same.trans box.receive_nil.symm⟩
  cases call with
  | readInbox otherDir other =>
    by_cases same : otherDir = teamDir ∧ other = agentName
    · refine .inl ⟨by simp [isRead, same], ?_⟩
      rw [MailStep, if_pos same] at step
      exact step
    · refine .inr ⟨by simpa [isRead] using same, unchanged ?_⟩
      rw [MailStep, if_neg same] at step
      exact step
  | acknowledgeMessages otherDir other | requeueMessages otherDir other =>
    refine .inr ⟨rfl, ?_⟩
    by_cases same : otherDir = teamDir ∧ other = agentName
    · rw [MailStep, if_pos same] at step
      rw [settles, if_pos same]
      exact step
    · rw [MailStep, if_neg same] at step
      rw [settles, if_neg same]
      exact unchanged step
  | _ => exact .inr ⟨rfl, step⟩

theorem MailStep.grows (step : MailStep teamDir agentName call box after) :
    box.sent <+: after.sent ∧ box.acked <+: after.acked := by
  rcases mailStep_cases step with ⟨-, rfl⟩ | ⟨-, otherwise⟩
  · exact ⟨by simp [Mailbox.sent, Mailbox.read], prefix_rfl⟩
  · split at otherwise
    · subst otherwise
      exact ⟨by simp [Mailbox.sent, Mailbox.acknowledge], prefix_append _ _⟩
    · subst otherwise
      exact ⟨by simp [Mailbox.sent, Mailbox.requeue], prefix_rfl⟩
    · obtain ⟨messages, rfl⟩ := otherwise
      refine ⟨?_, prefix_rfl⟩
      rw [Mailbox.sent, Mailbox.sent, Mailbox.receive, ← append_assoc]
      exact prefix_append _ _

variable {calls : List TeamCall}

section

variable (run : MailRun teamDir agentName calls box after)
include run

theorem MailRun.grows :
    box.sent <+: after.sent ∧ box.acked <+: after.acked := by
  induction run with
  | nil box => exact ⟨prefix_rfl, prefix_rfl⟩
  | cons step run ih =>
    obtain ⟨sent, acked⟩ := step.grows
    exact ⟨sent.trans ih.1, acked.trans ih.2⟩

/-- Who owes nothing has nothing in flight. -/
theorem MailRun.inflight_eq_nil {owed : Bool} (nothing : owed = false → box.inflight = [])
    (settled : calls.foldl (fun owes call => isRead teamDir agentName call ||
      (owes && (settles teamDir agentName call).isNone)) owed = false) :
    after.inflight = [] := by
  induction run generalizing owed with
  | nil box => exact nothing settled
  | cons step run ih =>
    refine ih ?_ settled
    intro free
    rw [Bool.or_eq_false_iff, Bool.and_eq_false_iff] at free
    rcases mailStep_cases step with ⟨reads, -⟩ | ⟨-, otherwise⟩
    · rw [reads] at free
      cases free.1
    · split at otherwise
      · rw [otherwise]
        rfl
      · rw [otherwise]
        rfl
      · rename_i unsettling
        obtain ⟨messages, rfl⟩ := otherwise
        rw [unsettling] at free
        exact nothing (free.2.resolve_right nofun)

/-- What is in flight goes where the first settlement puts it. -/
theorem MailRun.unread (unread : ∀ call ∈ calls, isRead teamDir agentName call = false) :
    ∃ messages, after = Mailbox.receive
      (match settlement teamDir agentName calls with
        | some .acknowledged => box.acknowledge
        | some .requeued => box.requeue
        | none => box) messages := by
  induction run with
  | nil box => exact ⟨[], box.receive_nil.symm⟩
  | @cons call calls box middle after step run ih =>
    obtain ⟨first, rest⟩ := forall_mem_cons.mp unread
    obtain ⟨further, isAfter⟩ := ih rest
    rw [settlement] at isAfter
    rw [settlement, findSome?_cons]
    generalize calls.findSome? (settles teamDir agentName) = later at isAfter ⊢
    rcases mailStep_cases step with ⟨reads, -⟩ | ⟨-, otherwise⟩
    · rw [first] at reads
      cases reads
    · split at otherwise
      -- With nothing in flight any more, later settlements change nothing.
      · rename_i acknowledges
        rw [acknowledges]
        refine ⟨further, isAfter.trans ?_⟩
        rcases later with _ | _ | _ <;> simp [otherwise, Mailbox.acknowledge, Mailbox.requeue]
      · rename_i requeues
        rw [requeues]
        refine ⟨further, isAfter.trans ?_⟩
        rcases later with _ | _ | _ <;> simp [otherwise, Mailbox.acknowledge, Mailbox.requeue]
      · rename_i unsettling
        rw [unsettling]
        obtain ⟨messages, rfl⟩ := otherwise
        refine ⟨messages ++ further, isAfter.trans ?_⟩
        rcases later with _ | _ | _ <;>
          simp [Mailbox.receive, Mailbox.acknowledge, Mailbox.requeue]

end

/-! ## Inboxes over whole runs -/

/-- All messages that were sent to the agent, in that order. -/
def VolatileTeams.sentTo (store : VolatileTeams) (teamDir agentName : String) : List TeamMessage :=
  (store.inbox.filter fun entry => entry.isTo teamDir agentName).map TeamInboxEntry.message

theorem Represents.sentTo {store : VolatileTeams}
    (represents : Represents store.inbox teamDir agentName box) :
    store.sentTo teamDir agentName = box.sent := by
  rw [VolatileTeams.sentTo, represents]
  simp [Mailbox.entries, Mailbox.sent, comp_def]

/-- After any calls of a manager, the count of a registered agent is that of its pending
messages.  Its messages are, in sending order, those acknowledged, in flight and pending.
Whatever is called next, messages are only added and those acknowledged stay so.  A read returns
the pending messages.  If the agent has settled its earlier reads, these are all not
acknowledged; what it reads after settling this read are the new messages, and before them those
that it requeued. -/
theorem inboxes_sound (members : HashTable (String × String) TeamMemberSummary)
    (requests : HashTable String (String × TeamProtocolRequestSummary))
    (agents : List (String × String)) (calls : List TeamCall) (teamDir agentName : String) :
    let manager := performAll volatileTeamStore (.new ⟨members, [], requests, agents⟩) calls
    let messages := manager.store.messagesIn teamDir agentName
    let sent := manager.store.sentTo teamDir agentName
    (∀ team observer, manager.teams teamDir = some team → observer ∈ team.observers →
        observer.agentName = agentName →
          team.unreadCounts agentName = some (manager.store.unreadTeamCount teamDir agentName)) ∧
      sent = messages .acked ++ messages .inflight ++ messages .pending ∧
      (∀ further, let later := (performAll volatileTeamStore manager further).store
        sent <+: later.sentTo teamDir agentName ∧
          messages .acked <+: later.messagesIn teamDir agentName .acked) ∧
      ((perform volatileTeamStore (.readInbox teamDir agentName)).exec manager).1 =
        .ok (.messages (messages .pending)) ∧
      (owes teamDir agentName calls = false →
        sent = messages .acked ++ messages .pending ∧
          ∀ between, (∀ call ∈ between, isRead teamDir agentName call = false) →
            let later := (performAll volatileTeamStore manager
              (.readInbox teamDir agentName :: between)).store
            ∃ new, later.sentTo teamDir agentName = sent ++ new ∧
              (settlement teamDir agentName between = some .acknowledged →
                later.messagesIn teamDir agentName .pending = new) ∧
              (settlement teamDir agentName between = some .requeued →
                later.messagesIn teamDir agentName .pending = messages .pending ++ new)) := by
  intro manager messages sent
  have initially : Represents (TeamManager.new (⟨members, [], requests, agents⟩ :
      VolatileTeams)).store.inbox teamDir agentName .empty := rfl
  obtain ⟨box, run, represents⟩ := represents_performAll calls initially
  have isSent : sent = box.sent := represents.sentTo
  have isAcked : messages .acked = box.acked := represents.messagesIn .acked
  have isInflight : messages .inflight = box.inflight := represents.messagesIn .inflight
  have isPending : messages .pending = box.pending := represents.messagesIn .pending
  refine ⟨?_, ?_, ?_, ?_, ?_⟩
  · rintro team observer held mem rfl
    have counted : Counted manager := counted_performAll calls fun _ _ held => nomatch held
    exact counted teamDir team held observer mem
  · rw [isSent, isAcked, isInflight, isPending]
    rfl
  · intro further later
    obtain ⟨after, laterRun, laterRepresents⟩ := represents_performAll further represents
    rw [isSent, laterRepresents.sentTo, laterRepresents.messagesIn .acked, isAcked]
    exact laterRun.grows
  · have reads : Ensures (perform volatileTeamStore (.readInbox teamDir agentName))
        (fun reply _ => reply = .messages (messages .pending)) (fun _ _ => False) manager :=
      readInbox_affects.bind (fun _ _ both => congrArg TeamReply.messages both.1) nofun
    exact reads.value
  · intro settled
    have nothing := run.inflight_eq_nil (fun _ => rfl) settled
    refine ⟨by rw [isSent, isAcked, isPending, Mailbox.sent, nothing, append_nil], ?_⟩
    intro between unread later
    obtain ⟨after, laterRun, laterRepresents⟩ :=
      represents_performAll (.readInbox teamDir agentName :: between) represents
    cases laterRun with
    | cons step rest =>
      rw [MailStep, if_pos ⟨rfl, rfl⟩] at step
      subst step
      obtain ⟨new, isAfter⟩ := rest.unread unread
      have laterPending : later.messagesIn teamDir agentName .pending = after.pending :=
        laterRepresents.messagesIn .pending
      refine ⟨new, ?_, ?_, ?_⟩
      · rw [laterRepresents.sentTo, isSent, isAfter]
        split <;> simp [Mailbox.sent, Mailbox.receive, Mailbox.acknowledge, Mailbox.requeue,
          Mailbox.read]
      · intro acknowledged
        rw [laterPending, isAfter, acknowledged]
        rfl
      · intro requeued
        rw [laterPending, isAfter, requeued, isPending]
        show box.inflight ++ box.pending ++ [] ++ new = _
        rw [nothing, append_nil, nil_append]

/-- An agent is registered and gets two messages. -/
def twoMessages : List TeamCall :=
  [.registerAgent "team" "mate" 0, .sendMessage "team" "lead" "mate" "first" 0,
    .sendMessage "team" "lead" "mate" "second" 0]

theorem inboxes_sound_requeued :
    let manager := performAll volatileTeamStore (.new .new) twoMessages
    let first := TeamMessage.message "lead" "first" 0
    let second := TeamMessage.message "lead" "second" 0
    let third := TeamMessage.message "lead" "third" 0
    let later := (performAll volatileTeamStore manager [.readInbox "team" "mate",
      .sendMessage "team" "lead" "mate" "third" 0, .requeueMessages "team" "mate"]).store
    (∃ team, manager.teams "team" = some team ∧ team.unreadCounts "mate" = some 2) ∧
      later.messagesIn "team" "mate" .pending = [first, second, third] := by
  intro manager first second third later
  obtain ⟨counted, -, -, -, settled⟩ := inboxes_sound .empty .empty [] twoMessages "team" "mate"
  obtain ⟨-, successive⟩ := settled (by decide +kernel)
  obtain ⟨new, isSent, -, requeued⟩ := successive
    [.sendMessage "team" "lead" "mate" "third" 0, .requeueMessages "team" "mate"]
    (by decide +kernel)
  have observed : (manager.teams "team").any fun team => ⟨"mate", 0⟩ ∈ team.observers := by
    decide +kernel
  obtain ⟨team, held, mem⟩ := (Option.any_eq_true _ _).mp observed
  have unread : manager.store.unreadTeamCount "team" "mate" = 2 := by decide +kernel
  have before : manager.store.sentTo "team" "mate" = [first, second] := by decide +kernel
  have pending : manager.store.messagesIn "team" "mate" .pending = [first, second] := by
    decide +kernel
  have after : later.sentTo "team" "mate" = [first, second] ++ [third] := by decide +kernel
  refine ⟨⟨team, held, ?_⟩, ?_⟩
  · exact (counted team ⟨"mate", 0⟩ held (of_decide_eq_true mem) rfl).trans (congrArg some unread)
  · have isNew : new = [third] :=
      append_cancel_left ((congrArg (· ++ new) before).symm.trans (isSent.symm.trans after))
    subst isNew
    exact (requeued (by decide +kernel)).trans (congrArg (· ++ [third]) pending)

end Mentra.Team
