import Mentra.Runner.Steps

/-!
# The model budget

The first attempt of a turn and every retry are checked against the budget before they are
made; the attempt that follows a refusal for length is not.  So the budget bounds the attempts
of a run in which that attempt always has room left, and is exceeded by a run in which the
refused attempt was the last one allowed.
-/

namespace Mentra.TurnRunner

open Foundation Program

variable {V : Type} [DecidableEq V]

/-- Whenever a request was sent again after a refusal for length, the budget
still had room for it. -/
def RoomToResend (env : RunEnv V) (runner : TurnRunner V) : Prop :=
  ∀ sent ∈ runner.log.resends, sent < env.modelBudget

/-- Every attempt is counted, with `slack` counted and not yet made, and the count leaves `room`
below the budget. -/
def Budgeted (env : RunEnv V) (slack room : Nat) (runner : TurnRunner V) : Prop :=
  RoomToResend env runner →
    runner.log.requests.length + slack ≤ runner.modelRequests ∧
      runner.modelRequests + room ≤ env.modelBudget

variable {env : RunEnv V} {slack room : Nat}

theorem budgeted_new (env : RunEnv V) (agent : Agent V) (clock : Nat) :
    Budgeted env 0 0 (.new agent clock) :=
  fun _ => ⟨Nat.le_refl 0, Nat.zero_le _⟩

variable {start : TurnRunner V}

theorem Budgeted.follows {allowed : Agent.MarkedStep → Prop} {final : TurnRunner V}
    (follows : Follows allowed start final) (budgeted : Budgeted env slack room start) :
    Budgeted env slack room final := by
  rw [Budgeted, RoomToResend, follows.log, follows.modelRequests]
  exact budgeted

/-- The parts of a run that send nothing keep the account. -/
theorem Following.budgeted {α : Type} {program : RunM V α}
    (follows : Following (fun _ => True) program) (budgeted : Budgeted env slack room start) :
    Reaches (Budgeted env slack room) program start :=
  follows.holds (fun _ _ => Budgeted.follows) budgeted

theorem Budgeted.spent {runner : TurnRunner V} (budgeted : Budgeted env 0 1 runner) :
    Budgeted env 0 0 runner :=
  fun room => ⟨(budgeted room).1, Nat.le_of_lt (budgeted room).2⟩

/-! ## Attempts -/

theorem checkModelBudget_spec (budgeted : Budgeted env 0 0 start) :
    Program.Ensures (checkModelBudget env) (fun _ => Budgeted env 0 1)
      (fun _ => Budgeted env 0 0) start := by
  rw [checkModelBudget, ensures_bind, ensures_get]
  split
  · exact budgeted
  · rename_i below
    intro room
    exact ⟨(budgeted room).1, Nat.lt_of_not_le below⟩

theorem attemptRequest_spec (request : List (Message V)) (attempt : Nat)
    (budgeted : Budgeted env 0 1 start) :
    Reaches (Budgeted env 0 0) (attemptRequest env request attempt) start := by
  apply Ensures.bind ((Following.call env .checkLimits).budgeted budgeted)
  · intro _ checked left
    have counted : Budgeted env 1 0 { checked with modelRequests := checked.modelRequests + 1 } :=
      fun room => ⟨Nat.succ_le_succ (left room).1, (left room).2⟩
    apply Ensures.bind ((Following.call env (.modelRequestStarted attempt)).budgeted counted)
    · intro _ announced started
      rw [ensures_bind, ensures_modify]
      have made : Budgeted env 0 0 { announced with
          log := { announced.log with requests := request :: announced.log.requests } } :=
        started
      exact (Following.bind (.ask _) .lift).budgeted made
    · exact fun _ _ started room => ⟨Nat.le_of_succ_le (started room).1, (started room).2⟩
  · exact fun _ _ left => left.spent

/-- A retry is checked before it is made. -/
theorem prepareRetry_spec (attempt : Nat) (error : ProviderError)
    (budgeted : Budgeted env 0 0 start) :
    Program.Ensures (prepareRetry env attempt error) (fun _ => Budgeted env 0 1)
      (fun _ => Budgeted env 0 0) start := by
  rw [prepareRetry, ensures_bind, ensures_modify]
  have counted : Budgeted env 0 0
      { start with transportRetries := start.transportRetries + 1 } := budgeted
  apply Ensures.bind ((Following.failedRequest env attempt error).budgeted counted)
  · intro _ told kept
    apply (checkModelBudget_spec kept).bind
    · intro _ checked left
      apply ((Following.call env .sleep).budgeted left).weaken
      · exact fun _ _ rested => rested
      · exact fun _ _ rested => rested.spent
    · exact fun _ _ kept => kept
  · exact fun _ _ kept => kept

section Serde

variable [SerdeJson V]

variable {start : TurnRunner V}

theorem openModelStream_spec (budgeted : Budgeted env 0 1 start) :
    Reaches (Budgeted env 0 0) (openModelStream env) start := by
  apply Ensures.bind (Following.currentAgent.budgeted budgeted)
  · intro agent read left
    apply Ensures.bind ((Following.ask _).budgeted left)
    · intro recalled asked still
      apply Ensures.bind ((Following.call env .selectTransport).budgeted still)
      · exact fun _ _ selected => reaches_openAttempts (fun _ => True)
          (fun attempt _ => attemptRequest_spec _ attempt)
          (fun attempt error _ => prepareRetry_spec attempt error) (fun _ _ => Budgeted.follows)
          env.retryBudget 1 selected
      · exact fun _ _ left => left.spent
    · exact fun _ _ left => left.spent
  · exact fun _ _ left => left.spent

/-- The attempt after a refusal for length is made without a check; the
condition is that it has room. -/
theorem reopenModelStream_spec (budgeted : Budgeted env 0 0 start) :
    Reaches (Budgeted env 0 0) (reopenModelStream env) start := by
  apply ((Following.compactAfterContextOverflow env).budgeted budgeted).bind
  intro _ compacted kept
  rw [reaches_modify_bind]
  apply openModelStream_spec
  intro room
  have earlier : RoomToResend env compacted :=
    fun sent mem => room sent (List.mem_cons_of_mem _ mem)
  exact ⟨(kept earlier).1, room compacted.modelRequests List.mem_cons_self⟩

theorem openTurn_spec (budgeted : Budgeted env 0 1 start) :
    Reaches (Budgeted env 0 0) (openTurn env) start := by
  rw [Reaches, openTurn, ensures_bind, ensures_attempt]
  apply (openModelStream_spec budgeted).weaken
  · exact fun _ _ opened => opened
  · intro error failed kept
    split
    · exact kept
    · split
      · exact reopenModelStream_spec kept
      · exact kept
    · exact kept

/-! ## The run -/

theorem streamTurn_spec (budgeted : Budgeted env 0 0 start) :
    Reaches (Budgeted env 0 0) (streamTurn env) start := by
  apply (checkModelBudget_spec budgeted).bind
  · intro _ checked left
    apply Ensures.bind ((Following.prepareTurn env trivial).budgeted left)
    · intro _ prepared ready
      apply (openTurn_spec ready).bind
      rintro ⟨stream, attempt⟩ opened sent
      exact (Following.receiveTurn env stream attempt).budgeted sent
    · exact fun _ _ left => left.spent
  · exact fun _ _ kept => kept

theorem finishRound_spec (rounds : Nat) (streamed : StreamedTurn V)
    (budgeted : Budgeted env 0 0 start) :
    Reaches (Budgeted env 0 0) (finishRound env rounds streamed) start := by
  rw [finishRound, reaches_modify_bind]
  have received : Budgeted env 0 0 { start with
      log := { start.log with turns := streamed.pending :: start.log.turns } } := budgeted
  refine (Following.bind ?_ fun _ => Following.bind ?_ fun _ => ?_).budgeted received
  · exact .responding env streamed.attempt (.commitAssistantMessage env trivial streamed.pending)
  · exact .call env _
  · exact .continueRound env trivial trivial rounds streamed.pending

theorem runRounds_spec (bound rounds : Nat) :
    Keeps (Budgeted env 0 0) (Budgeted env 0 0) (runRounds env bound rounds) := by
  refine keeps_runRounds (fun rounds _ => (Following.beginRound env rounds).budgeted) ?_ bound
    rounds
  exact fun rounds _ kept => (streamTurn_spec kept).bind fun streamed _ received =>
    finishRound_spec (rounds + 1) streamed received

/-- A run makes at most as many attempts as its model budget allows, if each time it sends a
refused request again it had attempts left. -/
theorem run_requests_le_budget (env : RunEnv V) (bound : Nat) (agent : Agent V) (clock : Nat)
    (room : RoomToResend env ((run env bound).exec (.new agent clock)).2) :
    ((run env bound).exec (.new agent clock)).2.log.requests.length ≤ env.modelBudget := by
  have budgeted : Budgeted env 0 0 ((run env bound).exec (.new agent clock)).2 :=
    (runRounds_spec bound 0 _ (budgeted_new env agent clock)).final
  obtain ⟨counted, within⟩ := budgeted room
  exact Nat.le_trans counted within

end Serde

/-! ## A refused request -/

/-- A provider that refuses the first request as too long. -/
def refusingProvider (now : Nat) (_ : List (Message Unit)) :
    Except RuntimeError (Except ProviderError (ProviderEventStream Unit)) :=
  .ok (if now < 16 then .error (.contextLengthExceeded 400 "") else .ok textReply)

def refusedEnv (modelBudget : Nat) : RunEnv Unit :=
  { quietRunEnv refusingProvider with modelBudget }

/-- With room for a second attempt the budget holds. -/
theorem refused_within_budget :
    RoomToResend (refusedEnv 2) ((run (refusedEnv 2) 1).exec (.new askedAgent 0)).2 ∧
      ((run (refusedEnv 2) 1).exec (.new askedAgent 0)).2.log.requests.length ≤ 2 := by
  have room : RoomToResend (refusedEnv 2) ((run (refusedEnv 2) 1).exec (.new askedAgent 0)).2 := by
    have resends : ((run (refusedEnv 2) 1).exec (.new askedAgent 0)).2.log.resends = [1] := by
      decide +kernel
    intro sent mem
    rw [resends] at mem
    obtain rfl := List.mem_singleton.mp mem
    exact Nat.one_lt_two
  exact ⟨room, run_requests_le_budget (refusedEnv 2) 1 askedAgent 0 room⟩

/-- With a budget of one attempt, two are made. -/
theorem refused_exceeds_budget :
    ((run (refusedEnv 1) 1).exec (.new askedAgent 0)).2.log.requests.length = 2 ∧
      ¬ ((run (refusedEnv 1) 1).exec (.new askedAgent 0)).2.log.requests.length ≤
        (refusedEnv 1).modelBudget := by
  decide +kernel

end Mentra.TurnRunner
