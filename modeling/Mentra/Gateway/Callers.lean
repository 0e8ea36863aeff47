import Mentra.Gateway.Ring

/-!
# Callers of a gateway ring

Model of `with_rotation` in `mentra-provider/src/gateway_ring.rs`: any number of calls, each
on one member at a time.  A call that fails goes on with the member the ring rotated to, at
most once around the ring, and its future may be dropped at any time.
-/

namespace Mentra.Gateway

open Foundation Option List Transition

/-- A call that waits for a member, and how many it has asked. -/
structure Attempt where
  index : Nat
  attempts : Nat

/-- The call waits for a member of the ring and has asked no more members than there are. -/
structure Attempt.Fits (attempt : Attempt) (members : Nat) : Prop where
  inRange : attempt.index < members
  started : 0 < attempt.attempts
  onceAround : attempt.attempts ≤ members

structure Callers where
  chronicle : Chronicle
  calls : List Attempt
  now : Nat

/-- What happens next, some time after what happened last. -/
inductive CallEvent
  | start (wait : Nat)
  | answered (call wait : Nat)
  | failed (call : Nat) (kind : FailureKind) (wait : Nat)
  | dropped (call wait : Nat)

namespace Callers

def new (members : Nat) : Callers where
  chronicle := .new members
  calls := []
  now := 0

/-- The calls after a failure: the call goes on with the member that the ring
rotated to, unless it has been around. -/
def afterFailure (callers : Callers) (call : Nat) (attempt : Attempt) :
    Option Rotation → List Attempt
  | some rotation =>
    if callers.chronicle.health.members.length ≤ attempt.attempts then
      callers.calls.eraseIdx call
    else callers.calls.set call ⟨rotation.target, attempt.attempts + 1⟩
  | none => callers.calls.eraseIdx call

def step (policy : GatewayRingPolicy) (callers : Callers) : CallEvent → Option Callers
  | .start wait =>
    let now := callers.now + wait
    let selection := (callers.chronicle.health.select policy now).2
    (callers.chronicle.step policy (.select now)).map fun chronicle =>
      { chronicle, calls := callers.calls ++ [⟨selection.index, 1⟩], now }
  | .answered call wait => do
      let attempt ← callers.calls[call]?
      let chronicle ← callers.chronicle.step policy (.succeeded attempt.index)
      return { chronicle, calls := callers.calls.eraseIdx call, now := callers.now + wait }
  | .failed call kind wait => do
      let now := callers.now + wait
      let attempt ← callers.calls[call]?
      if kind = .notTheMembersFault then
        return { callers with calls := callers.calls.eraseIdx call, now }
      else
        let rotation := (callers.chronicle.health.failed attempt.index kind policy now).2
        let chronicle ← callers.chronicle.step policy (.failed attempt.index kind now)
        return { chronicle, calls := callers.afterFailure call attempt rotation, now }
  | .dropped call wait => do
      let _ ← callers.calls[call]?
      return { callers with calls := callers.calls.eraseIdx call, now := callers.now + wait }

variable {policy : GatewayRingPolicy} {callers next : Callers} {members : Nat}

/-- What the callers have done to the ring is a run of calls on it, and every call
fits the ring. -/
structure Follows (policy : GatewayRingPolicy) (members : Nat) (callers : Callers) : Prop where
  ring : Reachable (Chronicle.step policy) (.new members) callers.chronicle
  fits : ∀ attempt ∈ callers.calls, attempt.Fits members

theorem select_index_lt {chronicle : Chronicle} (sound : chronicle.Sound policy members)
    (now : Nat) :
    (chronicle.health.select policy now).2.index < members := by
  rw [RingHealth.select]
  split
  · rename_i index rested
    exact Nat.lt_trans (RingHealth.rested_eq_some rested).1 sound.inRange
  · exact sound.inRange

theorem rotation_target_lt {chronicle : Chronicle} (sound : chronicle.Sound policy members)
    {index now : Nat} {kind : FailureKind} {rotation : Rotation}
    (rotated : (chronicle.health.failed index kind policy now).2 = some rotation) :
    rotation.target < members := by
  rcases chronicle.health.failed_cases index kind policy now with
    ignored | ⟨rfl, struck, -, -⟩ | ⟨count, rfl, isRotated⟩
  · rw [ignored] at rotated
    cases rotated
  · rw [struck] at rotated
    cases rotated
  · rw [isRotated] at rotated
    cases rotated
    rw [← sound.length]
    apply RingHealth.nextAfter_lt
    rw [sound.length]
    exact sound.inRange

theorem Follows.step {event : CallEvent} (nonempty : 0 < members)
    (follows : Follows policy members callers) (stepped : callers.step policy event = some next) :
    Follows policy members next := by
  have sound := Chronicle.sound_of_reachable nonempty follows.ring
  have erased (call : Nat) (attempt : Attempt) (mem : attempt ∈ callers.calls.eraseIdx call) :
      attempt.Fits members :=
    follows.fits attempt (mem_of_mem_eraseIdx mem)
  cases event with
  | start wait =>
    rw [Callers.step] at stepped
    obtain ⟨chronicle, selected, rfl⟩ := map_eq_some_iff.mp stepped
    refine ⟨follows.ring.tail selected, ?_⟩
    intro attempt mem
    rcases mem_append.mp mem with earlier | isNew
    · exact follows.fits attempt earlier
    · rw [mem_singleton.mp isNew]
      exact ⟨select_index_lt sound _, Nat.one_pos, nonempty⟩
  | answered call wait =>
    obtain ⟨attempt, -, stepped⟩ := bind_eq_some_iff.mp stepped
    obtain ⟨chronicle, succeeded, stepped⟩ := bind_eq_some_iff.mp stepped
    cases stepped
    exact ⟨follows.ring.tail succeeded, erased call⟩
  | failed call kind wait =>
    obtain ⟨attempt, -, stepped⟩ := bind_eq_some_iff.mp stepped
    split at stepped
    · cases stepped
      exact ⟨follows.ring, erased call⟩
    · obtain ⟨chronicle, failed, stepped⟩ := bind_eq_some_iff.mp stepped
      cases stepped
      refine ⟨follows.ring.tail failed, ?_⟩
      intro other mem
      rw [afterFailure.eq_def] at mem
      split at mem
      · rename_i rotation rotated
        split at mem
        · exact erased call other mem
        · rename_i fewer
          rw [sound.length] at fewer
          rcases mem_or_eq_of_mem_set mem with earlier | isNew
          · exact follows.fits other earlier
          · rw [isNew]
            exact ⟨rotation_target_lt sound rotated, Nat.succ_pos _, Nat.not_le.mp fewer⟩
      · exact erased call other mem
  | dropped call wait =>
    obtain ⟨attempt, -, stepped⟩ := bind_eq_some_iff.mp stepped
    cases stepped
    exact ⟨follows.ring, erased call⟩

/-- However their calls interleave, fail and are dropped, the callers leave the ring in a state
that single calls on it lead to, and each asks members of the ring, at most once around. -/
theorem callers_follow_ring (policy : GatewayRingPolicy) (nonempty : 0 < members)
    (reachable : Reachable (Callers.step policy) (.new members) callers) :
    Reachable (Chronicle.step policy) (.new members) callers.chronicle ∧
      ∀ attempt ∈ callers.calls, attempt.Fits members := by
  have follows : Follows policy members callers :=
    reachable.invariant (fun _ _ _ follows stepped => follows.step nonempty stepped)
      ⟨.refl _ _, forall_mem_nil _⟩
  exact ⟨follows.ring, follows.fits⟩

/-- Two calls wait for the first of two members; when one is refused, it goes on with the
second member. -/
theorem callers_follow_ring_of_two :
    ∃ callers, Reachable (Callers.step .default) (.new 2) callers ∧
      (callers.calls.map fun attempt => (attempt.index, attempt.attempts)) = [(1, 2), (0, 1)] ∧
      callers.chronicle.health.current = 1 ∧ ∀ attempt ∈ callers.calls, attempt.Fits 2 := by
  have ran : (run (Callers.step .default) (.new 2)
      [.start 0, .start 0, .failed 0 .immediate 1]).any fun callers =>
        decide ((callers.calls.map fun attempt => (attempt.index, attempt.attempts)) =
          [(1, 2), (0, 1)] ∧ callers.chronicle.health.current = 1) := by
    decide +kernel
  obtain ⟨callers, reachable, rotated⟩ := exists_reachable_of_any ran
  obtain ⟨waiting, current⟩ := of_decide_eq_true rotated
  exact ⟨callers, reachable, waiting, current,
    (callers_follow_ring .default Nat.two_pos reachable).2⟩

end Callers

end Mentra.Gateway
