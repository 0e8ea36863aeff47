import Mentra.Foundation.Transition
import Mentra.Gateway.Health

/-!
# Runs of a gateway ring

The calls that any number of callers make, in any order.  Beside the memory of the ring
stands a record, which the source does not keep, of when each member was rotated away from
and has not succeeded since.

A late success clears the time at which its member was left, so the ring may not come back to
a more preferred member.  And a member on probation that the ring drifts away from is not
marked as left, so it is off probation when the ring rotates to it again.
-/

namespace Mentra.Gateway

open Foundation Transition List Option Function

namespace RingHealth

/-- The ring after it has rotated away from the current member. -/
def rotate (health : RingHealth) (policy : GatewayRingPolicy) (now : Nat) : RingHealth :=
  (health.withMember health.current ((health.member health.current).left now)).withCurrent
    (health.nextAfter health.current policy now)

theorem failed_cases (health : RingHealth) (index : Nat) (kind : FailureKind)
    (policy : GatewayRingPolicy) (now : Nat) :
    health.failed index kind policy now = (health, none) ∨
    (index = health.current ∧
      health.failed index kind policy now =
        (health.withMember index (health.member index).failed, none) ∧
      (health.member index).probation = false ∧
      (health.member index).failed.streak < policy.threshold) ∨
    ∃ count, index = health.current ∧
      health.failed index kind policy now =
        (health.rotate policy now, some ⟨index, health.nextAfter index policy now, count⟩) := by
  rw [failed]
  by_cases ignored : index ≠ health.current ∨ kind = .notTheMembersFault
  · rw [if_pos ignored]
    exact .inl rfl
  · rw [if_neg ignored]
    rw [not_or, not_not] at ignored
    obtain ⟨rfl, isFault⟩ := ignored
    dsimp only
    split
    · exact .inr (.inr ⟨_, rfl, rfl⟩)
    · rename_i stays
      refine .inr (.inl ⟨rfl, rfl, ?_⟩)
      cases kind with
      | counted =>
        simp only [rotates, Bool.or_eq_true, decide_eq_true_eq, not_or, Nat.not_le] at stays
        exact ⟨Bool.eq_false_iff.mpr stays.1, stays.2⟩
      | immediate => exact absurd rfl stays
      | notTheMembersFault => exact absurd rfl isFault

variable {health : RingHealth}

/-- A failure that concerns the current member rotates the ring when the member is
on probation. -/
theorem failed_onProbation (probation : health.onProbation) {kind : FailureKind}
    (isFault : kind ≠ .notTheMembersFault) (policy : GatewayRingPolicy) (now : Nat) :
    ∃ rotation, (health.failed health.current kind policy now).2 = some rotation ∧
      rotation.source = health.current := by
  have rotated : rotates (health.member health.current).failed kind policy := by
    cases kind with
    | counted => exact Bool.or_eq_true_iff.mpr (.inl probation)
    | immediate => rfl
    | notTheMembersFault => exact absurd rfl isFault
  rw [failed, if_neg (by simp [isFault]), if_pos rotated]
  exact ⟨_, rfl, rfl⟩

@[simp]
theorem length_rotate (health : RingHealth) (policy : GatewayRingPolicy) (now : Nat) :
    (health.rotate policy now).members.length = health.members.length := by
  rw [rotate, length_withCurrent, length_withMember]

theorem rotate_current (health : RingHealth) (policy : GatewayRingPolicy) (now : Nat) :
    (health.rotate policy now).current = health.nextAfter health.current policy now :=
  rfl

theorem member_rotate (inRange : health.current < health.members.length)
    (policy : GatewayRingPolicy) (now index : Nat) :
    (health.rotate policy now).member index =
      if index = health.nextAfter health.current policy now then
        (if index = health.current then (health.member index).left now
          else health.member index).returnedTo
      else if index = health.current then (health.member index).left now
      else health.member index := by
  rw [rotate, member_withCurrent, member_withMember inRange]
  by_cases same : index = health.current
  · simp [same]
  · simp [same]

theorem exists_member_of_mem {standing : MemberHealth}
    (mem : standing ∈ health.members) : ∃ index, health.member index = standing := by
  obtain ⟨index, isMember⟩ := mem_iff_getElem?.mp mem
  exact ⟨index, by rw [member, getD_eq_getElem?_getD, isMember, getD_some]⟩

end RingHealth

/-- A call on the ring.  The times are those at which the calls are made. -/
inductive HealthCall
  | select (now : Nat)
  | succeeded (index : Nat)
  | failed (index : Nat) (kind : FailureKind) (now : Nat)

/-- The memory of the ring, and when each member was last rotated away from
unless it has succeeded since. -/
structure Chronicle where
  health : RingHealth
  departed : Nat → Option Nat

namespace Chronicle

def new (members : Nat) : Chronicle where
  health := .new members
  departed _ := none

def recordRotation (departed : Nat → Option Nat) (now : Nat) :
    Option Rotation → Nat → Option Nat
  | some rotation => update departed rotation.source (some now)
  | none => departed

/-- A report for an index outside of the ring panics. -/
def step (policy : GatewayRingPolicy) (chronicle : Chronicle) : HealthCall → Option Chronicle
  | .select now => some { chronicle with health := (chronicle.health.select policy now).1 }
  | .succeeded index =>
    if index < chronicle.health.members.length then
      some ⟨chronicle.health.succeeded index, update chronicle.departed index none⟩
    else none
  | .failed index kind now =>
    if index < chronicle.health.members.length then
      let (health, rotation) := chronicle.health.failed index kind policy now
      some ⟨health, recordRotation chronicle.departed now rotation⟩
    else none

/-- What a call may do. -/
inductive Moves (policy : GatewayRingPolicy) (chronicle : Chronicle) :
    HealthCall → Chronicle → Prop
  | stay (call : HealthCall) : Moves policy chronicle call chronicle
  | drift {now index : Nat} (rested : chronicle.health.rested policy now = some index) :
      Moves policy chronicle (.select now) ⟨chronicle.health.withCurrent index, chronicle.departed⟩
  | succeed {index : Nat} (inRange : index < chronicle.health.members.length) :
      Moves policy chronicle (.succeeded index)
        ⟨chronicle.health.withMember index {}, update chronicle.departed index none⟩
  | strike {kind : FailureKind} {now : Nat}
      (inRange : chronicle.health.current < chronicle.health.members.length)
      (settled : (chronicle.health.member chronicle.health.current).probation = false)
      (short : (chronicle.health.member chronicle.health.current).failed.streak <
        policy.threshold) :
      Moves policy chronicle (.failed chronicle.health.current kind now)
        ⟨chronicle.health.withMember chronicle.health.current
          (chronicle.health.member chronicle.health.current).failed, chronicle.departed⟩
  | rotate {kind : FailureKind} {now : Nat}
      (inRange : chronicle.health.current < chronicle.health.members.length) :
      Moves policy chronicle (.failed chronicle.health.current kind now)
        ⟨chronicle.health.rotate policy now,
          update chronicle.departed chronicle.health.current (some now)⟩

variable {policy : GatewayRingPolicy} {chronicle next : Chronicle} {call : HealthCall}

theorem step_moves (stepped : chronicle.step policy call = some next) :
    chronicle.Moves policy call next := by
  cases call with
  | select now =>
    cases stepped
    rw [RingHealth.select]
    split
    · rename_i index rested
      exact .drift rested
    · exact .stay _
  | succeeded index =>
    rw [step] at stepped
    split at stepped
    · rename_i inRange
      cases stepped
      exact .succeed inRange
    · cases stepped
  | failed index kind now =>
    rw [step] at stepped
    split at stepped
    · rename_i inRange
      rcases chronicle.health.failed_cases index kind policy now with
        ignored | ⟨rfl, struck, settled, short⟩ | ⟨count, rfl, rotated⟩
      · rw [ignored] at stepped
        cases stepped
        exact .stay _
      · rw [struck] at stepped
        cases stepped
        exact .strike inRange settled short
      · rw [rotated] at stepped
        cases stepped
        exact .rotate inRange
    · cases stepped

/-! ## Soundness -/

/-- The current member is in the ring and is not marked as left, and every streak
is below the threshold. -/
structure Sound (policy : GatewayRingPolicy) (members : Nat) (chronicle : Chronicle) : Prop where
  length : chronicle.health.members.length = members
  inRange : chronicle.health.current < members
  here : (chronicle.health.member chronicle.health.current).leftAt = none
  short : ∀ index, (chronicle.health.member index).streak < policy.threshold

end Chronicle

theorem GatewayRingPolicy.threshold_pos (policy : GatewayRingPolicy) : 0 < policy.threshold := by
  rw [threshold]
  split
  · exact Nat.one_pos
  · rename_i positive
    exact Nat.pos_of_ne_zero positive

namespace Chronicle

variable {policy : GatewayRingPolicy} {chronicle next : Chronicle} {call : HealthCall}
  {members : Nat}

theorem Sound.new (policy : GatewayRingPolicy) (nonempty : 0 < members) :
    Sound policy members (.new members) where
  length := length_replicate
  inRange := nonempty
  here := congrArg MemberHealth.leftAt (RingHealth.member_new members 0)
  short index := by
    rw [Chronicle.new, RingHealth.member_new]
    exact policy.threshold_pos

theorem Sound.moves (sound : Sound policy members chronicle)
    (moved : chronicle.Moves policy call next) : Sound policy members next := by
  cases moved with
  | stay => exact sound
  | @drift now index rested =>
    constructor
    · rw [RingHealth.length_withCurrent, sound.length]
    · exact Nat.lt_trans (RingHealth.rested_eq_some rested).1 sound.inRange
    · rw [RingHealth.withCurrent_current, RingHealth.member_withCurrent, if_pos rfl]
      rfl
    · intro other
      rw [RingHealth.member_withCurrent]
      split
      · exact policy.threshold_pos
      · exact sound.short other
  | @succeed index inRange =>
    constructor
    · rw [RingHealth.length_withMember, sound.length]
    · exact sound.inRange
    · rw [RingHealth.withMember_current, RingHealth.member_withMember inRange]
      split
      · rfl
      · exact sound.here
    · intro other
      rw [RingHealth.member_withMember inRange]
      split
      · exact policy.threshold_pos
      · exact sound.short other
  | strike inRange settled short =>
    constructor
    · rw [RingHealth.length_withMember, sound.length]
    · exact sound.inRange
    · rw [RingHealth.withMember_current, RingHealth.member_withMember inRange, if_pos rfl]
      exact sound.here
    · intro other
      rw [RingHealth.member_withMember inRange]
      split
      · exact short
      · exact sound.short other
  | @rotate kind now inRange =>
    constructor
    · rw [RingHealth.length_rotate, sound.length]
    · rw [← sound.length]
      exact RingHealth.nextAfter_lt policy now inRange
    · rw [RingHealth.rotate_current, RingHealth.member_rotate inRange, if_pos rfl]
      rfl
    · intro other
      rw [RingHealth.member_rotate inRange]
      split
      · exact policy.threshold_pos
      · split
        · exact policy.threshold_pos
        · exact sound.short other

theorem sound_of_reachable (nonempty : 0 < members)
    (reachable : Reachable (step policy) (.new members) chronicle) :
    Sound policy members chronicle :=
  reachable.invariant (fun _ _ _ sound stepped => sound.moves (step_moves stepped))
    (.new policy nonempty)

/-- In every state that calls lead to, the current member is in the ring and not marked as left,
streaks are below the threshold, and a failure of another member or of the request itself
changes nothing. -/
theorem ring_sound (policy : GatewayRingPolicy) (nonempty : 0 < members)
    (reachable : Reachable (step policy) (.new members) chronicle) :
    chronicle.health.members.length = members ∧
      chronicle.health.current < members ∧
      (chronicle.health.member chronicle.health.current).leftAt = none ∧
      (∀ standing ∈ chronicle.health.members, standing.streak < policy.threshold) ∧
      ∀ index kind now, index ≠ chronicle.health.current ∨ kind = .notTheMembersFault →
        chronicle.health.failed index kind policy now = (chronicle.health, none) := by
  obtain ⟨length, inRange, here, short⟩ := sound_of_reachable nonempty reachable
  refine ⟨length, inRange, here, ?_, ?_⟩
  · intro standing mem
    obtain ⟨index, rfl⟩ := RingHealth.exists_member_of_mem mem
    exact short index
  · intro index kind now ignored
    exact if_pos ignored

/-- The current member of a ring of two has failed once. -/
theorem ring_sound_after_failure :
    ∃ chronicle, Reachable (step .default) (.new 2) chronicle ∧
      chronicle.health.streakOf 0 = 1 ∧ chronicle.health.current < 2 ∧
      ∀ standing ∈ chronicle.health.members,
        standing.streak < GatewayRingPolicy.default.threshold := by
  have ran : (run (step .default) (.new 2) [.select 0, .failed 0 .counted 1]).any
      fun chronicle => decide (chronicle.health.streakOf 0 = 1) := by
    decide +kernel
  obtain ⟨chronicle, reachable, failed⟩ := exists_reachable_of_any ran
  obtain ⟨-, inRange, -, short, -⟩ := ring_sound .default Nat.two_pos reachable
  exact ⟨chronicle, reachable, of_decide_eq_true failed, inRange, short⟩

/-! ## Drifting back -/

/-- The times that members carry are those of the record. -/
def Dated (chronicle : Chronicle) : Prop :=
  ∀ index time, (chronicle.health.member index).leftAt = some time →
    chronicle.departed index = some time

theorem Dated.moves (dated : chronicle.Dated) (moved : chronicle.Moves policy call next) :
    next.Dated := by
  intro index time
  cases moved with
  | stay => exact dated index time
  | drift rested =>
    rw [RingHealth.member_withCurrent]
    split
    · exact nofun
    · exact dated index time
  | @succeed target inRange =>
    dsimp only
    rw [RingHealth.member_withMember inRange]
    by_cases same : index = target
    · rw [if_pos same]
      exact nofun
    · rw [if_neg same, update_of_ne same]
      exact dated index time
  | strike inRange settled short =>
    rw [RingHealth.member_withMember inRange]
    split
    · rename_i same
      rw [same]
      exact dated _ time
    · exact dated index time
  | rotate inRange =>
    dsimp only
    rw [RingHealth.member_rotate inRange]
    split
    · exact nofun
    · by_cases same : index = chronicle.health.current
      · rw [if_pos same, same, update_self]
        exact id
      · rw [if_neg same, update_of_ne same]
        exact dated index time

/-- Every member more preferred than the current one is marked as left. -/
def AllLeft (chronicle : Chronicle) : Prop :=
  ∀ index < chronicle.health.current, (chronicle.health.member index).leftAt.isSome

/-- A success is reported for the current member or for a less preferred one. -/
def succeedsInTime (chronicle : Chronicle) : HealthCall → Bool
  | .succeeded index => chronicle.health.current ≤ index
  | _ => true

theorem AllLeft.moves {cooldown : Nat} (isCooldown : policy.cooldown = some cooldown)
    (allLeft : chronicle.AllLeft) (moved : chronicle.Moves policy call next)
    (inTime : chronicle.succeedsInTime call) : next.AllLeft := by
  intro index preferred
  cases moved with
  | stay => exact allLeft index preferred
  | @drift now target rested =>
    rw [RingHealth.withCurrent_current] at preferred
    rw [RingHealth.member_withCurrent, if_neg (Nat.ne_of_lt preferred)]
    exact allLeft index (Nat.lt_trans preferred (RingHealth.rested_eq_some rested).1)
  | @succeed target inRange =>
    have notBefore : chronicle.health.current ≤ target := of_decide_eq_true inTime
    rw [RingHealth.member_withMember inRange,
      if_neg (Nat.ne_of_lt (Nat.lt_of_lt_of_le preferred notBefore))]
    exact allLeft index preferred
  | strike inRange settled short =>
    rw [RingHealth.withMember_current] at preferred
    rw [RingHealth.member_withMember inRange, if_neg (Nat.ne_of_lt preferred)]
    exact allLeft index preferred
  | rotate inRange =>
    rw [RingHealth.rotate_current] at preferred
    rw [RingHealth.member_rotate inRange, if_neg (Nat.ne_of_lt preferred)]
    split
    · rfl
    · rename_i apart
      rcases Nat.lt_or_gt_of_ne apart with before | after
      · exact allLeft index before
      · exact RingHealth.leftAt_of_skipped isCooldown inRange after preferred

/-- The members that are marked as left are rested from some time on. -/
theorem AllLeft.drifts {cooldown : Nat} (isCooldown : policy.cooldown = some cooldown)
    (allLeft : chronicle.AllLeft) (notFirst : chronicle.health.current ≠ 0) :
    ∃ time, ∀ now, time ≤ now →
      (chronicle.health.select policy now).2.index < chronicle.health.current ∧
        (chronicle.health.select policy now).2.returned := by
  have positive : 0 < chronicle.health.current := Nat.pos_of_ne_zero notFirst
  obtain ⟨leftAt, isLeft⟩ := isSome_iff_exists.mp (allLeft 0 positive)
  refine ⟨leftAt + cooldown, fun now later => ?_⟩
  have rests : (chronicle.health.member 0).restedFor cooldown now := by
    rw [MemberHealth.restedFor, isLeft]
    exact decide_eq_true (Nat.le_sub_of_add_le' later)
  cases rested : chronicle.health.rested policy now with
  | none =>
    rw [RingHealth.rested, isCooldown, bind_some, find?_eq_none] at rested
    exact absurd rests (rested 0 (mem_range.mpr positive))
  | some index =>
    rw [RingHealth.select, rested]
    exact ⟨(RingHealth.rested_eq_some rested).1, rfl⟩

structure Drifting (chronicle : Chronicle) : Prop where
  dated : chronicle.Dated
  allLeft : chronicle.AllLeft

/-- With a cooldown, and no success reported for a member more preferred than the current one,
every more preferred member carries the time at which it was left, and from some time on the
ring comes back to one of them. -/
theorem drifts_back_of_succeedsInTime {cooldown : Nat}
    (isCooldown : policy.cooldown = some cooldown)
    (reachable : Reachable (guarded (step policy) succeedsInTime)
      (.new members) chronicle) (notFirst : chronicle.health.current ≠ 0) :
    (∀ index < chronicle.health.current, ∃ time,
      chronicle.departed index = some time ∧ (chronicle.health.member index).leftAt = some time) ∧
    ∃ time, ∀ now, time ≤ now →
      (chronicle.health.select policy now).2.index < chronicle.health.current ∧
        (chronicle.health.select policy now).2.returned := by
  have drifting : chronicle.Drifting := by
    refine reachable.invariant (fun chronicle call next drifting stepped => ?_) ?_
    · obtain ⟨inTime, stepped⟩ := guarded_eq_some_iff.mp stepped
      have moved := step_moves stepped
      exact ⟨drifting.dated.moves moved, drifting.allLeft.moves isCooldown moved inTime⟩
    · constructor
      · intro index time isLeft
        rw [new, RingHealth.member_new] at isLeft
        cases isLeft
      · exact fun index preferred => absurd preferred (Nat.not_lt_zero index)
  refine ⟨?_, drifting.allLeft.drifts isCooldown notFirst⟩
  intro index preferred
  obtain ⟨time, isLeft⟩ := isSome_iff_exists.mp (drifting.allLeft index preferred)
  exact ⟨time, drifting.dated index time isLeft, isLeft⟩

theorem drifts_back_after_rejection :
    ∃ chronicle, Reachable (guarded (step .default) succeedsInTime) (.new 2) chronicle ∧
      chronicle.health.current = 1 ∧
      ∃ time, ∀ now, time ≤ now → (chronicle.health.select .default now).2.index < 1 := by
  have ran : (run (guarded (step .default) succeedsInTime) (.new 2)
      [.select 0, .failed 0 .immediate 1, .succeeded 1]).any
      fun chronicle => decide (chronicle.health.current = 1) := by
    decide +kernel
  obtain ⟨chronicle, reachable, isSecond⟩ := exists_reachable_of_any ran
  have isSecond := of_decide_eq_true isSecond
  have notFirst : chronicle.health.current ≠ 0 := by
    rw [isSecond]
    exact Nat.one_ne_zero
  obtain ⟨-, time, returns⟩ := drifts_back_of_succeedsInTime rfl reachable notFirst
  rw [isSecond] at returns
  exact ⟨chronicle, reachable, isSecond, time, fun now later => (returns now later).1⟩

/-- Two callers are given the first of two members.  One is rejected, which
rotates the ring, and then the other succeeds: the ring never comes back. -/
theorem never_drifts_back_after_late_success :
    ∃ chronicle, Reachable (step .default) (.new 2) chronicle ∧
      chronicle.health.current = 1 ∧ (chronicle.health.member 0).leftAt = none ∧
      ∀ now, chronicle.health.select .default now = (chronicle.health, ⟨1, false⟩) := by
  have ran : (run (step .default) (.new 2)
      [.select 0, .select 0, .failed 0 .immediate 1, .succeeded 0]).any
      fun chronicle => decide (chronicle.health = ⟨1, [{}, {}]⟩) := by
    decide +kernel
  obtain ⟨chronicle, reachable, isHealth⟩ := exists_reachable_of_any ran
  have isHealth := of_decide_eq_true isHealth
  refine ⟨chronicle, reachable, ?_⟩
  rw [isHealth]
  exact ⟨rfl, rfl, fun _ => rfl⟩

/-! ## Probation -/

/-- The ring drifts away only from a member that is not on probation. -/
def driftsSettled (policy : GatewayRingPolicy) (chronicle : Chronicle) : HealthCall → Bool
  | .select now => !chronicle.health.onProbation || (chronicle.health.rested policy now).isNone
  | _ => true

/-- A member rotated away from and without success since is on probation while it is current and
marked as left otherwise. -/
def Suspects (chronicle : Chronicle) : Prop :=
  ∀ index, (chronicle.departed index).isSome →
    if index = chronicle.health.current then (chronicle.health.member index).probation
    else (chronicle.health.member index).leftAt.isSome

theorem Suspects.moves (suspects : chronicle.Suspects) (moved : chronicle.Moves policy call next)
    (settled : chronicle.driftsSettled policy call) : next.Suspects := by
  intro index departed
  cases moved with
  | stay => exact suspects index departed
  | @drift now target rested =>
    have before := suspects index departed
    have apart : target ≠ chronicle.health.current :=
      Nat.ne_of_lt (RingHealth.rested_eq_some rested).1
    rw [RingHealth.withCurrent_current, RingHealth.member_withCurrent]
    by_cases isTarget : index = target
    · rw [if_pos isTarget, if_pos isTarget]
      rw [isTarget, if_neg apart] at before
      rw [isTarget]
      exact before
    · rw [if_neg isTarget, if_neg isTarget]
      by_cases wasCurrent : index = chronicle.health.current
      · -- The member that is left behind is not on probation.
        rw [if_pos wasCurrent, wasCurrent] at before
        rw [driftsSettled, rested, RingHealth.onProbation, before] at settled
        cases settled
      · rw [if_neg wasCurrent] at before
        exact before
  | @succeed target inRange =>
    dsimp only at departed ⊢
    by_cases same : index = target
    · rw [same, update_self] at departed
      cases departed
    · rw [update_of_ne same] at departed
      rw [RingHealth.withMember_current, RingHealth.member_withMember inRange, if_neg same]
      exact suspects index departed
  | strike inRange notProbation short =>
    have before := suspects index departed
    rw [RingHealth.withMember_current, RingHealth.member_withMember inRange]
    by_cases isCurrent : index = chronicle.health.current
    · rw [if_pos isCurrent, if_pos isCurrent]
      rw [if_pos isCurrent, isCurrent] at before
      exact before
    · rw [if_neg isCurrent, if_neg isCurrent]
      rw [if_neg isCurrent] at before
      exact before
  | @rotate kind now inRange =>
    dsimp only at departed ⊢
    rw [RingHealth.rotate_current]
    by_cases wasCurrent : index = chronicle.health.current
    · rw [RingHealth.member_rotate inRange, if_pos wasCurrent]
      split
      · rfl
      · rfl
    · rw [update_of_ne wasCurrent] at departed
      have before := suspects index departed
      rw [if_neg wasCurrent] at before
      rw [RingHealth.member_rotate inRange, if_neg wasCurrent]
      by_cases isNext : index = chronicle.health.nextAfter chronicle.health.current policy now
      · rw [if_pos isNext, if_pos isNext]
        exact before
      · rw [if_neg isNext, if_neg isNext]
        exact before

/-- When the ring drifts away only from members not on probation, a current member rotated away
from and without success since is on probation, and its next failure rotates the ring whatever
the threshold. -/
theorem on_probation_of_driftsSettled
    (reachable : Reachable (guarded (step policy) (driftsSettled policy))
      (.new members) chronicle) (departed : (chronicle.departed chronicle.health.current).isSome) :
    chronicle.health.onProbation ∧
      ∀ kind, kind ≠ .notTheMembersFault → ∀ (other : GatewayRingPolicy) (now : Nat),
        ∃ rotation, (chronicle.health.failed chronicle.health.current kind other now).2 =
            some rotation ∧ rotation.source = chronicle.health.current := by
  have suspects : chronicle.Suspects := by
    refine reachable.invariant (fun chronicle call next suspects stepped => ?_) ?_
    · obtain ⟨settled, stepped⟩ := guarded_eq_some_iff.mp stepped
      exact suspects.moves (step_moves stepped) settled
    · intro index departed
      cases departed
  have probation := suspects _ departed
  rw [if_pos rfl] at probation
  exact ⟨probation, fun kind isFault other now =>
    RingHealth.failed_onProbation probation isFault other now⟩

/-- The ring rotates around two members and comes back to the first. -/
theorem on_probation_after_rotations :
    ∃ chronicle, Reachable (guarded (step .default) (driftsSettled .default)) (.new 2) chronicle ∧
      chronicle.departed chronicle.health.current = some 1 ∧ chronicle.health.onProbation := by
  have ran : (run (guarded (step .default) (driftsSettled .default)) (.new 2)
      [.select 0, .failed 0 .immediate 1, .failed 1 .immediate 2]).any
      fun chronicle => decide (chronicle.departed chronicle.health.current = some 1) := by
    decide +kernel
  obtain ⟨chronicle, reachable, departed⟩ := exists_reachable_of_any ran
  have departed := of_decide_eq_true departed
  have isSome : (chronicle.departed chronicle.health.current).isSome := by
    rw [departed]
    rfl
  exact ⟨chronicle, reachable, departed, (on_probation_of_driftsSettled reachable isSome).1⟩

/-- Both members are left in turn.  The second is on probation when the ring drifts back to the
first; that fails, and the second is current again, off probation: its failure does not rotate. -/
theorem off_probation_after_drift :
    ∃ chronicle, Reachable (step .default) (.new 2) chronicle ∧
      chronicle.health.current = 1 ∧ chronicle.departed 1 = some 0 ∧
      chronicle.health.onProbation = false ∧
      (chronicle.health.failed 1 .counted .default 90).2 = none := by
  have ran : (run (step .default) (.new 2)
      [.select 0, .failed 0 .immediate 0, .failed 1 .immediate 0, .select 30,
        .failed 0 .immediate 30, .select 90, .failed 0 .immediate 90]).any
      fun chronicle => decide (chronicle.health.current = 1 ∧ chronicle.departed 1 = some 0 ∧
        chronicle.health.onProbation = false ∧
        (chronicle.health.failed 1 .counted .default 90).2 = none) := by
    decide +kernel
  obtain ⟨chronicle, reachable, found⟩ := exists_reachable_of_any ran
  exact ⟨chronicle, reachable, of_decide_eq_true found⟩

end Chronicle

end Mentra.Gateway
