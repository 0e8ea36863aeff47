import Mathlib

/-!
# The memory of a gateway ring

Model of `mentra-provider/src/gateway_ring/health.rs`: which member is answering, how many
times in a row it has failed, and which members were left and when.

Times are numbers of one unit.  The source panics on an index outside of the ring; here a
member in good standing is found there, and no such index is ever in use.
-/

namespace Mentra.Gateway

open List Option

/-- When a ring leaves a member and when it comes back. -/
structure GatewayRingPolicy where
  failureThreshold : Nat
  cooldown : Option Nat

namespace GatewayRingPolicy

def defaultFailureThreshold : Nat := 5

/-- A minute, in seconds. -/
def defaultCooldown : Nat := 60

variable (policy : GatewayRingPolicy)

/-- A threshold of zero is read as one. -/
def threshold : Nat :=
  if policy.failureThreshold = 0 then 1 else policy.failureThreshold

def default : GatewayRingPolicy where
  failureThreshold := defaultFailureThreshold
  cooldown := some defaultCooldown

end GatewayRingPolicy

/-- What a failed call says about the member that failed it. -/
inductive FailureKind
  | counted
  | immediate
  | notTheMembersFault
  deriving DecidableEq

/-- The standing of one member. -/
structure MemberHealth where
  streak : Nat := 0
  probation : Bool := false
  leftAt : Option Nat := none
  deriving DecidableEq

namespace MemberHealth

def succeeded (_ : MemberHealth) : MemberHealth :=
  {}

/-- The streak saturates at the largest number of 32 bits. -/
def failed (member : MemberHealth) : MemberHealth :=
  { member with streak := min (member.streak + 1) (2 ^ 32 - 1) }

def left (_ : MemberHealth) (now : Nat) : MemberHealth where
  streak := 0
  probation := false
  leftAt := some now

def returnedTo (member : MemberHealth) : MemberHealth where
  streak := 0
  probation := member.leftAt.isSome
  leftAt := none

/-- The time since a later time is zero. -/
def restedFor (member : MemberHealth) (cooldown now : Nat) : Bool :=
  member.leftAt.any fun leftAt => cooldown ≤ now - leftAt

end MemberHealth

/-- Which member a call goes to, and whether the ring just came back to it. -/
structure Selection where
  index : Nat
  returned : Bool

structure Rotation where
  source : Nat
  target : Nat
  afterFailures : Nat

structure RingHealth where
  current : Nat
  members : List MemberHealth
  deriving DecidableEq

namespace RingHealth

def new (members : Nat) : RingHealth where
  current := 0
  members := List.replicate members {}

def member (health : RingHealth) (index : Nat) : MemberHealth :=
  health.members.getD index {}

def onProbation (health : RingHealth) : Bool :=
  (health.member health.current).probation

def streakOf (health : RingHealth) (index : Nat) : Nat :=
  (health.member index).streak

def withCurrent (health : RingHealth) (index : Nat) : RingHealth where
  current := index
  members := health.members.mapIdx fun i member =>
    if i = index then member.returnedTo else member

def withMember (health : RingHealth) (index : Nat) (standing : MemberHealth) : RingHealth where
  current := health.current
  members := health.members.mapIdx fun i member => if i = index then standing else member

/-- The most preferred of the members before the current one that have rested. -/
def rested (health : RingHealth) (policy : GatewayRingPolicy) (now : Nat) : Option Nat :=
  policy.cooldown.bind fun cooldown =>
    (List.range health.current).find? fun index => (health.member index).restedFor cooldown now

def select (health : RingHealth) (policy : GatewayRingPolicy) (now : Nat) :
    RingHealth × Selection :=
  match health.rested policy now with
  | some index => (health.withCurrent index, ⟨index, true⟩)
  | none => (health, ⟨health.current, false⟩)

def succeeded (health : RingHealth) (index : Nat) : RingHealth :=
  health.withMember index (health.member index).succeeded

/-- The other members in the order of the ring. -/
def candidates (health : RingHealth) (index : Nat) : List Nat :=
  let count := health.members.length
  (List.range' 1 (count - 1)).map fun step => (index + step) % count

def nextAfter (health : RingHealth) (index : Nat) (policy : GatewayRingPolicy) (now : Nat) : Nat :=
  let candidates := health.candidates index
  match policy.cooldown with
  | some cooldown =>
    ((candidates.find? fun candidate =>
      let member := health.member candidate
      member.leftAt.isNone || member.restedFor cooldown now).or candidates.head?).getD index
  | none => candidates.head?.getD index

/-- Whether a failure of that kind, already on the streak, rotates the ring. -/
def rotates (member : MemberHealth) (kind : FailureKind) (policy : GatewayRingPolicy) : Bool :=
  match kind with
  | .immediate => true
  | .counted => member.probation || policy.threshold ≤ member.streak
  | .notTheMembersFault => false

def failed (health : RingHealth) (index : Nat) (kind : FailureKind) (policy : GatewayRingPolicy)
    (now : Nat) : RingHealth × Option Rotation :=
  if index ≠ health.current ∨ kind = .notTheMembersFault then (health, none)
  else
    let member := (health.member index).failed
    if rotates member kind policy then
      let afterFailures := if kind = .immediate then 0 else member.streak
      let next := health.nextAfter index policy now
      ((health.withMember index (member.left now)).withCurrent next,
        some ⟨index, next, afterFailures⟩)
    else (health.withMember index member, none)

/-! ## Looking members up -/

variable {health : RingHealth} {index : Nat}

@[simp]
theorem length_withCurrent (health : RingHealth) (index : Nat) :
    (health.withCurrent index).members.length = health.members.length :=
  length_mapIdx

@[simp]
theorem length_withMember (health : RingHealth) (index : Nat) (standing : MemberHealth) :
    (health.withMember index standing).members.length = health.members.length :=
  length_mapIdx

theorem member_new (members index : Nat) : (new members).member index = {} := by
  rw [member, new, getD_eq_getElem?_getD, getElem?_replicate]
  split
  · rfl
  · rfl

/-- Outside of the ring nothing was left, so coming back changes nothing there. -/
theorem member_withCurrent (health : RingHealth) (target index : Nat) :
    (health.withCurrent target).member index =
      if index = target then (health.member index).returnedTo else health.member index := by
  simp only [member, withCurrent, getD_eq_getElem?_getD, getElem?_mapIdx]
  cases health.members[index]? with
  | none =>
    by_cases same : index = target
    · simp [same, MemberHealth.returnedTo]
    · simp [same]
  | some found =>
    by_cases same : index = target
    · simp [same]
    · simp [same]

theorem member_withMember {standing : MemberHealth} {target : Nat}
    (inRange : target < health.members.length) (index : Nat) :
    (health.withMember target standing).member index =
      if index = target then standing else health.member index := by
  simp only [member, withMember, getD_eq_getElem?_getD, getElem?_mapIdx]
  by_cases same : index = target
  · rw [same, getElem?_eq_getElem inRange]
    simp
  · simp [same]

theorem withCurrent_current (health : RingHealth) (index : Nat) :
    (health.withCurrent index).current = index :=
  rfl

theorem withMember_current (health : RingHealth) (index : Nat) (standing : MemberHealth) :
    (health.withMember index standing).current = health.current :=
  rfl

/-! ## Which member is next -/

theorem rested_eq_some {policy : GatewayRingPolicy} {now : Nat}
    (isRested : health.rested policy now = some index) :
    index < health.current ∧ (health.member index).leftAt.isSome := by
  obtain ⟨cooldown, -, found⟩ := bind_eq_some_iff.mp isRested
  obtain ⟨isRested, mem, -⟩ := find?_range_eq_some.mp found
  obtain ⟨leftAt, isLeft, -⟩ := (any_eq_true _ _).mp isRested
  exact ⟨mem_range.mp mem, isSome_iff_exists.mpr ⟨leftAt, isLeft⟩⟩

theorem lt_of_mem_candidates {candidate : Nat} (mem : candidate ∈ health.candidates index) :
    candidate < health.members.length := by
  obtain ⟨step, isStep, rfl⟩ := mem_map.mp mem
  rw [mem_range'_1] at isStep
  apply Nat.mod_lt
  omega

variable (policy : GatewayRingPolicy)

theorem nextAfter_mem (now : Nat) :
    health.nextAfter index policy now ∈ health.candidates index ∨
      health.candidates index = [] ∧ health.nextAfter index policy now = index := by
  have first : health.candidates index = [] ∨
      ∃ candidate, (health.candidates index).head? = some candidate ∧
        candidate ∈ health.candidates index := by
    cases health.candidates index with
    | nil => exact .inl rfl
    | cons candidate rest => exact .inr ⟨candidate, rfl, mem_cons_self⟩
  rw [nextAfter]
  rcases first with none | ⟨candidate, isFirst, mem⟩
  · refine .inr ⟨none, ?_⟩
    simp only [none]
    split
    · rfl
    · rfl
  · left
    simp only [isFirst]
    split
    · rename_i cooldown _
      cases found : (health.candidates index).find? fun candidate =>
          (health.member candidate).leftAt.isNone ||
            (health.member candidate).restedFor cooldown now with
      | none => exact mem
      | some rested => exact mem_of_find?_eq_some found
    · exact mem

theorem nextAfter_lt (now : Nat) (inRange : index < health.members.length) :
    health.nextAfter index policy now < health.members.length := by
  rcases nextAfter_mem policy now with mem | ⟨-, same⟩
  · exact lt_of_mem_candidates mem
  · rw [same]
    exact inRange

/-- With a cooldown, the members that the ring skips on its way are marked as
left. -/
theorem leftAt_of_skipped {policy : GatewayRingPolicy} {cooldown now other : Nat}
    (isCooldown : policy.cooldown = some cooldown) (inRange : index < health.members.length)
    (after : index < other) (before : other < health.nextAfter index policy now) :
    (health.member other).leftAt.isSome := by
  simp only [nextAfter, isCooldown] at before
  cases found : (health.candidates index).find? fun candidate =>
      (health.member candidate).leftAt.isNone ||
        (health.member candidate).restedFor cooldown now with
  | none =>
    -- The next member in the order of the ring: none is skipped.
    rw [found, none_or, candidates] at before
    cases steps : health.members.length - 1 with
    | zero =>
      simp only [steps, range'_zero, map_nil, head?_nil, getD_none] at before
      omega
    | succ count =>
      simp only [steps, range'_succ, map_cons, head?_cons, getD_some] at before
      have bound := Nat.mod_le (index + 1) health.members.length
      omega
  | some candidate =>
    rw [found, some_or, getD_some] at before
    rw [candidates, find?_map, map_eq_some_iff] at found
    obtain ⟨step, found, rfl⟩ := found
    obtain ⟨-, isStep, earlier⟩ := find?_range'_eq_some.mp found
    rw [mem_range'_1] at isStep
    have noWrap : index + step < health.members.length := by
      by_contra wraps
      rw [Nat.mod_eq_sub_mod (Nat.le_of_not_lt wraps), Nat.mod_eq_of_lt (by omega)] at before
      omega
    rw [Nat.mod_eq_of_lt noWrap] at before
    have skipped := earlier (other - index) (by omega) (by omega)
    have isOther : (index + (other - index)) % health.members.length = other := by
      rw [Nat.add_sub_cancel' (Nat.le_of_lt after), Nat.mod_eq_of_lt (Nat.lt_trans before noWrap)]
    simp only [Function.comp_apply, isOther, Bool.not_or, Bool.and_eq_true,
      Bool.not_eq_true', isNone_eq_false_iff] at skipped
    exact skipped.1

end RingHealth

end Mentra.Gateway
