import Mentra.Task.Tools

/-!
# Invariants of the task graph

What every step keeps: dependencies name tasks, each blocker of a task lists it, and no task
depends on itself through others.  What it keeps when an update does not disturb it: the
blockers of an unfinished task are exactly the unfinished tasks that list it, and only pending
tasks wait for others.
-/

namespace Mentra.Task.View

open Foundation List

variable {view next : View} {id other : Nat} {edges : List (Nat × Nat)} {call : Call}
  {input : TaskUpdateInput}

/-! ## Soundness -/

def Present (view : View) (id : Nat) : Prop :=
  ∃ status, view.status id = some status

structure Sound (view : View) : Prop where
  present : ∀ id other, view.blocks id other → view.Present id ∧ view.Present other
  mirrored : ∀ id other, view.blockedBy id other → view.blocks other id
  acyclic : Digraph.Acyclic view.blocks

namespace Sound

section

variable (sound : view.Sound)
include sound

theorem link (linkable : view.Linkable edges) : (view.link edges).Sound where
  present id other edge := by
    rcases edge with old | new
    · exact sound.present id other old
    · exact linkable.present (id, other) new
  mirrored id other blocked := by
    rcases blocked with old | ⟨new, -⟩
    · exact .inl (sound.mirrored id other old)
    · exact .inr new
  acyclic := linkable.acyclic sound.acyclic

theorem unlink (edges : List (Nat × Nat)) : (view.unlink edges).Sound where
  present id other edge := sound.present id other edge.1
  mirrored id other blocked := ⟨sound.mirrored id other blocked.1, blocked.2⟩
  acyclic := sound.acyclic.mono fun _ _ edge => edge.1

theorem edit (editable : view.Editable input) : (view.edit input).Sound :=
  (((sound.link editable.blockers).unlink _).link editable.dependents).unlink _

theorem of_blocks_eq (next : View) (blocks : next.blocks = view.blocks)
    (mirrored : ∀ id other, next.blockedBy id other → view.blocks other id)
    (present : ∀ id, view.Present id → next.Present id) : next.Sound where
  present id other edge := by
    rw [blocks] at edge
    obtain ⟨first, last⟩ := sound.present id other edge
    exact ⟨present id first, present other last⟩
  mirrored id other blocked := blocks ▸ mirrored id other blocked
  acyclic := blocks ▸ sound.acyclic

theorem insert (id : Nat) : (view.insert id).Sound := by
  apply sound.of_blocks_eq (view.insert id) rfl sound.mirrored
  rintro other ⟨status, isStatus⟩
  by_cases same : other = id
  · exact ⟨.pending, if_pos same⟩
  · exact ⟨status, (if_neg same).trans isStatus⟩

theorem setStatus (id : Nat) (status : TaskStatus) : (view.setStatus id status).Sound := by
  apply sound.of_blocks_eq (view.setStatus id status) rfl sound.mirrored
  rintro other ⟨old, isStatus⟩
  by_cases same : other = id
  · exact ⟨status, if_pos same⟩
  · exact ⟨old, (if_neg same).trans isStatus⟩

theorem finish (id : Nat) : (view.finish id).Sound :=
  (sound.setStatus id .completed).of_blocks_eq (view.finish id) rfl
    (fun other blocker blocked => sound.mirrored other blocker blocked.1) fun _ present => present

theorem reopen (id : Nat) (status : TaskStatus) : (view.reopen id status).Sound := by
  apply (sound.setStatus id status).of_blocks_eq (view.reopen id status) rfl _
    fun _ present => present
  rintro other blocker (old | ⟨rfl, listed, -⟩)
  · exact sound.mirrored other blocker old
  · exact listed

theorem change {original : TaskStatus} {requested : Option TaskStatus}
    (changed : view.Change id original requested next) : next.Sound := by
  cases changed with
  | keep => exact sound
  | finish => exact sound.finish id
  | start => exact sound.setStatus id _
  | reopen => exact sound.reopen id _

theorem step (stepped : view.Step call next) : next.Sound := by
  cases stepped with
  | stay => exact sound
  | create _ linkable => exact (sound.insert _).link linkable
  | update _ editable changed => exact (sound.edit editable).change changed

theorem not_blocks_of_fresh (fresh : view.status id = none) (other : Nat) :
    ¬ view.blocks id other ∧ ¬ view.blocks other id := by
  have absent : ¬ view.Present id := by
    rintro ⟨status, isStatus⟩
    rw [fresh] at isStatus
    cases isStatus
  constructor
  · intro edge
    exact absent (sound.present id other edge).1
  · intro edge
    exact absent (sound.present other id edge).2

end

end Sound

/-! ## Exactness -/

/-- The blockers of a task are right about the ids in question. -/
def ExactAt (view : View) (id : Nat) (inQuestion : Nat → Prop) : Prop :=
  ∀ other, inQuestion other →
    (view.blockedBy id other ↔ view.blocks other id ∧ view.Unfinished other)

/-- The blockers of every unfinished task are right. -/
def Exact (view : View) : Prop :=
  ∀ id, view.Unfinished id → ∀ other,
    view.blockedBy id other ↔ view.blocks other id ∧ view.Unfinished other

/-- The update takes up a task that was completed. -/
def Reopens (view : View) (input : TaskUpdateInput) : Prop :=
  view.status input.taskId = some .completed ∧ ∃ status ∈ input.status, status ≠ .completed

/-- A task is reopened only when its blockers are right about those that the
update does not remove. -/
def ReopensExact (view : View) (input : TaskUpdateInput) : Prop :=
  view.Reopens input → view.ExactAt input.taskId (· ∉ input.removeBlockedBy)

namespace ExactAt

variable {inQuestion : Nat → Prop}

theorem link (exact : view.ExactAt id inQuestion) (edges : List (Nat × Nat)) :
    (view.link edges).ExactAt id inQuestion := by
  intro other asked
  change view.blockedBy id other ∨ (other, id) ∈ edges ∧ view.Unfinished other ↔
    (view.blocks other id ∨ (other, id) ∈ edges) ∧ view.Unfinished other
  rw [exact other asked, or_and_right]

theorem unlink (edges : List (Nat × Nat))
    (exact : view.ExactAt id fun other => inQuestion other ∧ (other, id) ∉ edges) :
    (view.unlink edges).ExactAt id inQuestion := by
  intro other asked
  change view.blockedBy id other ∧ (other, id) ∉ edges ↔
    (view.blocks other id ∧ (other, id) ∉ edges) ∧ view.Unfinished other
  by_cases removed : (other, id) ∈ edges
  · simp [removed]
  · simp [removed, exact other ⟨asked, removed⟩]

theorem edit (input : TaskUpdateInput)
    (exact : view.ExactAt id fun other => id = input.taskId → other ∉ input.removeBlockedBy) :
    (view.edit input).ExactAt id fun _ => True := by
  apply unlink
  apply link
  intro other _
  have unlinked : ((view.link (input.addBlockedBy.map (·, input.taskId))).unlink
      (input.removeBlockedBy.map (·, input.taskId))).ExactAt id fun _ => True := by
    apply unlink
    intro other asked
    apply exact.link
    rintro rfl removed
    exact asked.2 (mem_map_of_mem removed)
  exact unlinked other trivial

end ExactAt

/-! How a change of status changes which tasks are unfinished. -/

theorem unfinished_insert (id other : Nat) :
    (view.insert id).Unfinished other ↔ other = id ∨ view.Unfinished other := by
  by_cases same : other = id
  · simp [Unfinished, insert, same]
  · simp [Unfinished, insert, same]

theorem unfinished_setStatus_completed (id other : Nat) :
    (view.setStatus id .completed).Unfinished other ↔ other ≠ id ∧ view.Unfinished other := by
  by_cases same : other = id
  · simp [Unfinished, setStatus, same]
  · simp [Unfinished, setStatus, same]

variable {status : TaskStatus}

theorem unfinished_setStatus (isOpen : status ≠ .completed) (id other : Nat) :
    (view.setStatus id status).Unfinished other ↔ other = id ∨ view.Unfinished other := by
  by_cases same : other = id
  · simp [Unfinished, setStatus, same, isOpen]
  · simp [Unfinished, setStatus, same]

namespace Exact

theorem insert (sound : view.Sound) (exact : view.Exact) (fresh : view.status id = none) :
    (view.insert id).Exact := by
  intro dependent unfinished blocker
  change view.blockedBy dependent blocker ↔
    view.blocks blocker dependent ∧ (view.insert id).Unfinished blocker
  rw [unfinished_insert] at unfinished ⊢
  rcases unfinished with rfl | unfinished
  · have unlisted := (sound.not_blocks_of_fresh fresh blocker).2
    constructor
    · intro blocked
      exact absurd (sound.mirrored _ _ blocked) unlisted
    · intro listed
      exact absurd listed.1 unlisted
  · rw [exact dependent unfinished blocker]
    constructor
    · rintro ⟨listed, blockerUnfinished⟩
      exact ⟨listed, .inr blockerUnfinished⟩
    · rintro ⟨listed, rfl | blockerUnfinished⟩
      · exact absurd listed (sound.not_blocks_of_fresh fresh dependent).1
      · exact ⟨listed, blockerUnfinished⟩

section

variable (exact : view.Exact)
include exact

theorem exactAt (unfinished : view.Unfinished id) (inQuestion : Nat → Prop) :
    view.ExactAt id inQuestion :=
  fun other _ => exact id unfinished other

theorem link (edges : List (Nat × Nat)) : (view.link edges).Exact :=
  fun _ unfinished other => (exact.exactAt unfinished fun _ => True).link edges other trivial

theorem edit (input : TaskUpdateInput) : (view.edit input).Exact :=
  fun _ unfinished other => ExactAt.edit input (exact.exactAt unfinished _) other trivial

theorem finish (id : Nat) : (view.finish id).Exact := by
  intro dependent unfinished blocker
  have isUnfinished : (view.setStatus id .completed).Unfinished dependent := unfinished
  change view.blockedBy dependent blocker ∧ ¬ (blocker = id ∧ view.blocks id dependent ∧
      (view.setStatus id .completed).Unfinished dependent) ↔
    view.blocks blocker dependent ∧ (view.setStatus id .completed).Unfinished blocker
  obtain ⟨-, wasUnfinished⟩ := (unfinished_setStatus_completed _ _).mp isUnfinished
  rw [exact dependent wasUnfinished blocker, unfinished_setStatus_completed id blocker]
  constructor
  · rintro ⟨⟨listed, blockerUnfinished⟩, others⟩
    refine ⟨listed, ?_, blockerUnfinished⟩
    rintro rfl
    exact others ⟨rfl, listed, isUnfinished⟩
  · rintro ⟨listed, apart, blockerUnfinished⟩
    exact ⟨⟨listed, blockerUnfinished⟩, fun released => apart released.1⟩

theorem start (wasOpen : view.Unfinished id) (isOpen : status ≠ .completed) :
    (view.setStatus id status).Exact := by
  have sameUnfinished (other : Nat) :
      (view.setStatus id status).Unfinished other ↔ view.Unfinished other := by
    rw [unfinished_setStatus isOpen]
    constructor
    · rintro (rfl | unfinished)
      · exact wasOpen
      · exact unfinished
    · exact .inr
  intro dependent unfinished blocker
  rw [sameUnfinished] at unfinished ⊢
  exact exact dependent unfinished blocker

theorem reopen (exactAt : view.ExactAt id fun _ => True) (isOpen : status ≠ .completed) :
    (view.reopen id status).Exact := by
  intro dependent unfinished blocker
  have isUnfinished : (view.setStatus id status).Unfinished dependent := unfinished
  change view.blockedBy dependent blocker ∨ blocker = id ∧ view.blocks id dependent ∧
      (view.setStatus id status).Unfinished dependent ↔
    view.blocks blocker dependent ∧ (view.setStatus id status).Unfinished blocker
  have before : view.blockedBy dependent blocker ↔
      view.blocks blocker dependent ∧ view.Unfinished blocker := by
    rcases (unfinished_setStatus isOpen _ _).mp isUnfinished with rfl | wasUnfinished
    · exact exactAt blocker trivial
    · exact exact dependent wasUnfinished blocker
  rw [before, unfinished_setStatus isOpen id blocker]
  constructor
  · rintro (⟨listed, blockerUnfinished⟩ | ⟨rfl, listed, -⟩)
    · exact ⟨listed, .inr blockerUnfinished⟩
    · exact ⟨listed, .inl rfl⟩
  · rintro ⟨listed, rfl | blockerUnfinished⟩
    · exact .inr ⟨rfl, listed, isUnfinished⟩
    · exact .inl ⟨listed, blockerUnfinished⟩

end

theorem step (sound : view.Sound) (exact : view.Exact) (stepped : view.Step call next)
    (undisturbed : ∀ input, call = .update input → view.ReopensExact input) : next.Exact := by
  cases stepped with
  | stay => exact exact
  | create fresh => exact (insert sound exact fresh).link _
  | @update input original _ present _ changed =>
    generalize requested : input.status = request at changed
    cases changed with
    | keep => exact exact.edit input
    | finish => exact (exact.edit input).finish _
    | start wasOpen isOpen => exact (exact.edit input).start ⟨_, present, wasOpen⟩ isOpen
    | reopen isOpen =>
      have reopens : view.Reopens input := ⟨present, _, requested, isOpen⟩
      have edited := ExactAt.edit input fun other kept =>
        undisturbed input rfl reopens other (kept rfl)
      exact (exact.edit input).reopen edited isOpen

end Exact

/-! ## Waiting -/

/-- A pending task is completed only together with the removal of what it waits for, and a task
is reopened only when nothing that depends on it has been started. -/
structure KeepsWaiting (view : View) (input : TaskUpdateInput) : Prop where
  finishes : input.status = some .completed → view.status input.taskId = some .pending →
    ∀ other,
      view.blockedBy input.taskId other ∨ other ∈ input.addBlockedBy ∧ view.Unfinished other →
      other ∈ input.removeBlockedBy
  reopens : view.Reopens input →
    ∀ other, view.blocks input.taskId other ∨ other ∈ input.addBlocks →
      other ∉ input.removeBlocks → view.status other ≠ some .inProgress

namespace Valid

theorem link (valid : view.Valid id) (linkable : view.Linkable edges) :
    (view.link edges).Valid id := by
  intro status isStatus begun other blocked
  rcases blocked with old | ⟨new, unfinished⟩
  · exact valid status isStatus begun other old
  · have pending := linkable.waits (other, id) new unfinished
    rw [show view.status id = some status from isStatus] at pending
    cases pending
    exact begun rfl

theorem unlink (valid : view.Valid id) (edges : List (Nat × Nat)) : (view.unlink edges).Valid id :=
  fun status isStatus begun other blocked => valid status isStatus begun other blocked.1

theorem edit (valid : view.Valid id) (editable : view.Editable input) :
    (view.edit input).Valid id :=
  (((valid.link editable.blockers).unlink _).link editable.dependents).unlink _

end Valid

theorem blockedBy_edit (apart : other ≠ input.taskId)
    (blocked : (view.edit input).blockedBy input.taskId other) :
    (view.blockedBy input.taskId other ∨ other ∈ input.addBlockedBy ∧ view.Unfinished other) ∧
      other ∉ input.removeBlockedBy := by
  obtain ⟨(⟨old | ⟨added, unfinished⟩, kept⟩ | ⟨isSelf, -⟩), -⟩ := blocked
  · exact ⟨.inl old, fun removed => kept (mem_map_of_mem removed)⟩
  · obtain ⟨blocker, isAdded, same⟩ := mem_map.mp added
    cases same
    exact ⟨.inr ⟨isAdded, unfinished⟩, fun removed => kept (mem_map_of_mem removed)⟩
  · obtain ⟨dependent, -, same⟩ := mem_map.mp isSelf
    cases same
    exact absurd rfl apart

theorem blocks_edit (apart : other ≠ input.taskId)
    (blocks : (view.edit input).blocks input.taskId other) :
    (view.blocks input.taskId other ∨ other ∈ input.addBlocks) ∧ other ∉ input.removeBlocks := by
  obtain ⟨(⟨old | added, -⟩ | added), kept⟩ := blocks
  · exact ⟨.inl old, fun removed => kept (mem_map_of_mem removed)⟩
  · obtain ⟨blocker, -, same⟩ := mem_map.mp added
    cases same
    exact absurd rfl apart
  · obtain ⟨dependent, isAdded, same⟩ := mem_map.mp added
    cases same
    exact ⟨.inr isAdded, fun removed => kept (mem_map_of_mem removed)⟩

theorem Sound.not_blocks_self (sound : view.Sound) (id : Nat) : ¬ view.blocks id id :=
  fun loop => sound.acyclic id (.single loop)

theorem Sound.ne_of_blockedBy (sound : view.Sound) (blocked : view.blockedBy id other) :
    other ≠ id := by
  rintro rfl
  exact sound.not_blocks_self other (sound.mirrored other other blocked)

theorem Sound.ne_of_blocks (sound : view.Sound) (blocks : view.blocks id other) : other ≠ id := by
  rintro rfl
  exact sound.not_blocks_self other blocks

/-- Only pending tasks wait. -/
def OnlyPendingWait (view : View) : Prop :=
  ∀ id, view.Valid id

namespace OnlyPendingWait

section

variable (rule : view.OnlyPendingWait)
include rule

theorem insert (id : Nat) : (view.insert id).OnlyPendingWait := by
  intro dependent status isStatus begun
  by_cases same : dependent = id
  · cases (if_pos same).symm.trans isStatus
    exact absurd rfl begun
  · exact rule dependent status ((if_neg same).symm.trans isStatus) begun

theorem setStatus (valid : (view.setStatus id status).Valid id) :
    (view.setStatus id status).OnlyPendingWait := by
  intro dependent other isStatus begun
  by_cases same : dependent = id
  · rw [same] at isStatus ⊢
    exact valid other isStatus begun
  · exact rule dependent other ((if_neg same).symm.trans isStatus) begun

theorem finish (free : ∀ other, ¬ view.blockedBy id other) : (view.finish id).OnlyPendingWait := by
  have completed : (view.setStatus id .completed).OnlyPendingWait :=
    rule.setStatus fun _ _ _ => free
  intro dependent status isStatus begun other blocked
  exact completed dependent status isStatus begun other blocked.1

theorem reopen (sound : view.Sound) (valid : (view.setStatus id status).Valid id)
    (unstarted : ∀ other, view.blocks id other → view.status other ≠ some .inProgress) :
    (view.reopen id status).OnlyPendingWait := by
  intro dependent other isStatus begun blocker blocked
  rcases blocked with old | ⟨rfl, listed, dependentStatus, sameStatus, isOpen⟩
  · exact rule.setStatus valid dependent other isStatus begun blocker old
  · have apart := sound.ne_of_blocks listed
    cases sameStatus.symm.trans isStatus
    have wasStatus := (if_neg apart).symm.trans isStatus
    cases other with
    | pending => exact begun rfl
    | inProgress => exact unstarted dependent listed wasStatus
    | completed => exact isOpen rfl

end

theorem step (sound : view.Sound) (rule : view.OnlyPendingWait) (stepped : view.Step call next)
    (keeps : ∀ input, call = .update input → view.KeepsWaiting input) : next.OnlyPendingWait := by
  cases stepped with
  | stay => exact rule
  | create _ linkable => exact fun id => (rule.insert _ id).link linkable
  | @update input original _ present editable changed =>
    have edited : (view.edit input).OnlyPendingWait := fun id => (rule id).edit editable
    have soundEdited := sound.edit editable
    have kept := keeps input rfl
    generalize requested : input.status = request at changed
    cases changed with
    | keep => exact edited
    | finish another valid =>
      apply edited.finish
      intro other blocked
      by_cases pending : original = .pending
      · -- The check sees a pending task, which may wait.
        rw [pending] at present
        obtain ⟨was, stays⟩ := blockedBy_edit (soundEdited.ne_of_blockedBy blocked) blocked
        exact stays (kept.finishes requested present other was)
      · exact valid original present pending other blocked
    | start _ _ valid => exact edited.setStatus valid
    | reopen isOpen valid =>
      apply edited.reopen soundEdited valid
      intro other blocks
      obtain ⟨was, stays⟩ := blocks_edit (soundEdited.ne_of_blocks blocks) blocks
      exact kept.reopens ⟨present, _, requested, isOpen⟩ other was stays

end OnlyPendingWait

end Mentra.Task.View
