import Mentra.Permission.Canonical

/-!
# The volatile and the file store of permission rules

Models of `mentra/src/runtime/volatile_store/permission.rs` and of
`mentra/src/runtime/file_store/rules.rs`.  Both keep rows in a list and treat a row by the
same functions.  The file store reads the rows from `rules.json` for every change, replaces
the file if something changed, and answers loads from a snapshot as long as the file is the
one the snapshot was taken of.  A file is known by a number, and a replacement has a new one.
Its JSON text, failures of the file system and other processes are left out.
-/

namespace Mentra.Permission

structure StoredRule where
  sessionId : String
  projectId : Option String
  rule : RememberedRule
  deriving DecidableEq

def inNamespace (stored : StoredRule) (context : PermissionRuleContext)
    (scope : PermissionRuleScope) : Bool :=
  if stored.rule.scope ≠ scope then false
  else
    match scope with
    | .process => false
    | .session => stored.sessionId = context.sessionId
    | .project => context.projectId.isSome && stored.projectId = context.projectId
    | .global => true

def atAddress (stored : StoredRule) (context : PermissionRuleContext)
    (address : PermissionRuleAddress) : Bool :=
  inNamespace stored context address.scope && stored.rule.key = address.key

def storedRule (context : PermissionRuleContext) (rule : RememberedRule) : StoredRule where
  sessionId := context.sessionId
  projectId := match rule.scope with
    | .project => context.projectId
    | .process | .session | .global => none
  rule := rule

def upsert (rows : List StoredRule) (context : PermissionRuleContext) (rule : RememberedRule) :
    List StoredRule :=
  (rows.filter fun stored => !atAddress stored context rule.address) ++ [storedRule context rule]

/-- The answer of `load_applicable_rules` from the rows of a store. -/
def applicableRules (rows : List StoredRule) (context : PermissionRuleContext) :
    List RememberedRule :=
  canonicalizePermissionRules
    ((rows.filter fun stored => inNamespace stored context stored.rule.scope).map StoredRule.rule)

/-- The checks of `save_rules`, up to the first that fails. -/
def validateRules (context : PermissionRuleContext) :
    List RememberedRule → Except RuntimeError Unit
  | [] => .ok ()
  | rule :: rules => do
      context.validatePersistedScope rule.scope
      validateRules context rules

/-! ## Calls and replies -/

/-- A call of the `PermissionRuleStore` trait. -/
inductive StoreCall
  | upsertRule (context : PermissionRuleContext) (rule : RememberedRule)
  | loadApplicableRules (context : PermissionRuleContext)
  | revokeRule (context : PermissionRuleContext) (address : PermissionRuleAddress)
  | clearScope (context : PermissionRuleContext) (scope : PermissionRuleScope)
  | saveRules (sessionId : String) (projectId : Option String) (rules : List RememberedRule)
  | loadRules (sessionId : String) (projectId : Option String)
  | clearRules (sessionId : String)

inductive StoreReply
  | done
  | rules (rules : List RememberedRule)
  | revoked (existed : Bool)
  | cleared (removed : Nat)
  | failed (error : RuntimeError)
  deriving DecidableEq

/-- The replies to a sequence of calls, and the state after it. -/
def replies {σ : Type} (step : σ → StoreCall → StoreReply × σ) :
    σ → List StoreCall → List StoreReply × σ
  | state, [] => ([], state)
  | state, call :: calls =>
    let (reply, next) := step state call
    let (rest, final) := replies step next calls
    (reply :: rest, final)

/-! ## The volatile store -/

namespace VolatileRuntimeStore

def clearScope (rows : List StoredRule) (context : PermissionRuleContext)
    (scope : PermissionRuleScope) : Nat × List StoredRule :=
  let kept := rows.filter fun stored => !inNamespace stored context scope
  (rows.length - kept.length, kept)

def step (rows : List StoredRule) : StoreCall → StoreReply × List StoredRule
  | .upsertRule context rule =>
    match context.validatePersistedScope rule.scope with
    | .error error => (.failed error, rows)
    | .ok () => (.done, upsert rows context rule)
  | .loadApplicableRules context => (.rules (applicableRules rows context), rows)
  | .revokeRule context address =>
    match context.validatePersistedScope address.scope with
    | .error error => (.failed error, rows)
    | .ok () =>
      let kept := rows.filter fun stored => !atAddress stored context address
      (.revoked (rows.length ≠ kept.length), kept)
  | .clearScope context scope =>
    match context.validatePersistedScope scope with
    | .error error => (.failed error, rows)
    | .ok () =>
      let (removed, kept) := clearScope rows context scope
      (.cleared removed, kept)
  | .saveRules sessionId projectId rules =>
    let context : PermissionRuleContext := ⟨sessionId, projectId⟩
    match validateRules context rules with
    | .error error => (.failed error, rows)
    | .ok () =>
      let kept := rows.filter fun stored => !inNamespace stored context .session
      (.done, rules.foldl (fun rows rule => upsert rows context rule) kept)
  | .loadRules sessionId projectId =>
    (.rules (applicableRules rows ⟨sessionId, projectId⟩), rows)
  | .clearRules sessionId => (.done, rows.filter fun stored => stored.sessionId ≠ sessionId)

end VolatileRuntimeStore

/-! ## The file store -/

/-- Which file `rules.json` is. -/
inductive RulesFileIdentity
  | missing
  | present (file : Nat)
  deriving DecidableEq

structure RulesSnapshot where
  identity : RulesFileIdentity
  rules : List StoredRule

structure FileRuntimeStore where
  /-- `rules.json`, if it exists: its number and its rows. -/
  disk : Option (Nat × List StoredRule)
  nextFile : Nat
  cached : Option RulesSnapshot

namespace FileRuntimeStore

def new : FileRuntimeStore :=
  ⟨none, 0, none⟩

def readRulesFromDisk (store : FileRuntimeStore) : RulesSnapshot :=
  match store.disk with
  | none => ⟨.missing, []⟩
  | some (file, rows) => ⟨.present file, rows⟩

/-- `atomic_replace` of the rules file. -/
def writeRules (store : FileRuntimeStore) (rows : List StoredRule) : FileRuntimeStore :=
  { store with disk := some (store.nextFile, rows), nextFile := store.nextFile + 1 }

/-- A change says what it returns and whether it changed something. -/
def mutateRules {α : Type} (store : FileRuntimeStore)
    (mutation : List StoredRule → (α × Bool) × List StoredRule) : α × FileRuntimeStore :=
  let snapshot := store.readRulesFromDisk
  let ((result, changed), rows) := mutation snapshot.rules
  if changed then (result, { store.writeRules rows with cached := none })
  else (result, { store with cached := some { snapshot with rules := rows } })

def readRulesCached (store : FileRuntimeStore) : List StoredRule × FileRuntimeStore :=
  let observed := store.readRulesFromDisk
  match store.cached with
  | some cached =>
    if cached.identity = observed.identity then (cached.rules, store)
    else (observed.rules, { store with cached := some observed })
  | none => (observed.rules, { store with cached := some observed })

def loadApplicableRules (store : FileRuntimeStore) (context : PermissionRuleContext) :
    StoreReply × FileRuntimeStore :=
  let (rows, store) := store.readRulesCached
  (.rules (applicableRules rows context), store)

def step (store : FileRuntimeStore) : StoreCall → StoreReply × FileRuntimeStore
  | .upsertRule context rule =>
    match context.validatePersistedScope rule.scope with
    | .error error => (.failed error, store)
    | .ok () => store.mutateRules fun rows => ((.done, true), upsert rows context rule)
  | .loadApplicableRules context => store.loadApplicableRules context
  | .revokeRule context address =>
    match context.validatePersistedScope address.scope with
    | .error error => (.failed error, store)
    | .ok () => store.mutateRules fun rows =>
      let kept := rows.filter fun stored => !atAddress stored context address
      let removed := decide (rows.length ≠ kept.length)
      ((.revoked removed, removed), kept)
  | .clearScope context scope =>
    match context.validatePersistedScope scope with
    | .error error => (.failed error, store)
    | .ok () => store.mutateRules fun rows =>
      let kept := rows.filter fun stored => !inNamespace stored context scope
      let removed := rows.length - kept.length
      ((.cleared removed, removed ≠ 0), kept)
  | .saveRules sessionId projectId rules =>
    let context : PermissionRuleContext := ⟨sessionId, projectId⟩
    match validateRules context rules with
    | .error error => (.failed error, store)
    | .ok () => store.mutateRules fun rows =>
      let kept := rows.filter fun stored => !inNamespace stored context .session
      ((.done, true), rules.foldl (fun rows rule => upsert rows context rule) kept)
  | .loadRules sessionId projectId => store.loadApplicableRules ⟨sessionId, projectId⟩
  | .clearRules sessionId => store.mutateRules fun rows =>
    ((.done, true), rows.filter fun stored => stored.sessionId ≠ sessionId)

/-! ### The file store keeps the rows of the volatile store -/

/-- The file has the rows, and a snapshot is one of the file. -/
structure Keeps (store : FileRuntimeStore) (rows : List StoredRule) : Prop where
  disk : store.readRulesFromDisk.rules = rows
  cached : ∀ snapshot, store.cached = some snapshot → snapshot.rules = rows

variable {store : FileRuntimeStore} {rows : List StoredRule}

theorem Keeps.mutate (keeps : store.Keeps rows) {α : Type}
    {mutation : List StoredRule → (α × Bool) × List StoredRule} {result : α} {changed : Bool}
    {after : List StoredRule} (mutated : mutation rows = ((result, changed), after))
    (unchanged : changed = false → after = rows) :
    (store.mutateRules mutation).1 = result ∧ (store.mutateRules mutation).2.Keeps after := by
  rw [mutateRules, keeps.disk]
  simp only [mutated]
  cases changed with
  | true => exact ⟨rfl, rfl, fun _ isCached => nomatch isCached⟩
  | false =>
    refine ⟨rfl, keeps.disk.trans (unchanged rfl).symm, ?_⟩
    rintro snapshot ⟨⟩
    rfl

theorem Keeps.readCached (keeps : store.Keeps rows) :
    store.readRulesCached.1 = rows ∧ store.readRulesCached.2.Keeps rows := by
  have refreshed : { store with cached := some store.readRulesFromDisk }.Keeps rows := by
    refine ⟨keeps.disk, ?_⟩
    rintro snapshot ⟨⟩
    exact keeps.disk
  rw [readRulesCached]
  split
  · rename_i snapshot isCached
    split
    · exact ⟨keeps.cached snapshot isCached, keeps⟩
    · exact ⟨keeps.disk, refreshed⟩
  · exact ⟨keeps.disk, refreshed⟩

theorem Keeps.load (keeps : store.Keeps rows) (context : PermissionRuleContext) :
    (store.loadApplicableRules context).1 = .rules (applicableRules rows context) ∧
      (store.loadApplicableRules context).2.Keeps rows := by
  obtain ⟨isRows, kept⟩ := keeps.readCached
  exact ⟨congrArg (fun rows => StoreReply.rules (applicableRules rows context)) isRows, kept⟩

/-- Rows of which none was removed are the same rows. -/
theorem filter_eq_of_length {keep : StoredRule → Bool}
    (all : rows.length = (rows.filter keep).length) : rows.filter keep = rows :=
  List.filter_sublist.eq_of_length all.symm

/-- A call has the reply of the volatile store, and keeps its rows. -/
theorem Keeps.step (keeps : store.Keeps rows) (call : StoreCall) :
    (store.step call).1 = (VolatileRuntimeStore.step rows call).1 ∧
      (store.step call).2.Keeps (VolatileRuntimeStore.step rows call).2 := by
  cases call with
  | upsertRule context rule =>
    rw [FileRuntimeStore.step, VolatileRuntimeStore.step]
    cases context.validatePersistedScope rule.scope with
    | error error => exact ⟨rfl, keeps⟩
    | ok _ => exact keeps.mutate rfl nofun
  | loadApplicableRules context => exact keeps.load context
  | revokeRule context address =>
    rw [FileRuntimeStore.step, VolatileRuntimeStore.step]
    cases context.validatePersistedScope address.scope with
    | error error => exact ⟨rfl, keeps⟩
    | ok _ =>
      refine keeps.mutate rfl fun none => ?_
      exact filter_eq_of_length (not_not.mp (of_decide_eq_false none))
  | clearScope context scope =>
    rw [FileRuntimeStore.step, VolatileRuntimeStore.step]
    cases context.validatePersistedScope scope with
    | error error => exact ⟨rfl, keeps⟩
    | ok _ =>
      refine keeps.mutate rfl fun none => ?_
      have atMost := Nat.sub_eq_zero_iff_le.mp (not_not.mp (of_decide_eq_false none))
      exact filter_eq_of_length (atMost.antisymm (List.length_filter_le _ _))
  | saveRules sessionId projectId rules =>
    rw [FileRuntimeStore.step, VolatileRuntimeStore.step]
    cases validateRules ⟨sessionId, projectId⟩ rules with
    | error error => exact ⟨rfl, keeps⟩
    | ok _ => exact keeps.mutate rfl nofun
  | loadRules sessionId projectId => exact keeps.load ⟨sessionId, projectId⟩
  | clearRules sessionId => exact keeps.mutate rfl nofun

theorem Keeps.replies (calls : List StoreCall) (keeps : store.Keeps rows) :
    (replies FileRuntimeStore.step store calls).1 =
        (Permission.replies VolatileRuntimeStore.step rows calls).1 ∧
      (Permission.replies FileRuntimeStore.step store calls).2.Keeps
        (Permission.replies VolatileRuntimeStore.step rows calls).2 := by
  induction calls generalizing store rows with
  | nil => exact ⟨rfl, keeps⟩
  | cons call calls ih =>
    obtain ⟨sameReply, kept⟩ := keeps.step call
    obtain ⟨sameRest, keptAfter⟩ := ih kept
    exact ⟨congrArg₂ List.cons sameReply sameRest, keptAfter⟩

theorem keeps_new : new.Keeps [] :=
  ⟨rfl, fun _ isCached => nomatch isCached⟩

end FileRuntimeStore

end Mentra.Permission
