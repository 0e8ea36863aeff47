import Mentra.Foundation.HashTable
import Mentra.Foundation.Ledger
import Mentra.Permission.Pattern
import Mentra.Runtime.Error

/-!
# Remembered permission rules

Model of the rules of `mentra/src/session/permission.rs` and of the rule part of
`mentra/src/session/handle.rs`.  Rules sit in a hash table under their address, scope and key.
The session handle keeps the rules of its own process in such a table and asks a runtime
store, about which nothing is assumed, for the rest.

Strings compare by their code points, as the bytes of their UTF-8 encodings do.  Locks are
left out: each operation takes one for its whole length.
-/

namespace Mentra.Permission

open Foundation HashTable List

inductive PermissionRuleScope
  | session
  | project
  | global
  | process
  deriving DecidableEq

def scopePrecedence : List PermissionRuleScope :=
  [.process, .session, .project, .global]

def scopeRank : PermissionRuleScope → Nat
  | .process => 0
  | .session => 1
  | .project => 2
  | .global => 3

structure RuleKey where
  toolName : String
  pattern : Option String
  deriving DecidableEq

structure PermissionRuleAddress where
  scope : PermissionRuleScope
  key : RuleKey
  deriving DecidableEq

structure RememberedRule where
  key : RuleKey
  allow : Bool
  scope : PermissionRuleScope
  reason : Option String
  deriving DecidableEq

/-- `PermissionRuleAddress::from`. -/
def RememberedRule.address (rule : RememberedRule) : PermissionRuleAddress :=
  ⟨rule.scope, rule.key⟩

/-! ## Orders -/

def compareRuleKeys (left right : RuleKey) : Ordering :=
  (compare left.toolName right.toolName).then (compare left.pattern right.pattern)

/-- Values by their order, and none after all of them. -/
def compareSomeFirst {α : Type} [Ord α] : Option α → Option α → Ordering
  | some _, none => .lt
  | none, some _ => .gt
  | left, right => compare left right

theorem compareSomeFirst_eq {α : Type} [Ord α] (left right : Option α) :
    compareSomeFirst left right = (compare left.isNone right.isNone).then (compare left right) := by
  cases left <;> cases right <;> rfl

/-- A listing goes by scope and tool, in one tool the patterns before the bare rule. -/
def compareRulesForListing (left right : RememberedRule) : Ordering :=
  (compare (scopeRank left.scope) (scopeRank right.scope)).then <|
    (compare left.key.toolName right.key.toolName).then <|
      compareSomeFirst left.key.pattern right.key.pattern

instance : Std.TransCmp compareRulesForListing := by
  have same : compareRulesForListing = compareLex
      (compareOn fun rule : RememberedRule => scopeRank rule.scope)
      (compareLex (compareOn fun rule => rule.key.toolName)
        (compareLex (compareOn fun rule => rule.key.pattern.isNone)
          (compareOn fun rule => rule.key.pattern))) := by
    funext left right
    rw [compareRulesForListing, compareSomeFirst_eq]
    rfl
  rw [same]
  infer_instance

/-- A denial comes before a grant, and the keys break every remaining tie. -/
def comparePatternCandidates (left right : PermissionRuleAddress × RememberedRule) : Ordering :=
  (compare left.2.allow right.2.allow).then (compareRuleKeys left.1.key right.1.key)

instance : Std.TransCmp comparePatternCandidates :=
  inferInstanceAs (Std.TransCmp (compareLex
    (compareOn fun entry : PermissionRuleAddress × RememberedRule => entry.2.allow)
    (compareLex (compareOn fun entry => entry.1.key.toolName)
      (compareOn fun entry => entry.1.key.pattern))))

/-! ## The table of rules -/

/-- The remembered rules, each under its own address. -/
structure RuleStore where
  inner : HashTable PermissionRuleAddress RememberedRule
  addressed : ∀ entry ∈ inner.entries, entry.2.address = entry.1

/-- What is done to remembered rules. -/
inductive RuleCall
  | remember (rule : RememberedRule)
  | revoke (address : PermissionRuleAddress)
  | clear (scope : PermissionRuleScope)

def RuleCall.scope : RuleCall → PermissionRuleScope
  | remember rule => rule.scope
  | revoke address => address.scope
  | clear scope => scope

namespace RuleStore

def new : RuleStore :=
  ⟨.empty, fun _ mem => absurd mem not_mem_nil⟩

def addRule (store : RuleStore) (rule : RememberedRule) : RuleStore where
  inner := store.inner.insert rule.address rule
  addressed := by
    intro entry mem
    rcases mem_insert.mp mem with rfl | ⟨old, -⟩
    · rfl
    · exact store.addressed entry old

/-- The filter of `matching_rule` on the patterns of one scope. -/
def isCandidate (scope : PermissionRuleScope) (toolName : String) (inputJson : Option String)
    (address : PermissionRuleAddress) : Bool :=
  address.scope = scope && address.key.toolName = toolName &&
    address.key.pattern.any fun rulePattern => inputJson.any (Pattern.matches rulePattern)

/-- The search of `matching_rule` for the bare rule of one scope. -/
def isFallback (scope : PermissionRuleScope) (toolName : String)
    (address : PermissionRuleAddress) : Bool :=
  address.scope = scope && address.key.toolName = toolName && address.key.pattern.isNone

/-- One round of the loop of `matching_rule`. -/
def matchingIn (store : RuleStore) (toolName : String) (inputJson : Option String)
    (scope : PermissionRuleScope) : Option RememberedRule :=
  let candidates :=
    store.inner.entries.filter fun entry => isCandidate scope toolName inputJson entry.1
  match minBy comparePatternCandidates candidates with
  | some (_, rule) => some rule
  | none =>
    (store.inner.entries.find? fun entry => isFallback scope toolName entry.1).map Prod.snd

def matchingRule (store : RuleStore) (toolName : String) (inputJson : Option String) :
    Option RememberedRule :=
  scopePrecedence.findSome? (store.matchingIn toolName inputJson)

/-- `RuleStore::rules`, the listing. -/
def rules (store : RuleStore) : List RememberedRule :=
  store.inner.values.insertionSort fun left right => (compareRulesForListing left right).isLE

def revokeRule (store : RuleStore) (address : PermissionRuleAddress) : Bool × RuleStore :=
  (store.inner.contains address,
    { inner := store.inner.remove address
      addressed := fun entry mem => store.addressed entry (mem_retain.mp mem).1 })

def clearScope (store : RuleStore) (scope : PermissionRuleScope) : Nat × RuleStore :=
  let cleared := store.inner.retain fun address => address.scope ≠ scope
  (store.inner.entries.length - cleared.entries.length,
    { inner := cleared
      addressed := fun entry mem => store.addressed entry (mem_retain.mp mem).1 })

/-- The rules added one after another to a new store. -/
def ofRules (rules : List RememberedRule) : RuleStore :=
  rules.foldl addRule new

/-- The store has the rule. -/
def Holds (store : RuleStore) (rule : RememberedRule) : Prop :=
  (rule.address, rule) ∈ store.inner.entries

variable {store : RuleStore} {rule other : RememberedRule} {rules : List RememberedRule}

theorem mem_entries_iff {address : PermissionRuleAddress} :
    (address, rule) ∈ store.inner.entries ↔ address = rule.address ∧ store.Holds rule := by
  constructor
  · intro mem
    have own := store.addressed _ mem
    exact ⟨own.symm, by rw [Holds, own]; exact mem⟩
  · rintro ⟨rfl, holds⟩
    exact holds

theorem eq_of_address (holds : store.Holds rule) (otherHolds : store.Holds other)
    (same : rule.address = other.address) : rule = other := by
  rw [Holds, ← same] at otherHolds
  exact eq_of_mem holds otherHolds

theorem holds_addRule :
    (store.addRule rule).Holds other ↔
      other = rule ∨ (store.Holds other ∧ other.address ≠ rule.address) := by
  refine mem_insert.trans (or_congr ?_ Iff.rfl)
  constructor
  · exact congrArg Prod.snd
  · rintro rfl
    rfl

theorem not_holds_new : ¬ new.Holds rule :=
  not_mem_nil

/-- What a sequence of additions leaves is among the rules added and those before. -/
theorem mem_of_holds_foldl (holds : (rules.foldl addRule store).Holds rule) :
    rule ∈ rules ∨ store.Holds rule := by
  induction rules generalizing store with
  | nil => exact .inr holds
  | cons first rest ih =>
    rcases ih holds with mem | holdsFirst
    · exact .inl (mem_cons_of_mem first mem)
    · rcases holds_addRule.mp holdsFirst with rfl | ⟨old, -⟩
      · exact .inl mem_cons_self
      · exact .inr old

/-- Rules of distinct addresses replace only what was there before. -/
theorem holds_foldl (distinct : (rules.map RememberedRule.address).Nodup) :
    (rules.foldl addRule store).Holds rule ↔
      rule ∈ rules ∨ (store.Holds rule ∧ rule.address ∉ rules.map RememberedRule.address) := by
  induction rules generalizing store with
  | nil => simp
  | cons first rest ih =>
    rw [map_cons, nodup_cons] at distinct
    rw [foldl_cons, ih distinct.2, holds_addRule, map_cons, mem_cons, mem_cons, not_or]
    constructor
    · rintro (mem | ⟨rfl | ⟨old, apart⟩, later⟩)
      · exact .inl (.inr mem)
      · exact .inl (.inl rfl)
      · exact .inr ⟨old, apart, later⟩
    · rintro ((rfl | mem) | ⟨old, apart, later⟩)
      · exact .inr ⟨.inl rfl, distinct.1⟩
      · exact .inl mem
      · exact .inr ⟨.inr ⟨old, apart⟩, later⟩

theorem holds_ofRules (distinct : (rules.map RememberedRule.address).Nodup) :
    (ofRules rules).Holds rule ↔ rule ∈ rules := by
  rw [ofRules, holds_foldl distinct]
  simp [not_holds_new]

theorem perm_rules (store : RuleStore) : store.rules.Perm store.inner.values :=
  perm_insertionSort _ _

theorem mem_rules : rule ∈ store.rules ↔ store.Holds rule := by
  rw [(perm_rules store).mem_iff, HashTable.values, mem_map]
  constructor
  · rintro ⟨⟨address, rule⟩, mem, rfl⟩
    exact (mem_entries_iff.mp mem).2
  · intro holds
    exact ⟨_, holds, rfl⟩

theorem distinct_rules (store : RuleStore) : (store.rules.map RememberedRule.address).Nodup := by
  rw [((perm_rules store).map RememberedRule.address).nodup_iff, HashTable.values, map_map]
  have keys : store.inner.entries.map (RememberedRule.address ∘ Prod.snd) =
      store.inner.entries.map Prod.fst :=
    map_congr_left store.addressed
  rw [keys]
  exact store.inner.distinct

theorem holds_revokeRule {address : PermissionRuleAddress} :
    (store.revokeRule address).2.Holds rule → store.Holds rule :=
  fun holds => (mem_retain.mp holds).1

theorem holds_clearScope {scope : PermissionRuleScope} :
    (store.clearScope scope).2.Holds rule → store.Holds rule :=
  fun holds => (mem_retain.mp holds).1

def after (store : RuleStore) : RuleCall → RuleStore
  | .remember rule => store.addRule rule
  | .revoke address => (store.revokeRule address).2
  | .clear scope => (store.clearScope scope).2

/-- A rule replaces the one at its address. -/
def ledger : Ledger RuleCall RememberedRule where
  removes
    | .remember rule, old => old.address = rule.address
    | .revoke address, old => old.address = address
    | .clear scope, old => old.address.scope = scope
  adds
    | .remember rule => [rule]
    | .revoke _ | .clear _ => []

theorem holds_after (calls : List RuleCall) :
    (calls.foldl after new).Holds rule ↔ ledger.Survives calls rule := by
  induction calls using reverseRecOn with
  | nil => exact iff_of_false not_holds_new (ledger.not_survives_nil rule)
  | append_singleton calls last ih =>
    rw [foldl_append, foldl_cons, foldl_nil, Ledger.survives_concat, ← ih]
    cases last with
    | remember added =>
      rw [after, holds_addRule, or_comm]
      simp [ledger]
    | revoke address | clear scope =>
      refine mem_retain.trans ?_
      simp [ledger, Holds]

end RuleStore

/-! ## The rules of a session -/

structure PermissionRuleContext where
  sessionId : String
  projectId : Option String

namespace PermissionRuleContext

def validateScope (context : PermissionRuleContext) (scope : PermissionRuleScope) :
    Except RuntimeError Unit :=
  if scope = .project ∧ context.projectId = none then
    .error (.operationDenied "project-scoped permission rules require a project_id")
  else .ok ()

def validatePersistedScope (context : PermissionRuleContext) (scope : PermissionRuleScope) :
    Except RuntimeError Unit := do
  context.validateScope scope
  if scope = .process then
    throw (.operationDenied ("process-scoped permission rules belong to a live session " ++
      "and cannot be persisted"))

end PermissionRuleContext

/-- `PermissionRuleStore`: the operations of a runtime store on a state of its own.  One that
fails may have changed the state: a file is in place before its directory is synchronized. -/
structure PermissionRuleStore (σ ε : Type) where
  upsertRule : PermissionRuleContext → RememberedRule → σ → Except ε Unit × σ
  loadApplicableRules : PermissionRuleContext → σ → Except ε (List RememberedRule)
  revokeRule : PermissionRuleContext → PermissionRuleAddress → σ → Except ε Bool × σ
  clearScope : PermissionRuleContext → PermissionRuleScope → σ → Except ε Nat × σ

/-- The rules of a live session.  Only rules of the process scope enter the table
of the handle. -/
structure SessionPermissionHandle where
  context : PermissionRuleContext
  processRules : RuleStore
  processOnly : ∀ rule, processRules.Holds rule → rule.scope = .process

namespace SessionPermissionHandle

variable {σ ε : Type}

def new (context : PermissionRuleContext) : SessionPermissionHandle where
  context := context
  processRules := .new
  processOnly := fun _ holds => absurd holds RuleStore.not_holds_new

def rememberRule (handle : SessionPermissionHandle) (store : PermissionRuleStore σ ε)
    (rule : RememberedRule) (durable : σ) : Except ε Unit × SessionPermissionHandle × σ :=
  if isProcess : rule.scope = .process then
    (.ok (), { handle with
      processRules := handle.processRules.addRule rule
      processOnly := fun other holds => by
        rcases RuleStore.holds_addRule.mp holds with rfl | ⟨old, -⟩
        · exact isProcess
        · exact handle.processOnly other old }, durable)
  else
    let (result, durable) := store.upsertRule handle.context rule durable
    (result, handle, durable)

/-- A refused rule is not in the table of the handle. -/
theorem handle_of_refused {handle : SessionPermissionHandle} {store : PermissionRuleStore σ ε}
    {rule : RememberedRule} {durable : σ} {error : ε}
    (refused : (handle.rememberRule store rule durable).1 = .error error) :
    (handle.rememberRule store rule durable).2.1 = handle := by
  by_cases isProcess : rule.scope = .process
  · rw [rememberRule, dif_pos isProcess] at refused
    cases refused
  · rw [rememberRule, dif_neg isProcess]

def revokeRule (handle : SessionPermissionHandle) (store : PermissionRuleStore σ ε)
    (address : PermissionRuleAddress) (durable : σ) :
    Except ε Bool × SessionPermissionHandle × σ :=
  if address.scope = .process then
    let revoked := handle.processRules.revokeRule address
    (.ok revoked.1, { handle with
      processRules := revoked.2
      processOnly := fun other holds =>
        handle.processOnly other (RuleStore.holds_revokeRule holds) }, durable)
  else
    let (result, durable) := store.revokeRule handle.context address durable
    (result, handle, durable)

def clearScope (handle : SessionPermissionHandle) (store : PermissionRuleStore σ ε)
    (scope : PermissionRuleScope) (durable : σ) :
    Except ε Nat × SessionPermissionHandle × σ :=
  if scope = .process then
    let cleared := handle.processRules.clearScope scope
    (.ok cleared.1, { handle with
      processRules := cleared.2
      processOnly := fun other holds =>
        handle.processOnly other (RuleStore.holds_clearScope holds) }, durable)
  else
    let (result, durable) := store.clearScope handle.context scope durable
    (result, handle, durable)

/-- The session and the store after a call, whatever it returned. -/
def after (store : PermissionRuleStore σ ε) (state : SessionPermissionHandle × σ) :
    RuleCall → SessionPermissionHandle × σ
  | .remember rule => (state.1.rememberRule store rule state.2).2
  | .revoke address => (state.1.revokeRule store address state.2).2
  | .clear scope => (state.1.clearScope store scope state.2).2

def rememberedRules (handle : SessionPermissionHandle) (store : PermissionRuleStore σ ε)
    (durable : σ) : Except ε (List RememberedRule) := do
  let loaded ← store.loadApplicableRules handle.context durable
  return (RuleStore.ofRules (loaded.filter (fun rule => rule.scope ≠ .process) ++
    handle.processRules.rules)).rules

def matchingRule (handle : SessionPermissionHandle) (store : PermissionRuleStore σ ε)
    (toolName : String) (inputJson : Option String) (durable : σ) :
    Except ε (Option RememberedRule) :=
  match handle.processRules.matchingRule toolName inputJson with
  | some rule => .ok (some rule)
  | none => do
      let loaded ← store.loadApplicableRules handle.context durable
      return (RuleStore.ofRules (loaded.filter fun rule => rule.scope ≠ .process)).matchingRule
        toolName inputJson

end SessionPermissionHandle

end Mentra.Permission
