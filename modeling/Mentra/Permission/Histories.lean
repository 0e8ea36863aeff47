import Mentra.Permission.Stores

/-!
# Histories of the rule stores

The rows of a store after any calls, told from the calls alone.  A rule is at home in the
namespace of a session, of a project, or the global one, and is owned by the session that
wrote it last.  Revocations and clearings go by namespace, `clear_rules` by owner.
-/

namespace Mentra.Permission

open Foundation List PermissionRuleContext

inductive Namespace
  | session (sessionId : String)
  | project (projectId : String)
  | global
  deriving DecidableEq

def Namespace.scope : Namespace → PermissionRuleScope
  | .session _ => .session
  | .project _ => .project
  | .global => .global

/-- The namespaces whose rules apply in a context. -/
def PermissionRuleContext.Sees (context : PermissionRuleContext) : Namespace → Prop
  | .session sessionId => context.sessionId = sessionId
  | .project projectId => context.projectId = some projectId
  | .global => True

/-- Where a context keeps rules of a scope, if they can be kept. -/
def PermissionRuleContext.namespace? (context : PermissionRuleContext) :
    PermissionRuleScope → Option Namespace
  | .process => none
  | .session => some (.session context.sessionId)
  | .project => context.projectId.map .project
  | .global => some .global

def StoredRule.namespace? (stored : StoredRule) : Option Namespace :=
  PermissionRuleContext.namespace? ⟨stored.sessionId, stored.projectId⟩ stored.rule.scope

/-- Two rows that are not rules for one key in one namespace. -/
def StoredRule.Apart (first second : StoredRule) : Prop :=
  ¬(first.namespace? = second.namespace? ∧ first.rule.address = second.rule.address)

/-- What happens to the rules of a store. -/
inductive RuleEvent
  | wrote (row : StoredRule)
  | revoked (home : Namespace) (key : RuleKey)
  | cleared (home : Namespace)
  | disowned (sessionId : String)

/-- A rule replaces the one for its key in its namespace. -/
def ruleLedger : Ledger RuleEvent StoredRule where
  removes
    | .wrote row, old => old.namespace? = row.namespace? ∧ old.rule.key = row.rule.key
    | .revoked home key, old => old.namespace? = some home ∧ old.rule.key = key
    | .cleared home, old => old.namespace? = some home
    | .disowned sessionId, old => old.sessionId = sessionId
  adds
    | .wrote row => [row]
    | .revoked _ _ | .cleared _ | .disowned _ => []

/-- The events of a call; none if a rule of it cannot be kept. -/
def StoreCall.events : StoreCall → List RuleEvent
  | .upsertRule context rule =>
    if (context.namespace? rule.scope).isSome then [.wrote (storedRule context rule)] else []
  | .loadApplicableRules _ => []
  | .revokeRule context address =>
    match context.namespace? address.scope with
    | none => []
    | some home => [.revoked home address.key]
  | .clearScope context scope =>
    match context.namespace? scope with
    | none => []
    | some home => [.cleared home]
  | .saveRules sessionId projectId rules =>
    let context : PermissionRuleContext := ⟨sessionId, projectId⟩
    if rules.all fun rule => (context.namespace? rule.scope).isSome then
      .cleared (.session sessionId) :: rules.map fun rule => .wrote (storedRule context rule)
    else []
  | .loadRules _ _ => []
  | .clearRules sessionId => [.disowned sessionId]

/-! ## Namespaces -/

variable {home : Namespace}

namespace PermissionRuleContext

variable {context : PermissionRuleContext} {scope : PermissionRuleScope}

theorem scope_of_namespace? (isHome : context.namespace? scope = some home) :
    home.scope = scope := by
  cases scope with
  | process => cases isHome
  | session => cases isHome; rfl
  | project =>
    obtain ⟨_, -, rfl⟩ := Option.map_eq_some_iff.mp isHome
    rfl
  | global => cases isHome; rfl

theorem namespace?_eq_some_iff :
    context.namespace? scope = some home ↔ home.scope = scope ∧ context.Sees home := by
  constructor
  · intro isHome
    cases scope with
    | process => cases isHome
    | session => cases isHome; exact ⟨rfl, rfl⟩
    | project =>
      obtain ⟨projectId, isProject, rfl⟩ := Option.map_eq_some_iff.mp isHome
      exact ⟨rfl, isProject⟩
    | global => cases isHome; exact ⟨rfl, trivial⟩
  · rintro ⟨rfl, sees⟩
    cases home with
    | session sessionId => exact congrArg (fun id => some (Namespace.session id)) sees
    | project projectId => exact congrArg (Option.map Namespace.project) sees
    | global => rfl

/-- Exactly the rules that have a namespace may be stored. -/
theorem validatePersistedScope_eq_ok_iff :
    context.validatePersistedScope scope = .ok () ↔ (context.namespace? scope).isSome := by
  rcases context with ⟨sessionId, projectId⟩
  cases scope <;> cases projectId <;>
    simp [validatePersistedScope, validateScope, namespace?, bind, Except.bind, throw, throwThe,
      MonadExceptOf.throw, pure, Except.pure]

theorem validatePersistedScope_cases (context : PermissionRuleContext)
    (scope : PermissionRuleScope) :
    (∃ error, context.validatePersistedScope scope = .error error ∧
        context.namespace? scope = none) ∨
      ∃ home, context.validatePersistedScope scope = .ok () ∧
        context.namespace? scope = some home := by
  have accepted := @validatePersistedScope_eq_ok_iff context scope
  cases isHome : context.namespace? scope with
  | some home =>
    rw [isHome] at accepted
    exact .inr ⟨home, accepted.mpr rfl, rfl⟩
  | none =>
    rw [isHome] at accepted
    cases validated : context.validatePersistedScope scope with
    | error error => exact .inl ⟨error, rfl, rfl⟩
    | ok _ => cases accepted.mp validated

end PermissionRuleContext

variable {context : PermissionRuleContext}

theorem inNamespace_eq {stored : StoredRule} {scope : PermissionRuleScope}
    (isHome : context.namespace? scope = some home) :
    inNamespace stored context scope = decide (stored.namespace? = some home) := by
  unfold inNamespace StoredRule.namespace?
  by_cases sameScope : stored.rule.scope = scope
  · rw [if_neg (not_not.mpr sameScope), sameScope]
    cases scope with
    | process => cases isHome
    | session => cases isHome; simp [PermissionRuleContext.namespace?]
    | project =>
      obtain ⟨projectId, isProject, rfl⟩ := Option.map_eq_some_iff.mp isHome
      simp [PermissionRuleContext.namespace?, isProject]
    | global => cases isHome; rfl
  · rw [if_pos sameScope, eq_comm, decide_eq_false_iff_not]
    intro isStored
    exact sameScope ((scope_of_namespace? isStored).symm.trans (scope_of_namespace? isHome))

theorem atAddress_eq {stored : StoredRule} {address : PermissionRuleAddress}
    (isHome : context.namespace? address.scope = some home) :
    atAddress stored context address =
      decide (stored.namespace? = some home ∧ stored.rule.key = address.key) := by
  rw [atAddress, inNamespace_eq isHome, Bool.decide_and]

theorem namespace?_storedRule (context : PermissionRuleContext) (rule : RememberedRule) :
    (storedRule context rule).namespace? = context.namespace? rule.scope := by
  rw [StoredRule.namespace?, storedRule]
  cases rule.scope <;> rfl

/-! ## The volatile store is the ledger of its calls -/

variable {rows : List StoredRule}

theorem upsert_eq {rule : RememberedRule} (kept : (context.namespace? rule.scope).isSome) :
    upsert rows context rule = ruleLedger.apply rows (.wrote (storedRule context rule)) := by
  obtain ⟨home, isHome⟩ := Option.isSome_iff_exists.mp kept
  have same (stored : StoredRule) : atAddress stored context rule.address =
      ruleLedger.removes (.wrote (storedRule context rule)) stored := by
    rw [atAddress_eq isHome, ← isHome, ← namespace?_storedRule]
    rfl
  rw [upsert, Ledger.apply]
  simp only [same]
  rfl

theorem foldl_upsert_eq (rules : List RememberedRule)
    (kept : ∀ rule ∈ rules, (context.namespace? rule.scope).isSome) :
    rules.foldl (fun rows rule => upsert rows context rule) rows =
      (rules.map fun rule => RuleEvent.wrote (storedRule context rule)).foldl
        ruleLedger.apply rows := by
  induction rules generalizing rows with
  | nil => rfl
  | cons rule rules ih =>
    rw [forall_mem_cons] at kept
    rw [foldl_cons, map_cons, foldl_cons, ih kept.2, upsert_eq kept.1]

theorem filter_inNamespace_eq {scope : PermissionRuleScope}
    (isHome : context.namespace? scope = some home) :
    (rows.filter fun stored => !inNamespace stored context scope) =
      ruleLedger.apply rows (.cleared home) := by
  simp only [inNamespace_eq isHome]
  exact (append_nil _).symm

theorem validateRules_eq_ok_iff {rules : List RememberedRule} :
    validateRules context rules = .ok () ↔
      rules.all fun rule => (context.namespace? rule.scope).isSome := by
  induction rules with
  | nil => exact iff_of_true rfl rfl
  | cons rule rules ih =>
    rw [all_cons, Bool.and_eq_true, ← ih, validateRules, ← validatePersistedScope_eq_ok_iff]
    cases context.validatePersistedScope rule.scope with
    | error error => exact iff_of_false nofun fun both => nomatch both.1
    | ok _ => exact ⟨fun rest => ⟨rfl, rest⟩, And.right⟩

namespace VolatileRuntimeStore

/-- What a call leaves is what its events make of the rows. -/
theorem step_rows (rows : List StoredRule) (call : StoreCall) :
    (step rows call).2 = call.events.foldl ruleLedger.apply rows := by
  cases call with
  | upsertRule context rule =>
    rw [step, StoreCall.events]
    rcases context.validatePersistedScope_cases rule.scope with
      ⟨error, refused, homeless⟩ | ⟨home, accepted, isHome⟩
    · rw [refused, homeless]
      rfl
    · rw [accepted, isHome]
      exact upsert_eq (isHome ▸ rfl)
  | loadApplicableRules context => rfl
  | revokeRule context address =>
    rw [step, StoreCall.events]
    rcases context.validatePersistedScope_cases address.scope with
      ⟨error, refused, homeless⟩ | ⟨home, accepted, isHome⟩
    · rw [refused, homeless]
      rfl
    · rw [accepted, isHome]
      simp only [atAddress_eq isHome]
      exact (append_nil _).symm
  | clearScope context scope =>
    rw [step, StoreCall.events]
    rcases context.validatePersistedScope_cases scope with
      ⟨error, refused, homeless⟩ | ⟨home, accepted, isHome⟩
    · rw [refused, homeless]
      rfl
    · rw [accepted, isHome]
      exact filter_inNamespace_eq isHome
  | saveRules sessionId projectId rules =>
    rw [step, StoreCall.events]
    cases validated : validateRules ⟨sessionId, projectId⟩ rules with
    | error error =>
      rw [if_neg]
      · rfl
      · rw [← validateRules_eq_ok_iff, validated]
        rintro ⟨⟩
    | ok _ =>
      have kept := validateRules_eq_ok_iff.mp validated
      have cleared := @filter_inNamespace_eq _ ⟨sessionId, projectId⟩ rows .session rfl
      rw [if_pos kept, foldl_cons, ← cleared]
      exact foldl_upsert_eq rules (all_eq_true.mp kept)
  | loadRules sessionId projectId => rfl
  | clearRules sessionId =>
    simp only [step, ne_eq, decide_not]
    exact (append_nil _).symm

theorem replies_rows (calls : List StoreCall) (rows : List StoredRule) :
    (replies step rows calls).2 = (calls.flatMap StoreCall.events).foldl ruleLedger.apply rows := by
  induction calls generalizing rows with
  | nil => rfl
  | cons call calls ih =>
    rw [flatMap_cons, foldl_append, ← step_rows, ← ih]
    rfl

end VolatileRuntimeStore

/-! ## What a context loads -/

theorem StoredRule.Apart.symm {first second : StoredRule} (apart : first.Apart second) :
    second.Apart first :=
  fun ⟨sameHome, sameAddress⟩ => apart ⟨sameHome.symm, sameAddress.symm⟩

theorem apart_rows (events : List RuleEvent) :
    (events.foldl ruleLedger.apply []).Pairwise StoredRule.Apart := by
  apply ruleLedger.pairwise_foldl_apply
  · intro event _
    cases event with
    | wrote row => exact pairwise_singleton _ row
    | revoked home key | cleared home | disowned sessionId => exact .nil
  · intro event _ new added old kept
    cases event with
    | wrote row =>
      rw [mem_singleton.mp added]
      rintro ⟨sameHome, sameAddress⟩
      have differ := of_decide_eq_false kept
      exact differ ⟨sameHome, congrArg PermissionRuleAddress.key sameAddress⟩
    | revoked home key | cleared home | disowned sessionId => cases added

/-- The rows a context loads are those of the namespaces it sees. -/
theorem inNamespace_iff_sees {stored : StoredRule} :
    inNamespace stored context stored.rule.scope = true ↔
      ∃ home, stored.namespace? = some home ∧ context.Sees home := by
  have seen {home : Namespace} (isStored : stored.namespace? = some home)
      (sees : context.Sees home) : context.namespace? stored.rule.scope = some home :=
    PermissionRuleContext.namespace?_eq_some_iff.mpr ⟨scope_of_namespace? isStored, sees⟩
  cases isHome : context.namespace? stored.rule.scope with
  | some home =>
    rw [inNamespace_eq isHome, decide_eq_true_eq]
    constructor
    · intro isStored
      exact ⟨home, isStored, (namespace?_eq_some_iff.mp isHome).2⟩
    · rintro ⟨other, isStored, sees⟩
      rw [isStored, ← seen isStored sees, isHome]
  | none =>
    apply iff_of_false
    · intro found
      unfold inNamespace at found
      cases scope : stored.rule.scope with
      | process => simp [scope] at found
      | session => rw [scope] at isHome; cases isHome
      | project =>
        rw [scope] at isHome
        simp [scope, Option.map_eq_none_iff.mp isHome] at found
      | global => rw [scope] at isHome; cases isHome
    · rintro ⟨home, isStored, sees⟩
      rw [seen isStored sees] at isHome
      cases isHome

/-- Nothing is lost among rows that are apart: a context sees one namespace of a scope. -/
theorem mem_applicableRules (apart : rows.Pairwise StoredRule.Apart) {rule : RememberedRule} :
    rule ∈ applicableRules rows context ↔
      ∃ stored ∈ rows, stored.rule = rule ∧
        ∃ home, stored.namespace? = some home ∧ context.Sees home := by
  have mem_candidates {rule : RememberedRule} :
      rule ∈ (rows.filter fun stored => inNamespace stored context stored.rule.scope).map
          StoredRule.rule ↔
        ∃ stored ∈ rows, stored.rule = rule ∧
          ∃ home, stored.namespace? = some home ∧ context.Sees home := by
    simp only [mem_map, mem_filter, inNamespace_iff_sees]
    constructor
    · rintro ⟨stored, ⟨mem, sees⟩, isRule⟩
      exact ⟨stored, mem, isRule, sees⟩
    · rintro ⟨stored, mem, isRule, sees⟩
      exact ⟨stored, ⟨mem, sees⟩, isRule⟩
  rw [applicableRules, mem_canonicalize]
  constructor
  · intro least
    exact mem_candidates.mp least.mem
  · intro candidate
    refine ⟨mem_candidates.mpr candidate, ?_⟩
    intro other otherMem sameAddress
    obtain ⟨stored, mem, rfl, home, isHome, sees⟩ := candidate
    obtain ⟨rival, rivalMem, rfl, rivalHome, isRivalHome, rivalSees⟩ := mem_candidates.mp otherMem
    have sameScope : rival.rule.scope = stored.rule.scope :=
      congrArg PermissionRuleAddress.scope sameAddress
    have sameHome : rival.namespace? = stored.namespace? := by
      have atHome := namespace?_eq_some_iff.mpr ⟨scope_of_namespace? isHome, sees⟩
      have atRival := namespace?_eq_some_iff.mpr ⟨scope_of_namespace? isRivalHome, rivalSees⟩
      rw [isHome, isRivalHome, ← atHome, ← atRival, sameScope]
    by_cases same : rival = stored
    · rw [same]
      exact Ordering.isLE_of_eq_eq Std.ReflCmp.compare_self
    · have symmetric : Std.Symm StoredRule.Apart := ⟨fun _ _ => StoredRule.Apart.symm⟩
      exact absurd ⟨sameHome, sameAddress⟩ (apart.forall rivalMem mem same)

/-- Both stores reply and then load alike after any calls.  They have at most one rule for a key
in a namespace, and a context loads, once each, the rules written last in the namespaces it sees
that were not revoked, cleared or disowned since.  A canonical list depends only on which rules
it is made of, and has no allowance at an address where one of them denies. -/
theorem rule_stores_agree (calls : List StoreCall) :
    let volatile := replies VolatileRuntimeStore.step [] calls
    let file := replies FileRuntimeStore.step .new calls
    file.1 = volatile.1 ∧
      (∀ context, (file.2.loadApplicableRules context).1 =
        .rules (applicableRules volatile.2 context)) ∧
      file.2.readRulesFromDisk.rules = volatile.2 ∧
      volatile.2.Pairwise StoredRule.Apart ∧
      (∀ context, ((applicableRules volatile.2 context).map RememberedRule.address).Nodup) ∧
      (∀ context rule, rule ∈ applicableRules volatile.2 context ↔
        ∃ stored, ruleLedger.Survives (calls.flatMap StoreCall.events) stored ∧
          stored.rule = rule ∧ ∃ home, stored.namespace? = some home ∧ context.Sees home) ∧
      (∀ first second : List RememberedRule, (∀ rule, rule ∈ first ↔ rule ∈ second) →
        canonicalizePermissionRules first = canonicalizePermissionRules second) ∧
      (∀ (rules : List RememberedRule) (unique : HashTable PermissionRuleAddress RememberedRule),
        unique.Same (rules.foldl keepLeast .empty) →
          (RuleStore.ofRules unique.values).rules = canonicalizePermissionRules rules) ∧
      ∀ (rules : List RememberedRule) (denial : RememberedRule), denial ∈ rules →
        denial.allow = false →
          ∃ kept ∈ canonicalizePermissionRules rules,
            kept.address = denial.address ∧ kept.allow = false := by
  intro volatile file
  obtain ⟨sameReplies, keeps⟩ := FileRuntimeStore.keeps_new.replies calls
  have isLedger : volatile.2 = (calls.flatMap StoreCall.events).foldl ruleLedger.apply [] :=
    VolatileRuntimeStore.replies_rows calls []
  have apart : volatile.2.Pairwise StoredRule.Apart := by
    rw [isLedger]
    exact apart_rows _
  refine ⟨sameReplies, fun context => (keeps.load context).1, keeps.disk, apart, ?_, ?_,
    fun _ _ => canonicalize_congr, fun _ _ => canonicalize_of_same, ?_⟩
  · intro context
    exact RuleStore.distinct_rules _
  · intro context rule
    rw [mem_applicableRules apart, isLedger]
    simp only [ruleLedger.mem_foldl_apply]
  · intro rules denial mem denied
    obtain ⟨kept, isKept, sameAddress⟩ := exists_mem_canonicalize mem
    exact ⟨kept, isKept, sameAddress,
      (mem_canonicalize.mp isKept).denies mem sameAddress.symm denied⟩

/-- Two sessions write the global rule for one tool, and the first is then cleared. -/
def sharedRule : List StoreCall :=
  [.upsertRule ⟨"first", none⟩ ⟨⟨"shell", none⟩, true, .global, none⟩,
    .upsertRule ⟨"second", none⟩ ⟨⟨"shell", none⟩, false, .global, some "not here"⟩,
    .clearRules "first", .loadApplicableRules ⟨"third", none⟩]

/-- A table of two rules, with the one added last in front. -/
def reversedTable : HashTable PermissionRuleAddress RememberedRule :=
  ⟨[(⟨.global, ⟨"read", none⟩⟩, ⟨⟨"read", none⟩, true, .global, none⟩),
    (⟨.global, ⟨"shell", none⟩⟩, ⟨⟨"shell", none⟩, true, .global, none⟩)], by decide⟩

theorem rule_stores_agree_shared_rule :
    let denial : RememberedRule := ⟨⟨"shell", none⟩, false, .global, some "not here"⟩
    let allowance : RememberedRule := ⟨⟨"shell", none⟩, true, .global, none⟩
    (replies FileRuntimeStore.step .new sharedRule).1 = [.done, .done, .done, .rules [denial]] ∧
      canonicalizePermissionRules [allowance, denial] =
        canonicalizePermissionRules [denial, allowance, denial] ∧
      (RuleStore.ofRules reversedTable.values).rules = canonicalizePermissionRules
        [allowance, ⟨⟨"read", none⟩, true, .global, none⟩] ∧
      ∃ kept ∈ canonicalizePermissionRules [allowance, denial],
        kept.address = denial.address ∧ kept.allow = false := by
  intro denial allowance
  obtain ⟨sameReplies, -, -, -, -, -, anyOrder, anyTable, denies⟩ := rule_stores_agree sharedRule
  refine ⟨sameReplies.trans (by decide +kernel), anyOrder _ _ ?_, anyTable _ _ ?_,
    denies _ denial ?_ rfl⟩
  · intro rule
    simp only [mem_cons, not_mem_nil, or_false]
    constructor
    · rintro (isAllowance | isDenial)
      · exact .inr (.inl isAllowance)
      · exact .inl isDenial
    · rintro (isDenial | isAllowance | isDenial)
      · exact .inr isDenial
      · exact .inl isAllowance
      · exact .inr isDenial
  · show List.Perm _ _
    decide +kernel
  · exact mem_cons_of_mem _ (mem_singleton_self _)

end Mentra.Permission
