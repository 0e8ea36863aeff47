import Mentra.Foundation.Outcome
import Mentra.Permission.Rules

/-!
# Which remembered rule decides a call

All rules that apply to a call stand in one order: narrower scopes first, in a scope the
patterns before the bare rule, of the patterns the denials first, then by key.  The lookup
answers with the least of them, whatever order they were added or met in.
-/

namespace Mentra.Permission

open Foundation Std.ReflCmp List RuleStore

namespace RememberedRule

/-- The rule has a pattern, and it accounts for the input of the call. -/
def MatchesPattern (rule : RememberedRule) (toolName : String) (inputJson : Option String) : Prop :=
  rule.key.toolName = toolName ∧ ∃ pattern json,
    rule.key.pattern = some pattern ∧ inputJson = some json ∧ Pattern.matches pattern json

/-- The rule answers every call of the tool. -/
def IsBare (rule : RememberedRule) (toolName : String) : Prop :=
  rule.key.toolName = toolName ∧ rule.key.pattern = none

def Applies (rule : RememberedRule) (toolName : String) (inputJson : Option String) : Prop :=
  rule.MatchesPattern toolName inputJson ∨ rule.IsBare toolName

/-- The order in which rules that apply to one call are preferred. -/
def preference (left right : RememberedRule) : Ordering :=
  (compare (scopeRank left.scope) (scopeRank right.scope)).then <|
    (compare left.key.pattern.isNone right.key.pattern.isNone).then <|
      (compare left.allow right.allow).then (compareRuleKeys left.key right.key)

instance : Std.TransCmp preference :=
  inferInstanceAs (Std.TransCmp (compareLex
    (compareOn fun rule : RememberedRule => scopeRank rule.scope)
    (compareLex (compareOn fun rule => rule.key.pattern.isNone)
      (compareLex (compareOn fun rule => rule.allow)
        (compareLex (compareOn fun rule => rule.key.toolName)
          (compareOn fun rule => rule.key.pattern))))))

end RememberedRule

open RememberedRule

variable {Held First Second : RememberedRule → Prop} {toolName : String}
  {inputJson : Option String} {rule other : RememberedRule} {scope : PermissionRuleScope}

theorem scopeRank_injective : Function.Injective scopeRank := by
  intro first second same
  cases first <;> cases second <;> first | rfl | cases same

theorem address_eq_of_preference (tied : preference rule other = .eq) :
    rule.address = other.address := by
  simp only [preference, compareRuleKeys, Ordering.then_eq_eq,
    Std.LawfulEqOrd.compare_eq_iff_eq] at tied
  obtain ⟨sameRank, -, -, sameTool, samePattern⟩ := tied
  have sameKey : rule.key = other.key := by
    rcases rule with ⟨⟨tool, pattern⟩, allow, scope, reason⟩
    exact congrArg₂ RuleKey.mk sameTool samePattern
  exact congrArg₂ PermissionRuleAddress.mk (scopeRank_injective sameRank) sameKey

theorem preference_of_rank (narrower : scopeRank rule.scope < scopeRank other.scope) :
    (preference rule other).isLE := by
  have before : compare (scopeRank rule.scope) (scopeRank other.scope) = .lt :=
    Nat.compare_eq_lt.mpr narrower
  rw [preference, before]
  rfl

/-! ## The deciding rule -/

/-- The least of the rules held that apply to the call. -/
structure Deciding (Held : RememberedRule → Prop) (toolName : String)
    (inputJson : Option String) (rule : RememberedRule) : Prop where
  held : Held rule
  applies : rule.Applies toolName inputJson
  least : ∀ other, Held other → other.Applies toolName inputJson → (preference rule other).isLE

/-- An answer is the deciding rule, or none where no rule applies. -/
def Answers (Held : RememberedRule → Prop) (toolName : String) (inputJson : Option String) :
    Option RememberedRule → Prop
  | some rule => Deciding Held toolName inputJson rule
  | none => ∀ rule, Held rule → ¬ rule.Applies toolName inputJson

/-- Where an address has one rule, a call has one answer. -/
theorem Answers.unique {first second : Option RememberedRule}
    (addressed : ∀ rule other, Held rule → Held other → rule.address = other.address → rule = other)
    (isFirst : Answers Held toolName inputJson first)
    (isSecond : Answers Held toolName inputJson second) : first = second := by
  cases first with
  | none =>
    cases second with
    | none => rfl
    | some other => exact absurd isSecond.applies (isFirst other isSecond.held)
  | some rule =>
    cases second with
    | none => exact absurd isFirst.applies (isSecond rule isFirst.held)
    | some other =>
      have tied := Std.OrientedCmp.isLE_antisymm
        (isFirst.least other isSecond.held isSecond.applies)
        (isSecond.least rule isFirst.held isFirst.applies)
      rw [addressed rule other isFirst.held isSecond.held (address_eq_of_preference tied)]

theorem Answers.congr {answer : Option RememberedRule} (same : ∀ rule, First rule ↔ Second rule)
    (answers : Answers First toolName inputJson answer) :
    Answers Second toolName inputJson answer := by
  have equal : First = Second := funext fun rule => propext (same rule)
  exact equal ▸ answers

/-- Rules of narrower scopes can be asked first. -/
theorem Answers.or {first second : Option RememberedRule}
    (narrower : ∀ rule other, First rule → Second other →
      scopeRank rule.scope < scopeRank other.scope)
    (isFirst : Answers First toolName inputJson first)
    (isSecond : Answers Second toolName inputJson second) :
    Answers (fun rule => First rule ∨ Second rule) toolName inputJson (first.or second) := by
  cases first with
  | some rule =>
    refine ⟨.inl isFirst.held, isFirst.applies, ?_⟩
    rintro other (held | held) applies
    · exact isFirst.least other held applies
    · exact preference_of_rank (narrower rule other isFirst.held held)
  | none =>
    cases second with
    | none =>
      rintro rule (held | held)
      · exact isFirst rule held
      · exact isSecond rule held
    | some rule =>
      refine ⟨.inr isSecond.held, isSecond.applies, ?_⟩
      rintro other (held | held) applies
      · exact absurd applies (isFirst other held)
      · exact isSecond.least other held applies

/-! ## The lookup finds it -/

namespace RuleStore

variable {store : RuleStore}

theorem isCandidate_iff :
    isCandidate scope toolName inputJson rule.address ↔
      rule.scope = scope ∧ rule.MatchesPattern toolName inputJson := by
  rw [isCandidate, Bool.and_eq_true, Bool.and_eq_true, decide_eq_true_eq, decide_eq_true_eq,
    and_assoc]
  simp only [MatchesPattern, address]
  cases rule.key.pattern with
  | none => simp
  | some text => cases inputJson <;> simp

theorem isFallback_iff :
    isFallback scope toolName rule.address ↔ rule.scope = scope ∧ rule.IsBare toolName := by
  rw [isFallback, Bool.and_eq_true, Bool.and_eq_true, decide_eq_true_eq, decide_eq_true_eq,
    Option.isNone_iff_eq_none, and_assoc]
  rfl

/-- In one scope the candidates compare as their rules do. -/
theorem preference_of_candidates (sameScope : rule.scope = other.scope)
    (matched : rule.MatchesPattern toolName inputJson)
    (otherMatched : other.MatchesPattern toolName inputJson) :
    preference rule other =
      comparePatternCandidates (rule.address, rule) (other.address, other) := by
  obtain ⟨-, pattern, json, isPattern, -⟩ := matched
  obtain ⟨-, otherPattern, otherJson, isOtherPattern, -⟩ := otherMatched
  simp [preference, comparePatternCandidates, address, sameScope, isPattern, isOtherPattern,
    compare_self]

theorem preference_of_bare (sameScope : rule.scope = other.scope)
    (matched : rule.MatchesPattern toolName inputJson) (bare : other.IsBare toolName) :
    (preference rule other).isLE := by
  obtain ⟨-, pattern, json, isPattern, -⟩ := matched
  have patternFirst : compare false true = .lt := rfl
  simp [preference, sameScope, isPattern, bare.2, compare_self, patternFirst]

theorem matchingIn_answers (store : RuleStore) (toolName : String) (inputJson : Option String)
    (scope : PermissionRuleScope) :
    Answers (fun rule => store.Holds rule ∧ rule.scope = scope) toolName inputJson
      (store.matchingIn toolName inputJson scope) := by
  -- A rule of the scope is a candidate exactly when its pattern matches.
  have isMem : ∀ rule : RememberedRule, store.Holds rule → rule.scope = scope →
      rule.MatchesPattern toolName inputJson → (rule.address, rule) ∈
        store.inner.entries.filter fun entry => isCandidate scope toolName inputJson entry.1 :=
    fun rule holds inScope matched =>
      mem_filter.mpr ⟨holds, isCandidate_iff.mpr ⟨inScope, matched⟩⟩
  rw [matchingIn]
  split
  · rename_i address rule found
    obtain ⟨mem, least⟩ := minBy_eq_some found
    obtain ⟨isEntry, candidate⟩ := mem_filter.mp mem
    obtain ⟨rfl, holds⟩ := mem_entries_iff.mp isEntry
    obtain ⟨inScope, matched⟩ := isCandidate_iff.mp candidate
    refine ⟨⟨holds, inScope⟩, .inl matched, ?_⟩
    rintro other ⟨otherHolds, otherScope⟩ (otherMatched | bare)
    · rw [preference_of_candidates (inScope.trans otherScope.symm) matched otherMatched]
      exact least _ (isMem other otherHolds otherScope otherMatched)
    · exact preference_of_bare (inScope.trans otherScope.symm) matched bare
  · rename_i noCandidate
    have unmatched : ∀ rule : RememberedRule, store.Holds rule → rule.scope = scope →
        ¬ rule.MatchesPattern toolName inputJson := by
      intro rule holds inScope matched
      have mem := isMem rule holds inScope matched
      rw [minBy_eq_none_iff.mp noCandidate] at mem
      exact not_mem_nil mem
    cases found : store.inner.entries.find? fun entry => isFallback scope toolName entry.1 with
    | none =>
      rintro rule ⟨holds, inScope⟩ (matched | bare)
      · exact unmatched rule holds inScope matched
      · exact find?_eq_none.mp found _ holds (isFallback_iff.mpr ⟨inScope, bare⟩)
    | some entry =>
      obtain ⟨address, rule⟩ := entry
      obtain ⟨rfl, holds⟩ := mem_entries_iff.mp (mem_of_find?_eq_some found)
      have fallback : isFallback scope toolName rule.address := by
        simpa using find?_some found
      obtain ⟨inScope, bare⟩ := isFallback_iff.mp fallback
      refine ⟨⟨holds, inScope⟩, .inr bare, ?_⟩
      rintro other ⟨otherHolds, otherScope⟩ (otherMatched | otherBare)
      · exact absurd otherMatched (unmatched other otherHolds otherScope)
      · -- Two bare rules of one scope and tool have one address.
        have sameKey : rule.key = other.key := by
          rcases rule with ⟨⟨tool, pattern⟩, allow, scope, reason⟩
          exact congrArg₂ RuleKey.mk (bare.1.trans otherBare.1.symm) (bare.2.trans otherBare.2.symm)
        have same : rule = other := eq_of_address holds otherHolds
          (congrArg₂ PermissionRuleAddress.mk (inScope.trans otherScope.symm) sameKey)
        subst same
        exact Ordering.isLE_of_eq_eq compare_self

/-- The loop over scopes, narrowest first. -/
theorem findSome?_answers (store : RuleStore) {scopes : List PermissionRuleScope}
    (sorted : scopes.Pairwise fun first second => scopeRank first < scopeRank second) :
    Answers (fun rule => store.Holds rule ∧ rule.scope ∈ scopes) toolName inputJson
      (scopes.findSome? (store.matchingIn toolName inputJson)) := by
  induction scopes with
  | nil => exact fun rule held => absurd held.2 not_mem_nil
  | cons scope scopes ih =>
    obtain ⟨narrowest, sortedRest⟩ := pairwise_cons.mp sorted
    have narrower : ∀ rule other : RememberedRule, store.Holds rule ∧ rule.scope = scope →
        store.Holds other ∧ other.scope ∈ scopes →
          scopeRank rule.scope < scopeRank other.scope := by
      rintro rule other ⟨-, rfl⟩ ⟨-, later⟩
      exact narrowest other.scope later
    have both := Answers.or narrower (store.matchingIn_answers toolName inputJson scope)
      (ih sortedRest)
    have loop : (scope :: scopes).findSome? (store.matchingIn toolName inputJson) =
        (store.matchingIn toolName inputJson scope).or
          (scopes.findSome? (store.matchingIn toolName inputJson)) := by
      rw [findSome?_cons]
      cases store.matchingIn toolName inputJson scope <;> rfl
    rw [loop]
    apply both.congr
    intro rule
    rw [mem_cons, and_or_left]

/-- The lookup answers with the deciding rule of the store. -/
theorem matchingRule_answers (store : RuleStore) (toolName : String) (inputJson : Option String) :
    Answers store.Holds toolName inputJson (store.matchingRule toolName inputJson) := by
  have sorted : scopePrecedence.Pairwise fun first second =>
      scopeRank first < scopeRank second := by decide
  have every : ∀ scope, scope ∈ scopePrecedence := by
    intro scope
    cases scope <;> decide
  apply (store.findSome?_answers sorted).congr
  intro rule
  exact and_iff_left (every rule.scope)

/-- The answer depends on the rules of the store and on nothing else. -/
theorem matchingRule_eq_of_answers {answer : Option RememberedRule}
    (answers : Answers store.Holds toolName inputJson answer) :
    store.matchingRule toolName inputJson = answer :=
  Answers.unique (fun _ _ => eq_of_address) (store.matchingRule_answers toolName inputJson) answers

theorem matchingRule_congr {first second : RuleStore}
    (same : ∀ rule, first.Holds rule ↔ second.Holds rule) :
    first.matchingRule toolName inputJson = second.matchingRule toolName inputJson :=
  matchingRule_eq_of_answers
    ((second.matchingRule_answers toolName inputJson).congr fun rule => (same rule).symm)

end RuleStore

/-! ## The two stages of the session handle -/

namespace SessionPermissionHandle

variable {σ ε : Type} {handle : SessionPermissionHandle} {store : PermissionRuleStore σ ε}
  {durable : σ} {loaded listing : List RememberedRule}

/-- The listing has the rules of the process and the other rules of the store. -/
theorem mem_listing
    (listed : listing = (ofRules
      (loaded.filter (fun rule => rule.scope ≠ .process) ++ handle.processRules.rules)).rules) :
    rule ∈ listing ↔ handle.processRules.Holds rule ∨
      (ofRules (loaded.filter fun rule => rule.scope ≠ .process)).Holds rule := by
  rw [listed, mem_rules, ofRules, foldl_append, holds_foldl (distinct_rules _), mem_rules]
  apply or_congr_right
  apply and_iff_left_of_imp
  intro holds sameAddress
  -- A rule of the store has another scope than every rule of the process.
  obtain ⟨other, mem, same⟩ := mem_map.mp sameAddress
  have process := handle.processOnly other (mem_rules.mp mem)
  have sameScope : other.scope = rule.scope := congrArg PermissionRuleAddress.scope same
  rcases mem_of_holds_foldl holds with kept | none
  · have apart := (mem_filter.mp kept).2
    rw [← sameScope, process] at apart
    simp at apart
  · exact not_holds_new none

theorem matchingRule_of_listing (listed : handle.rememberedRules store durable = .ok listing)
    (toolName : String) (inputJson : Option String) :
    handle.matchingRule store toolName inputJson durable =
      .ok ((ofRules listing).matchingRule toolName inputJson) := by
  obtain ⟨loaded, isLoaded, listed⟩ := Outcome.bind_eq_ok_iff.mp listed
  have isListing := (Except.ok.inj listed).symm
  have distinct : (listing.map address).Nodup := isListing ▸ distinct_rules _
  have narrower : ∀ rule other : RememberedRule, handle.processRules.Holds rule →
      (ofRules (loaded.filter fun rule => rule.scope ≠ .process)).Holds other →
      scopeRank rule.scope < scopeRank other.scope := by
    intro rule other process holds
    rw [handle.processOnly rule process]
    rcases mem_of_holds_foldl holds with kept | none
    · have apart := (mem_filter.mp kept).2
      cases isScope : other.scope <;> simp [isScope, scopeRank] at apart ⊢
    · exact absurd none not_holds_new
  have both := Answers.or narrower
    (handle.processRules.matchingRule_answers toolName inputJson)
    (matchingRule_answers _ toolName inputJson)
  have single : Answers (ofRules listing).Holds toolName inputJson _ :=
    both.congr fun rule => by rw [holds_ofRules distinct, mem_listing isListing]
  rw [matchingRule_eq_of_answers single, SessionPermissionHandle.matchingRule, isLoaded]
  cases handle.processRules.matchingRule toolName inputJson <;> rfl

theorem processRules_after (state : SessionPermissionHandle × σ) (call : RuleCall) :
    (after store state call).1.processRules =
      if call.scope = .process then state.1.processRules.after call else state.1.processRules := by
  split
  · rename_i isProcess
    cases call with
    | remember | revoke | clear =>
      dsimp only [RuleCall.scope] at isProcess
      simp only [after, rememberRule, revokeRule, clearScope, isProcess]
      rfl
  · rename_i another
    cases call with
    | remember rule =>
      have another : rule.scope ≠ .process := another
      rw [after, rememberRule, dif_neg another]
    | revoke address =>
      have another : address.scope ≠ .process := another
      rw [after, revokeRule, if_neg another]
    | clear scope =>
      have another : scope ≠ .process := another
      rw [after, clearScope, if_neg another]

/-- After any calls on a session, whatever the store makes of those of other scopes, the rules of
the process that were not replaced, revoked or cleared since decide what they apply to. -/
theorem process_rules_decide (store : PermissionRuleStore σ ε) (context : PermissionRuleContext)
    (durable : σ) (calls : List RuleCall) (toolName : String) (inputJson : Option String) :
    let state := calls.foldl (after store) (new context, durable)
    ∃ answer, Answers (ledger.Survives (calls.filter fun call => call.scope = .process)) toolName
        inputJson answer ∧
      ∀ rule ∈ answer, state.1.matchingRule store toolName inputJson state.2 = .ok (some rule) := by
  intro state
  have table : state.1.processRules =
      (calls.filter fun call => call.scope = .process).foldl RuleStore.after .new := by
    rw [foldl_filter]
    refine (foldl_hom (fun state : SessionPermissionHandle × σ => state.1.processRules)
      fun state call => ?_).symm
    simp [processRules_after]
  refine ⟨state.1.processRules.matchingRule toolName inputJson, ?_, ?_⟩
  · apply (matchingRule_answers _ toolName inputJson).congr
    intro rule
    rw [table, holds_after]
  · intro rule decides
    rw [SessionPermissionHandle.matchingRule, decides]

end SessionPermissionHandle

/-! ## The decided call -/

/-- What is asked of the rule that decides a call. -/
structure Decides (rules : List RememberedRule) (toolName : String) (inputJson : Option String)
    (rule : RememberedRule) : Prop where
  mem : rule ∈ rules
  applies : rule.Applies toolName inputJson
  /-- No scope narrower than its own has a match. -/
  narrowest : ∀ other ∈ rules, other.Applies toolName inputJson →
    scopeRank rule.scope ≤ scopeRank other.scope
  /-- The bare rule decides only where the scope has no matching pattern. -/
  patternFirst : ∀ other ∈ rules, other.scope = rule.scope →
    other.MatchesPattern toolName inputJson → rule.MatchesPattern toolName inputJson
  denialFirst : ∀ other ∈ rules, other.scope = rule.scope →
    other.MatchesPattern toolName inputJson → other.allow = false → rule.allow = false

theorem Deciding.narrowest (deciding : Deciding Held toolName inputJson rule) (held : Held other)
    (applies : other.Applies toolName inputJson) :
    scopeRank rule.scope ≤ scopeRank other.scope := by
  have least := deciding.least other held applies
  rw [preference, Ordering.isLE_then_iff_and] at least
  exact Nat.isLE_compare.mp least.1

/-- Of the rules of its own scope, the deciding rule comes first by pattern and verdict. -/
theorem Deciding.first_in_scope (deciding : Deciding Held toolName inputJson rule)
    (held : Held other) (sameScope : other.scope = rule.scope)
    (matched : other.MatchesPattern toolName inputJson) :
    rule.MatchesPattern toolName inputJson ∧ (other.allow = false → rule.allow = false) := by
  have least := deciding.least other held (.inl matched)
  obtain ⟨-, pattern, json, isPattern, -⟩ := matched
  simp only [preference, sameScope, isPattern, compare_self, Ordering.eq_then,
    Option.isNone_some] at least
  rcases deciding.applies with matched | bare
  · refine ⟨matched, ?_⟩
    intro denied
    obtain ⟨-, ownPattern, ownJson, isOwnPattern, -⟩ := matched
    simp only [isOwnPattern, denied, Option.isNone_some, compare_self, Ordering.eq_then] at least
    cases allowed : rule.allow with
    | false => rfl
    | true =>
      rw [allowed] at least
      cases least
  · rw [bare.2] at least
    cases least

theorem decides_of_deciding {rules : List RememberedRule} (mem : ∀ rule, Held rule ↔ rule ∈ rules)
    (deciding : Deciding Held toolName inputJson rule) :
    Decides rules toolName inputJson rule where
  mem := (mem rule).mp deciding.held
  applies := deciding.applies
  narrowest other isMem applies := deciding.narrowest ((mem other).mpr isMem) applies
  patternFirst other isMem sameScope matched :=
    (deciding.first_in_scope ((mem other).mpr isMem) sameScope matched).1
  denialFirst other isMem sameScope matched :=
    (deciding.first_in_scope ((mem other).mpr isMem) sameScope matched).2

/-- The rule that decides a call is the same for every order of adding rules and every order of
the table: from the narrowest scope with a match, a pattern before the bare rule and a denial
before a grant.  The two stages of the session handle find what one lookup over its listing
finds. -/
theorem remembered_rule_decides {σ ε : Type} (toolName : String) (inputJson : Option String) :
    (∀ (rules order : List RememberedRule) (store : RuleStore),
      (rules.map address).Nodup → order.Perm rules →
        store.inner.Same (ofRules order).inner →
          store.matchingRule toolName inputJson = (ofRules rules).matchingRule toolName inputJson ∧
          (∀ rule, store.matchingRule toolName inputJson = some rule →
            Decides rules toolName inputJson rule) ∧
          (store.matchingRule toolName inputJson = none →
            ∀ rule ∈ rules, ¬ rule.Applies toolName inputJson)) ∧
    (∀ (handle : SessionPermissionHandle) (store : PermissionRuleStore σ ε) (durable : σ)
      (listing : List RememberedRule) (single : RuleStore),
      handle.rememberedRules store durable = .ok listing →
        single.inner.Same (ofRules listing).inner →
          handle.matchingRule store toolName inputJson durable =
            .ok (single.matchingRule toolName inputJson)) := by
  constructor
  · intro rules order store distinct inserted iterated
    have distinctOrder : (order.map address).Nodup :=
      (inserted.map address).nodup_iff.mpr distinct
    have holds : ∀ rule, store.Holds rule ↔ rule ∈ rules := fun rule =>
      iterated.mem_iff.trans ((holds_ofRules distinctOrder).trans inserted.mem_iff)
    have answers := store.matchingRule_answers toolName inputJson
    refine ⟨?_, ?_, ?_⟩
    · apply matchingRule_congr
      intro rule
      rw [holds, holds_ofRules distinct]
    · intro rule found
      rw [found] at answers
      exact decides_of_deciding holds answers
    · intro found rule mem
      rw [found] at answers
      exact answers rule ((holds rule).mpr mem)
  · intro handle store durable listing single listed iterated
    rw [SessionPermissionHandle.matchingRule_of_listing listed]
    congr 1
    apply matchingRule_congr
    exact fun rule => iterated.mem_iff.symm

/-- A tool allowed for the session, but not to remove, and refused everywhere else. -/
def shellRules : List RememberedRule :=
  [⟨⟨"shell", none⟩, true, .session, none⟩,
    ⟨⟨"shell", some "*"⟩, true, .session, none⟩,
    ⟨⟨"shell", some "rm*"⟩, false, .session, some "no removals"⟩,
    ⟨⟨"shell", none⟩, false, .global, none⟩]

/-- The durable rules above, loaded by every session. -/
def shellStore : PermissionRuleStore Unit Unit where
  upsertRule _ _ durable := (.ok (), durable)
  loadApplicableRules _ _ := .ok shellRules
  revokeRule _ _ durable := (.ok false, durable)
  clearScope _ _ durable := (.ok 0, durable)

theorem remembered_rule_decides_removal :
    ∃ rule, (ofRules shellRules.reverse).matchingRule "shell" (some "rm x") = some rule ∧
      rule.reason = some "no removals" ∧ Decides shellRules "shell" (some "rm x") rule ∧
      (ofRules shellRules).matchingRule "shell" (some "rm x") = some rule ∧
      (SessionPermissionHandle.new ⟨"session", none⟩).matchingRule shellStore "shell"
        (some "rm x") () = .ok (some rule) := by
  have decides := remembered_rule_decides (σ := Unit) (ε := Unit) "shell" (some "rm x")
  have found : (ofRules shellRules.reverse).matchingRule "shell" (some "rm x") =
      some ⟨⟨"shell", some "rm*"⟩, false, .session, some "no removals"⟩ := by decide +kernel
  obtain ⟨same, isDecided, -⟩ := decides.1 shellRules shellRules.reverse _ (by decide +kernel)
    (reverse_perm _) (.refl _)
  have staged := decides.2 (.new ⟨"session", none⟩) shellStore () _ _ rfl (.refl _)
  refine ⟨_, found, rfl, isDecided _ found, same.symm.trans found, staged.trans ?_⟩
  have listed : (ofRules (ofRules
      (shellRules.filter (fun rule => rule.scope ≠ .process) ++
        RuleStore.new.rules)).rules).matchingRule
        "shell" (some "rm x") =
      some ⟨⟨"shell", some "rm*"⟩, false, .session, some "no removals"⟩ := by decide +kernel
  exact congrArg Except.ok listed

end Mentra.Permission
