import Mentra.Permission.Lookup

/-!
# One rule for each address

Model of `canonicalize_permission_rules` in `mentra/src/runtime/store.rs`.  Of the rules at
one address it keeps the least in an order that tells all of them apart and begins with the
denials, so what it returns is determined by which rules it is given.
-/

namespace Mentra.Permission

open Foundation HashTable List Ordering RuleStore

/-- A denial first, then a rule with a reason, then by reason and key. -/
def compareDuplicateRules (left right : RememberedRule) : Ordering :=
  (compare left.allow right.allow).then <|
    (compareSomeFirst left.reason right.reason).then <|
      (compare left.key.toolName right.key.toolName).then <|
        compare left.key.pattern right.key.pattern

instance : Std.TransCmp compareDuplicateRules := by
  have same : compareDuplicateRules = compareLex
      (compareOn fun rule : RememberedRule => rule.allow)
      (compareLex (compareLex (compareOn fun rule => rule.reason.isNone)
          (compareOn fun rule => rule.reason))
        (compareLex (compareOn fun rule => rule.key.toolName)
          (compareOn fun rule => rule.key.pattern))) := by
    funext left right
    rw [compareDuplicateRules, compareSomeFirst_eq]
    rfl
  rw [same]
  infer_instance

/-- One round of the loop: a rule takes the place of a greater one at its address. -/
def keepLeast (unique : HashTable PermissionRuleAddress RememberedRule) (rule : RememberedRule) :
    HashTable PermissionRuleAddress RememberedRule :=
  match unique.get? rule.address with
  | none => unique.insert rule.address rule
  | some old =>
    if compareDuplicateRules rule old = .lt then unique.insert rule.address rule else unique

def canonicalizePermissionRules (rules : List RememberedRule) : List RememberedRule :=
  (ofRules (rules.foldl keepLeast .empty).values).rules

/-! ## Listings -/

namespace RuleStore

theorem eq_of_listing {first second : RememberedRule}
    (tied : compareRulesForListing first second = .eq) : first.address = second.address := by
  simp only [compareRulesForListing, compareSomeFirst_eq, then_eq_eq,
    Std.LawfulEqOrd.compare_eq_iff_eq] at tied
  obtain ⟨sameRank, sameTool, -, samePattern⟩ := tied
  have sameKey : first.key = second.key := by
    rcases first with ⟨⟨tool, pattern⟩, allow, scope, reason⟩
    exact congrArg₂ RuleKey.mk sameTool samePattern
  exact congrArg₂ PermissionRuleAddress.mk (scopeRank_injective sameRank) sameKey

theorem sorted_rules (store : RuleStore) :
    store.rules.Pairwise fun left right => (compareRulesForListing left right).isLE := by
  have total : Std.Total fun left right : RememberedRule =>
      (compareRulesForListing left right).isLE = true := by
    constructor
    intro left right
    rw [← Std.OrientedCmp.isGE_iff_isLE (a := left)]
    cases compareRulesForListing left right <;> first | exact .inl rfl | exact .inr rfl
  have trans : IsTrans RememberedRule fun left right =>
      (compareRulesForListing left right).isLE = true :=
    ⟨fun _ _ _ => Std.TransCmp.isLE_trans⟩
  exact pairwise_insertionSort _ _

/-- Two stores with the same rules are listed alike. -/
theorem rules_congr {first second : RuleStore}
    (same : ∀ rule, first.Holds rule ↔ second.Holds rule) : first.rules = second.rules := by
  have nodup (store : RuleStore) : store.rules.Nodup := store.distinct_rules.of_map
  have perm : first.rules.Perm second.rules := by
    rw [perm_ext_iff_of_nodup (nodup first) (nodup second)]
    intro rule
    rw [mem_rules, mem_rules, same]
  apply perm.eq_of_pairwise _ first.sorted_rules second.sorted_rules
  intro left right leftMem rightMem before after
  have tied := Std.OrientedCmp.isLE_antisymm before after
  exact eq_of_address (mem_rules.mp leftMem) ((same right).mpr (mem_rules.mp rightMem))
    (eq_of_listing tied)

end RuleStore

/-! ## The least rule of each address -/

/-- The rule is the least of those given at its address. -/
structure LeastAtAddress (rules : List RememberedRule) (rule : RememberedRule) : Prop where
  mem : rule ∈ rules
  least : ∀ other ∈ rules, other.address = rule.address → (compareDuplicateRules rule other).isLE

theorem eq_of_duplicates {first second : RememberedRule}
    (sameAddress : first.address = second.address)
    (tied : compareDuplicateRules first second = .eq) : first = second := by
  simp only [compareDuplicateRules, compareSomeFirst_eq, then_eq_eq,
    Std.LawfulEqOrd.compare_eq_iff_eq] at tied
  obtain ⟨sameAllow, ⟨-, sameReason⟩, -⟩ := tied
  rcases first with ⟨key, allow, scope, reason⟩
  rcases second with ⟨otherKey, otherAllow, otherScope, otherReason⟩
  cases sameAddress
  cases sameAllow
  cases sameReason
  rfl

variable {rules : List RememberedRule}

theorem LeastAtAddress.unique {first second : RememberedRule}
    (isFirst : LeastAtAddress rules first) (isSecond : LeastAtAddress rules second)
    (sameAddress : first.address = second.address) : first = second :=
  eq_of_duplicates sameAddress (Std.OrientedCmp.isLE_antisymm
    (isFirst.least second isSecond.mem sameAddress.symm)
    (isSecond.least first isFirst.mem sameAddress))

/-- What the table has after the rules seen so far. -/
structure Collects (seen : List RememberedRule)
    (unique : HashTable PermissionRuleAddress RememberedRule) : Prop where
  sound : ∀ address rule, (address, rule) ∈ unique.entries →
    rule.address = address ∧ LeastAtAddress seen rule
  covers : ∀ rule ∈ seen, ∃ least, (rule.address, least) ∈ unique.entries

variable {seen : List RememberedRule} {rule : RememberedRule}
  {unique : HashTable PermissionRuleAddress RememberedRule}

theorem Collects.insert (collects : Collects seen unique)
    (least : ∀ other ∈ seen, other.address = rule.address → (compareDuplicateRules rule other).isLE)
    :
    Collects (seen ++ [rule]) (unique.insert rule.address rule) where
  sound := by
    intro address kept mem
    rcases mem_insert.mp mem with isNew | ⟨old, differs⟩
    · cases isNew
      refine ⟨rfl, mem_append_right _ (mem_singleton_self _), ?_⟩
      intro other otherMem sameAddress
      rcases mem_append.mp otherMem with earlier | isRule
      · exact least other earlier sameAddress
      · rw [mem_singleton.mp isRule]
        exact isLE_of_eq_eq Std.ReflCmp.compare_self
    · obtain ⟨isAddress, wasLeast⟩ := collects.sound address kept old
      refine ⟨isAddress, mem_append_left _ wasLeast.mem, ?_⟩
      intro other otherMem sameAddress
      rcases mem_append.mp otherMem with earlier | isRule
      · exact wasLeast.least other earlier sameAddress
      · rw [mem_singleton.mp isRule, isAddress] at sameAddress
        exact absurd sameAddress.symm differs
  covers := by
    intro other mem
    by_cases sameAddress : other.address = rule.address
    · exact ⟨rule, mem_insert.mpr (.inl (by rw [sameAddress]))⟩
    · rcases mem_append.mp mem with earlier | isRule
      · obtain ⟨kept, isKept⟩ := collects.covers other earlier
        exact ⟨kept, mem_insert.mpr (.inr ⟨isKept, sameAddress⟩)⟩
      · rw [mem_singleton.mp isRule] at sameAddress
        exact absurd rfl sameAddress

theorem Collects.step (collects : Collects seen unique)
    (rule : RememberedRule) : Collects (seen ++ [rule]) (keepLeast unique rule) := by
  rw [keepLeast]
  split
  · rename_i vacant
    apply collects.insert
    intro other mem sameAddress
    obtain ⟨kept, isKept⟩ := collects.covers other mem
    rw [sameAddress] at isKept
    exact absurd isKept (get?_eq_none_iff.mp vacant kept)
  · rename_i old occupied
    have isOld := get?_eq_some_iff.mp occupied
    obtain ⟨oldAddress, oldLeast⟩ := collects.sound _ _ isOld
    split
    · rename_i less
      apply collects.insert
      intro other mem sameAddress
      have further := oldLeast.least other mem (sameAddress.trans oldAddress.symm)
      exact Std.TransCmp.isLE_trans (isLE_of_eq_lt less) further
    · rename_i notLess
      refine ⟨?_, ?_⟩
      · intro address kept mem
        obtain ⟨isAddress, wasLeast⟩ := collects.sound address kept mem
        refine ⟨isAddress, mem_append_left _ wasLeast.mem, ?_⟩
        intro other otherMem sameAddress
        rcases mem_append.mp otherMem with earlier | isRule
        · exact wasLeast.least other earlier sameAddress
        · -- The rule that was not taken is not less than the one that was kept.
          rw [mem_singleton.mp isRule] at sameAddress ⊢
          rw [← isAddress, ← sameAddress] at mem
          rw [HashTable.eq_of_mem mem isOld, Ordering.isLE_iff_ne_gt, Std.OrientedCmp.gt_iff_lt]
          exact notLess
      · intro other mem
        rcases mem_append.mp mem with earlier | isRule
        · exact collects.covers other earlier
        · rw [mem_singleton.mp isRule]
          exact ⟨old, isOld⟩

theorem collects_foldl (rules : List RememberedRule) (collects : Collects seen unique) :
    Collects (seen ++ rules) (rules.foldl keepLeast unique) := by
  induction rules generalizing seen unique with
  | nil =>
    rw [append_nil]
    exact collects
  | cons rule rules ih =>
    have rest := ih (collects.step rule)
    rw [append_assoc, singleton_append] at rest
    exact rest

theorem collects_all (rules : List RememberedRule) :
    Collects rules (rules.foldl keepLeast .empty) :=
  collects_foldl rules ⟨fun _ _ mem => absurd mem not_mem_nil, fun _ mem => absurd mem not_mem_nil⟩

theorem Collects.of_same {other : HashTable PermissionRuleAddress RememberedRule}
    (collects : Collects seen unique) (same : other.Same unique) : Collects seen other where
  sound address rule mem := collects.sound address rule (same.mem_iff.mp mem)
  covers rule mem := by
    obtain ⟨least, isLeast⟩ := collects.covers rule mem
    exact ⟨least, same.mem_iff.mpr isLeast⟩

/-- The canonical rules are listed from a store that has the least rule of each address. -/
theorem Collects.holds_ofRules (collects : Collects rules unique) :
    (ofRules unique.values).Holds rule ↔ LeastAtAddress rules rule := by
  have keys : unique.values.map RememberedRule.address = unique.entries.map Prod.fst := by
    rw [HashTable.values, map_map]
    exact map_congr_left fun entry mem => (collects.sound entry.1 entry.2 mem).1
  rw [RuleStore.holds_ofRules (keys ▸ unique.distinct), HashTable.values, mem_map]
  constructor
  · rintro ⟨⟨address, rule⟩, mem, rfl⟩
    exact (collects.sound address rule mem).2
  · intro least
    obtain ⟨kept, mem⟩ := collects.covers rule least.mem
    obtain ⟨isAddress, keptLeast⟩ := collects.sound _ _ mem
    rw [least.unique keptLeast isAddress.symm]
    exact ⟨_, mem, rfl⟩

theorem mem_canonicalize :
    rule ∈ canonicalizePermissionRules rules ↔ LeastAtAddress rules rule := by
  rw [canonicalizePermissionRules, mem_rules, (collects_all rules).holds_ofRules]

/-- Each rule has one at its address among the canonical ones. -/
theorem exists_mem_canonicalize (mem : rule ∈ rules) :
    ∃ kept ∈ canonicalizePermissionRules rules, kept.address = rule.address := by
  have collects := collects_all rules
  obtain ⟨kept, isKept⟩ := collects.covers rule mem
  obtain ⟨isAddress, least⟩ := collects.sound _ _ isKept
  exact ⟨kept, mem_canonicalize.mpr least, isAddress⟩

/-- Neither order nor repetition of the rules matters. -/
theorem canonicalize_congr {first second : List RememberedRule}
    (same : ∀ rule, rule ∈ first ↔ rule ∈ second) :
    canonicalizePermissionRules first = canonicalizePermissionRules second := by
  apply rules_congr
  intro rule
  rw [(collects_all first).holds_ofRules, (collects_all second).holds_ofRules]
  constructor
  · rintro ⟨mem, least⟩
    exact ⟨(same rule).mp mem, fun other otherMem => least other ((same other).mpr otherMem)⟩
  · rintro ⟨mem, least⟩
    exact ⟨(same rule).mpr mem, fun other otherMem => least other ((same other).mp otherMem)⟩

/-- The order of the table does not matter either. -/
theorem canonicalize_of_same (same : unique.Same (rules.foldl keepLeast .empty)) :
    (ofRules unique.values).rules = canonicalizePermissionRules rules := by
  have collects := collects_all rules
  apply rules_congr
  intro rule
  rw [(collects.of_same same).holds_ofRules, collects.holds_ofRules]

theorem LeastAtAddress.denies {other : RememberedRule}
    (isLeast : LeastAtAddress rules rule) (mem : other ∈ rules)
    (sameAddress : other.address = rule.address) (denied : other.allow = false) :
    rule.allow = false := by
  have before := isLeast.least other mem sameAddress
  rw [compareDuplicateRules, isLE_then_iff_and, denied] at before
  cases allowed : rule.allow with
  | false => rfl
  | true =>
    rw [allowed] at before
    cases before.1

end Mentra.Permission
