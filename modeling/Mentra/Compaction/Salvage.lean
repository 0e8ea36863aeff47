import Mentra.Compaction.Core

/-!
# What a compaction salvages

Which entries the two selections copy out of the summarized part, stated by
position: a user turn by the tokens of the user turns after it, a delegation
result by the number of delegation results after it.
-/

namespace Mentra.Compaction

open Mentra.Foundation.Lists List TranscriptItem

variable {V : Type}

/-- The estimated tokens of the user turns among the items. -/
def userTurnTokens (tokens : String → Nat) (items : List (TranscriptItem V)) : Nat :=
  ((items.filter isRealUserTurn).map fun turn => tokens turn.text).sum

/-- A user turn with the entries `newer` between it and the loop's position is taken: as the
first one, or because those before it leave budget and it still fits. -/
def UserTurnFits (tokens : String → Nat) (started : Bool) (remaining : Nat)
    (newer : List (TranscriptItem V)) (turn : TranscriptItem V) : Prop :=
  turn.isRealUserTurn ∧
    ((started = false ∧ ∀ item ∈ newer, item.isRealUserTurn = false) ∨
      (userTurnTokens tokens newer < remaining ∧
        userTurnTokens tokens newer + tokens turn.text ≤ remaining))

/-- A user turn with the entries `newer` after it is salvaged when no user turn
follows, or when those that follow leave budget and this one still fits. -/
def UserTurnSalvaged (tokens : String → Nat) (budget : Nat) (newer : List (TranscriptItem V))
    (turn : TranscriptItem V) : Prop :=
  UserTurnFits tokens false budget newer turn

/-- A delegation result is salvaged when few enough follow it. -/
def DelegationResultSalvaged (maxItems : Nat) (newer : List (TranscriptItem V))
    (result : TranscriptItem V) : Prop :=
  result.isDelegationResult ∧ newer.countP isDelegationResult < maxItems

variable (tokens : String → Nat)

theorem userTurnTokens_cons (item : TranscriptItem V) (items : List (TranscriptItem V)) :
    userTurnTokens tokens (item :: items) =
      (if item.isRealUserTurn then tokens item.text else 0) + userTurnTokens tokens items := by
  cases real : item.isRealUserTurn <;> simp [userTurnTokens, real]

variable (items : List (TranscriptItem V))

theorem userTurnTokens_reverse :
    userTurnTokens tokens items.reverse = userTurnTokens tokens items := by
  rw [userTurnTokens, filter_reverse, map_reverse, sum_reverse, userTurnTokens]

section Loop

variable {tokens : String → Nat} {started : Bool} {remaining : Nat} {item turn : TranscriptItem V}
  {newer : List (TranscriptItem V)}

theorem userTurnFits_nil_iff :
    UserTurnFits tokens started remaining [] turn ↔
      turn.isRealUserTurn ∧ (started = false ∨ (0 < remaining ∧ tokens turn.text ≤ remaining)) := by
  simp [UserTurnFits, userTurnTokens]

theorem userTurnFits_cons_other_iff (other : item.isRealUserTurn = false) :
    UserTurnFits tokens started remaining (item :: newer) turn ↔
      UserTurnFits tokens started remaining newer turn := by
  simp [UserTurnFits, userTurnTokens_cons, other]

/-- Behind a taken turn the loop goes on with what that turn leaves. -/
theorem userTurnFits_cons_turn_iff (real : item.isRealUserTurn) :
    UserTurnFits tokens started remaining (item :: newer) turn ↔
      tokens item.text < remaining ∧
        UserTurnFits tokens true (remaining - tokens item.text) newer turn := by
  simp only [UserTurnFits, userTurnTokens_cons, real, if_true, forall_mem_cons,
    Bool.true_eq_false, false_and, and_false, false_or]
  constructor
  · rintro ⟨isTurn, left, fits⟩
    exact ⟨by omega, isTurn, by omega, by omega⟩
  · rintro ⟨leaves, isTurn, left, fits⟩
    exact ⟨isTurn, by omega, by omega⟩

/-- The loop's selection.  Once something is selected there is budget left. -/
theorem mem_selectUserTurnsLoop_iff (items selected : List (TranscriptItem V))
    (budgetLeft : selected = [] ∨ 0 < remaining) :
    turn ∈ selectUserTurnsLoop tokens items remaining selected ↔
      turn ∈ selected ∨ ∃ newer older, items = newer ++ turn :: older ∧
        UserTurnFits tokens (!selected.isEmpty) remaining newer turn := by
  induction items generalizing selected remaining with
  | nil => simp [selectUserTurnsLoop]
  | cons item items ih =>
    rw [exists_split_cons, userTurnFits_nil_iff]
    cases real : item.isRealUserTurn with
    | false =>
      simp only [userTurnFits_cons_other_iff real]
      rw [selectUserTurnsLoop, real, if_neg (by simp), ih selected budgetLeft]
      constructor
      · rintro (mem | later)
        · exact .inl mem
        · exact .inr (.inr later)
      · rintro (mem | ⟨rfl, isReal, -⟩ | later)
        · exact .inl mem
        · simp [real] at isReal
        · exact .inr later
    | true =>
      simp only [userTurnFits_cons_turn_iff real]
      rw [selectUserTurnsLoop, real, if_pos rfl]
      by_cases tooLong : remaining < tokens item.text ∧ selected ≠ []
      · -- The turn is too long: neither it nor anything older is taken.
        rw [if_pos (by simpa using tooLong)]
        constructor
        · exact .inl
        · rintro (mem | ⟨rfl, -, first | ⟨-, fits⟩⟩ | ⟨-, -, -, leaves, -⟩)
          · exact mem
          · exact absurd (by simpa using first) tooLong.2
          · omega
          · omega
      · have taken : turn = item → turn.isRealUserTurn ∧
            ((!selected.isEmpty) = false ∨ (0 < remaining ∧ tokens turn.text ≤ remaining)) := by
          rintro rfl
          refine ⟨real, ?_⟩
          by_cases empty : selected = []
          · exact .inl (by simp [empty])
          · have positive := budgetLeft.resolve_left empty
            exact .inr ⟨positive, Nat.le_of_not_lt fun less => tooLong ⟨less, empty⟩⟩
        rw [if_neg (by simpa using tooLong)]
        by_cases spent : remaining - tokens item.text = 0
        · rw [if_pos spent, mem_cons]
          constructor
          · rintro (same | mem)
            · exact .inr (.inl ⟨same, taken same⟩)
            · exact .inl mem
          · rintro (mem | ⟨same, -⟩ | ⟨-, -, -, leaves, -⟩)
            · exact .inr mem
            · exact .inl same
            · omega
        · rw [if_neg spent, ih (item :: selected) (.inr (by omega)), mem_cons]
          have leaves : tokens item.text < remaining := by omega
          simp only [leaves, true_and, isEmpty_cons, Bool.not_false]
          constructor
          · rintro ((same | mem) | later)
            · exact .inr (.inl ⟨same, taken same⟩)
            · exact .inl mem
            · exact .inr (.inr later)
          · rintro (mem | ⟨same, -⟩ | later)
            · exact .inl (.inr mem)
            · exact .inl (.inl same)
            · exact .inr later

end Loop

/-- The most recent turns, at least one if there is one, within the budget unless the newest
alone is above it; the next older one does not fit. -/
structure RecentTurns (tokens : String → Nat) (items : List (TranscriptItem V)) (budget : Nat)
    (turns : List (TranscriptItem V)) : Prop where
  suffix : turns <:+ items.filter isRealUserTurn
  newest : items.filter isRealUserTurn ≠ [] → turns ≠ []
  within : (turns.map fun turn => tokens turn.text).sum ≤ budget ∨
    ∃ newest, turns = [newest] ∧ budget < tokens newest.text
  full : ∀ older next, items.filter isRealUserTurn = older ++ next :: turns →
    budget ≤ (turns.map fun turn => tokens turn.text).sum ∨
      budget < tokens next.text + (turns.map fun turn => tokens turn.text).sum

/-- The loop takes turns from the newest on and leaves the others. -/
theorem selectUserTurnsLoop_taken (remaining : Nat) (selected : List (TranscriptItem V)) :
    ∃ taken left, items.filter isRealUserTurn = taken ++ left ∧
      selectUserTurnsLoop tokens items remaining selected = taken.reverse ++ selected ∧
      (selected = [] → taken = [] → left = []) ∧
      ((taken.map fun turn => tokens turn.text).sum ≤ remaining ∨
        selected = [] ∧ ∃ newest, taken = [newest] ∧ remaining < tokens newest.text) ∧
      ∀ next others, left = next :: others →
        remaining ≤ (taken.map fun turn => tokens turn.text).sum ∨
          remaining < tokens next.text + (taken.map fun turn => tokens turn.text).sum := by
  induction items generalizing remaining selected with
  | nil =>
    exact ⟨[], [], rfl, rfl, fun _ _ => rfl, .inl (Nat.zero_le _), fun _ _ none => nomatch none⟩
  | cons item older ih =>
    rw [selectUserTurnsLoop]
    split
    · rename_i real
      rw [filter_cons_of_pos real]
      split
      · rename_i tooLong
        rw [Bool.and_eq_true, decide_eq_true_eq, Bool.not_eq_true', isEmpty_eq_false_iff] at tooLong
        refine ⟨[], _, rfl, rfl, fun none => absurd none tooLong.2, .inl (Nat.zero_le _), ?_⟩
        intro next others isNext
        cases isNext
        exact .inr tooLong.1
      · rename_i fits
        have fits : tokens item.text ≤ remaining ∨ selected = [] := by
          rw [Bool.and_eq_true, decide_eq_true_eq, Bool.not_eq_true', isEmpty_eq_false_iff,
            not_and_or, not_not, Nat.not_lt] at fits
          exact fits
        dsimp only
        split
        · refine ⟨[item], _, rfl, rfl, (fun _ none => nomatch none), ?_, fun _ _ _ => .inl ?_⟩
          · rw [map_singleton, sum_singleton]
            rcases Nat.lt_or_ge remaining (tokens item.text) with above | within
            · exact .inr ⟨fits.resolve_left (Nat.not_le.mpr above), item, rfl, above⟩
            · exact .inl within
          · rw [map_singleton, sum_singleton]
            omega
        · obtain ⟨taken, left, split, result, -, within, full⟩ :=
            ih (remaining - tokens item.text) (item :: selected)
          refine ⟨item :: taken, left, by rw [split, cons_append], ?_, (fun _ none => nomatch none),
            ?_, ?_⟩
          · rw [result, reverse_cons, append_assoc, singleton_append]
          · have within := within.resolve_right (fun none => cons_ne_nil _ _ none.1)
            rw [map_cons, sum_cons]
            omega
          · intro next others isNext
            have := full next others isNext
            rw [map_cons, sum_cons]
            omega
    · rename_i other
      rw [filter_cons_of_neg other]
      exact ih remaining selected

theorem selectRecentUserTurns_recent (budget : Nat) :
    RecentTurns tokens items budget (selectRecentUserTurns tokens items budget) := by
  obtain ⟨taken, left, split, result, newest, within, full⟩ :=
    selectUserTurnsLoop_taken tokens items.reverse budget []
  rw [filter_reverse, ← reverse_inj, reverse_reverse, reverse_append] at split
  rw [append_nil] at result
  rw [selectRecentUserTurns, result]
  have sums : (taken.reverse.map fun turn => tokens turn.text).sum =
      (taken.map fun turn => tokens turn.text).sum := by
    rw [map_reverse, sum_reverse]
  constructor
  · exact ⟨left.reverse, split.symm⟩
  · intro some none
    rw [reverse_eq_nil_iff] at none
    apply some
    rw [split, none, newest rfl none]
    rfl
  · rw [sums]
    refine within.imp_right ?_
    rintro ⟨-, turn, rfl, above⟩
    exact ⟨turn, rfl, above⟩
  · intro older next isSplit
    rw [sums]
    apply full next older.reverse
    rw [split, append_cons, append_cancel_right_eq] at isSplit
    rw [← reverse_inj, isSplit, reverse_cons, reverse_reverse]

theorem mem_selectRecentUserTurns_iff {tokens : String → Nat} {budget : Nat}
    {items : List (TranscriptItem V)} {turn : TranscriptItem V} :
    turn ∈ selectRecentUserTurns tokens items budget ↔
      ∃ older newer, items = older ++ turn :: newer ∧
        UserTurnSalvaged tokens budget newer turn := by
  rw [selectRecentUserTurns, mem_selectUserTurnsLoop_iff _ _ (.inl rfl), exists_split_reverse]
  simp [UserTurnSalvaged, UserTurnFits, userTurnTokens_reverse]

theorem mem_selectRecentDelegationResults_iff {maxItems : Nat} {items : List (TranscriptItem V)}
    {result : TranscriptItem V} :
    result ∈ selectRecentDelegationResults items maxItems ↔
      ∃ older newer, items = older ++ result :: newer ∧
        DelegationResultSalvaged maxItems newer result := by
  rw [selectRecentDelegationResults, mem_reverse, ← filter_reverse]
  rw [mem_take_filter_iff, exists_split_reverse]
  simp [DelegationResultSalvaged]

section Engine

variable [DecidableEq V]

theorem mem_addDelegationResults_iff {replacement results : List (TranscriptItem V)}
    {item : TranscriptItem V} :
    item ∈ addDelegationResults replacement results ↔ item ∈ replacement ∨ item ∈ results := by
  induction results generalizing replacement with
  | nil => simp [addDelegationResults]
  | cons result results ih =>
    rw [addDelegationResults, foldl_cons, ← addDelegationResults, ih, mem_cons]
    split
    · rename_i present
      constructor
      · rintro (mem | mem)
        · exact .inl mem
        · exact .inr (.inr mem)
      · rintro (mem | rfl | mem)
        · exact .inl mem
        · exact .inl present
        · exact .inr mem
    · rw [mem_append, mem_singleton, or_assoc]

/-- The salvaged entries are those the two selections take. -/
theorem mem_salvaged_iff {env : CompactionEnv V} {request : CompactionRequest V}
    {item : TranscriptItem V} :
    item ∈ salvaged env request ↔
      ∃ older newer, compactedItems request.transcript.items = older ++ item :: newer ∧
        (UserTurnSalvaged env.approxTokenCount request.preserveRecentUserTokens newer item ∨
          DelegationResultSalvaged request.preserveRecentDelegationResults newer item) := by
  rw [salvaged, mem_addDelegationResults_iff, mem_selectRecentUserTurns_iff,
    mem_selectRecentDelegationResults_iff]
  simp only [and_or_left, exists_or]

/-! ## Nothing is copied twice -/

theorem count_selectUserTurnsLoop_le (tokens : String → Nat) (item : TranscriptItem V)
    (items selected : List (TranscriptItem V)) (remaining : Nat) :
    (selectUserTurnsLoop tokens items remaining selected).count item ≤
      items.count item + selected.count item := by
  induction items generalizing selected remaining with
  | nil => simp [selectUserTurnsLoop]
  | cons first items ih =>
    have taken := ih (first :: selected) (remaining - tokens first.text)
    have skipped := ih selected remaining
    rw [count_cons] at taken ⊢
    rw [selectUserTurnsLoop]
    split
    · split
      · omega
      · dsimp only
        split
        · rw [count_cons]
          omega
        · omega
    · omega

theorem count_addDelegationResults_le (replacement results : List (TranscriptItem V))
    (item : TranscriptItem V) :
    (addDelegationResults replacement results).count item ≤ max (replacement.count item) 1 := by
  induction results generalizing replacement with
  | nil => exact Nat.le_max_left _ _
  | cons result results ih =>
    rw [addDelegationResults, foldl_cons, ← addDelegationResults]
    split
    · exact ih replacement
    · rename_i absent
      refine Nat.le_trans (ih _) (Nat.max_le.mpr ⟨?_, Nat.le_max_right _ _⟩)
      rw [count_append, count_singleton]
      by_cases same : result = item
      · rw [← same, count_eq_zero_of_not_mem absent]
        simp
      · simp only [beq_iff_eq, same, if_false, Nat.add_zero]
        exact Nat.le_max_left _ _

/-- What is salvaged and what is only summarized are together the summarized
entries. -/
theorem salvaged_append_diff (env : CompactionEnv V) (request : CompactionRequest V) :
    (salvaged env request ++
      (compactedItems request.transcript.items).diff (salvaged env request)).Perm
      (compactedItems request.transcript.items) := by
  apply subperm_append_diff_self_of_count_le
  intro item mem
  have once : (salvaged env request).count item ≤ max _ 1 :=
    count_addDelegationResults_le _ _ item
  have turns := count_selectUserTurnsLoop_le env.approxTokenCount item
    (compactedItems request.transcript.items).reverse [] request.preserveRecentUserTokens
  rw [count_reverse, count_nil, Nat.add_zero] at turns
  obtain ⟨older, newer, split, -⟩ := mem_salvaged_iff.mp mem
  have present : 0 < (compactedItems request.transcript.items).count item := by
    rw [count_pos_iff, split]
    exact mem_append_right _ mem_cons_self
  exact Nat.le_trans once (Nat.max_le.mpr ⟨turns, present⟩)

end Engine

end Mentra.Compaction
