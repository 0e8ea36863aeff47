import Mathlib

/-!
# Wildcard patterns of permission rules

Model of `mentra/src/session/permission/pattern.rs`, one round of its loop at a time.  The
matcher remembers only the latest `*`, and a position that the pattern cannot account for
widens that star by one character.  The loop ends: a later star leaves a shorter pattern, a
widened star a shorter text, and between the two every round uses up a character.
-/

namespace Mentra.Permission

open Nat List Option

/-- Where the loop of `matches` stands. -/
structure Matcher where
  patternRest : List Char
  textRest : List Char
  /-- The pattern after the latest `*`, and the text that star has not swallowed. -/
  widestStar : Option (List Char × List Char)

namespace Matcher

/-- Let the latest star swallow one more character, or admit that none can. -/
def widen (matcher : Matcher) : Bool ⊕ Matcher :=
  match matcher.widestStar with
  | none => .inl false
  | some (_, []) => .inl false
  | some (starPattern, _ :: starText) =>
    .inr ⟨starPattern, starText, some (starPattern, starText)⟩

/-- One round of the loop: an answer, or where the next round starts. -/
def round (matcher : Matcher) : Bool ⊕ Matcher :=
  match matcher.patternRest, matcher.textRest with
  | [], [] => .inl true
  | [], _ :: _ => matcher.widen
  | expected :: patternNext, textRest =>
    if expected = '*' then .inr ⟨patternNext, textRest, some (patternNext, textRest)⟩
    else
      match textRest with
      | [] => matcher.widen
      | actual :: textNext =>
        if expected = '?' ∨ expected = actual then
          .inr ⟨patternNext, textNext, matcher.widestStar⟩
        else matcher.widen

/-- At most `rounds` rounds of the loop. -/
def matchRounds : Nat → Matcher → Option Bool
  | 0, _ => none
  | rounds + 1, matcher =>
    match matcher.round with
    | .inl answer => some answer
    | .inr next => matchRounds rounds next

end Matcher

/-- Rounds that suffice for a pattern and a text of the given lengths. -/
def roundLimit (patternLength textLength : Nat) : Nat :=
  (patternLength + 1) * ((patternLength + 2) * (textLength + 2))

def Pattern.matches (pattern text : String) : Bool :=
  let rounds := roundLimit pattern.toList.length text.toList.length
  ((Matcher.mk pattern.toList text.toList none).matchRounds rounds).getD false

/-! ## The loop ends -/

namespace Matcher

variable {patternLength textLength : Nat} {matcher next : Matcher}

/-- How long the pattern is that the matcher returns to when it widens. -/
def returnLength (patternLength : Nat) (matcher : Matcher) : Nat :=
  (matcher.widestStar.map fun star => star.1.length).getD patternLength

/-- How often the matcher can still widen its star. -/
def widenings (matcher : Matcher) : Nat :=
  (matcher.widestStar.map fun star => star.2.length).getD 0

/-- The rests are parts of a pattern and a text of the given lengths, and what is
left of the pattern comes after the latest star. -/
structure Bounded (patternLength textLength : Nat) (matcher : Matcher) : Prop where
  pattern : matcher.patternRest.length ≤ matcher.returnLength patternLength
  returned : matcher.returnLength patternLength ≤ patternLength
  text : matcher.textRest.length ≤ textLength
  star : matcher.widenings ≤ textLength

/-- What goes down from round to round. -/
def remaining (patternLength textLength : Nat) (matcher : Matcher) : Nat :=
  matcher.returnLength patternLength * ((patternLength + 2) * (textLength + 2)) +
    (matcher.widenings * (patternLength + 2) + matcher.patternRest.length)

/-- What a round that does not answer did. -/
inductive Moves (matcher : Matcher) : Matcher → Prop
  | star {patternNext : List Char} (pattern : matcher.patternRest = '*' :: patternNext) :
      Moves matcher ⟨patternNext, matcher.textRest, some (patternNext, matcher.textRest)⟩
  | character {expected actual : Char} {patternNext textNext : List Char}
      (pattern : matcher.patternRest = expected :: patternNext)
      (text : matcher.textRest = actual :: textNext)
      (accepted : expected = '?' ∨ expected = actual) :
      Moves matcher ⟨patternNext, textNext, matcher.widestStar⟩
  | widened {starPattern starText : List Char} {swallowed : Char}
      (star : matcher.widestStar = some (starPattern, swallowed :: starText)) :
      Moves matcher ⟨starPattern, starText, some (starPattern, starText)⟩

theorem moves_of_widen (widened : matcher.widen = .inr next) : matcher.Moves next := by
  rw [widen] at widened
  split at widened
  · cases widened
  · cases widened
  · rename_i star
    cases widened
    exact .widened star

theorem moves_of_round (round : matcher.round = .inr next) : matcher.Moves next := by
  rw [Matcher.round] at round
  split at round
  · cases round
  · exact moves_of_widen round
  · rename_i expected patternNext textRest pattern
    split at round
    · rename_i isStar
      cases round
      exact .star (isStar ▸ pattern)
    · split at round
      · exact moves_of_widen round
      · rename_i actual textNext text
        split at round
        · rename_i accepted
          cases round
          exact .character pattern text accepted
        · exact moves_of_widen round

theorem Moves.bounded (moves : matcher.Moves next)
    (bounded : matcher.Bounded patternLength textLength) :
    next.Bounded patternLength textLength := by
  obtain ⟨pattern, returned, text, star⟩ := bounded
  cases moves with
  | star isPattern =>
    rw [isPattern, length_cons] at pattern
    exact ⟨le_refl _, le_trans (le_of_succ_le pattern) returned, text, text⟩
  | character isPattern isText _ =>
    rw [isPattern, length_cons] at pattern
    rw [isText, length_cons] at text
    exact ⟨le_of_succ_le pattern, returned, le_of_succ_le text, star⟩
  | widened isStar =>
    simp only [returnLength, widenings, isStar, map_some, getD_some, length_cons] at returned star
    exact ⟨le_refl _, returned, le_of_succ_le star, le_of_succ_le star⟩

/-- A star met later outweighs all that its widening can take. -/
theorem weight_lt {patternRest widenings : Nat} (pattern : patternRest ≤ patternLength)
    (text : widenings ≤ textLength) :
    widenings * (patternLength + 2) + patternRest < (patternLength + 2) * (textLength + 2) := by
  calc widenings * (patternLength + 2) + patternRest
      < textLength * (patternLength + 2) + 2 * (patternLength + 2) := by
        have scaled := mul_le_mul_right (patternLength + 2) text
        omega
    _ = (patternLength + 2) * (textLength + 2) := by ring

theorem Moves.remaining_lt (moves : matcher.Moves next)
    (bounded : matcher.Bounded patternLength textLength) :
    next.remaining patternLength textLength < matcher.remaining patternLength textLength := by
  have nextBounded := moves.bounded bounded
  cases moves with
  | @star patternNext isPattern =>
    have shorter : patternNext.length + 1 ≤ matcher.returnLength patternLength := by
      have within := bounded.pattern
      rwa [isPattern, length_cons] at within
    have within : patternNext.length ≤ patternLength := nextBounded.returned
    have weight := weight_lt within bounded.text
    have scaled := mul_le_mul_right ((patternLength + 2) * (textLength + 2)) shorter
    rw [succ_mul] at scaled
    change patternNext.length * ((patternLength + 2) * (textLength + 2)) +
      (matcher.textRest.length * (patternLength + 2) + patternNext.length) < _
    exact Nat.lt_of_lt_of_le (Nat.add_lt_add_left weight _) (le_trans scaled (le_add_right _ _))
  | character isPattern _ _ =>
    simp only [remaining, isPattern, length_cons]
    exact Nat.add_lt_add_left (Nat.add_lt_add_left (Nat.lt_succ_self _) _) _
  | @widened starPattern starText _ isStar =>
    have returned : starPattern.length ≤ patternLength := nextBounded.returned
    simp only [remaining, returnLength, widenings, isStar, map_some, getD_some,
      length_cons, succ_mul]
    omega

theorem matchRounds_isSome {rounds : Nat} (bounded : matcher.Bounded patternLength textLength)
    (enough : matcher.remaining patternLength textLength < rounds) :
    (matcher.matchRounds rounds).isSome := by
  induction rounds generalizing matcher with
  | zero => exact absurd enough (not_lt_zero _)
  | succ rounds ih =>
    rw [matchRounds]
    split
    · rfl
    · rename_i next round
      have moves := moves_of_round round
      apply ih (moves.bounded bounded)
      exact lt_of_lt_of_le (moves.remaining_lt bounded) (le_of_lt_succ enough)

/-- The limit on rounds is never reached. -/
theorem start_isSome (pattern text : List Char) :
    ((Matcher.mk pattern text none).matchRounds
      (roundLimit pattern.length text.length)).isSome := by
  have bounded : (Matcher.mk pattern text none).Bounded pattern.length text.length :=
    ⟨le_refl _, le_refl _, le_refl _, zero_le _⟩
  apply matchRounds_isSome bounded
  have weight := weight_lt (le_refl pattern.length) (zero_le text.length)
  rw [roundLimit, succ_mul]
  exact Nat.add_lt_add_left weight _

end Matcher

/-! ## What a pattern stands for -/

/-- The texts of a pattern: a star stands for any run of characters, a question mark for one
character, any other character for itself. -/
def Denotes : List Char → List Char → Prop
  | [], text => text = []
  | expected :: pattern, text =>
    if expected = '*' then ∃ run rest, text = run ++ rest ∧ Denotes pattern rest
    else ∃ actual rest, text = actual :: rest ∧ (expected = '?' ∨ expected = actual) ∧
      Denotes pattern rest

variable {pattern text : List Char}

/-- A star stands for nothing, or takes one more character. -/
theorem denotes_star_iff :
    Denotes ('*' :: pattern) text ↔
      Denotes pattern text ∨ ∃ swallowed rest, text = swallowed :: rest ∧
        Denotes ('*' :: pattern) rest := by
  simp only [Denotes, if_true]
  constructor
  · rintro ⟨run, rest, rfl, denotes⟩
    cases run with
    | nil => exact .inl denotes
    | cons swallowed run => exact .inr ⟨swallowed, run ++ rest, rfl, run, rest, rfl, denotes⟩
  · rintro (denotes | ⟨swallowed, _, rfl, run, rest, rfl, denotes⟩)
    · exact ⟨[], text, rfl, denotes⟩
    · exact ⟨swallowed :: run, rest, rfl, denotes⟩

/-- Characters other than stars take as many characters of the text. -/
theorem Denotes.split {front : List Char} (plain : '*' ∉ front)
    (denotes : Denotes (front ++ pattern) text) :
    ∃ taken rest, text = taken ++ rest ∧ taken.length = front.length ∧ Denotes pattern rest := by
  induction front generalizing text with
  | nil => exact ⟨[], text, rfl, rfl, denotes⟩
  | cons expected front ih =>
    rw [mem_cons, not_or] at plain
    rw [cons_append, Denotes, if_neg (Ne.symm plain.1)] at denotes
    obtain ⟨actual, _, rfl, -, later⟩ := denotes
    obtain ⟨taken, rest, rfl, sameLength, remains⟩ := ih plain.2 later
    exact ⟨actual :: taken, rest, rfl, congrArg (· + 1) sameLength, remains⟩

namespace Matcher

variable {matcher next : Matcher}

/-- Between the latest star and where the matcher stands are no stars, and as many characters
of the text as of the pattern. -/
def Anchored (matcher : Matcher) : Prop :=
  ∀ starPattern starText, matcher.widestStar = some (starPattern, starText) →
    ∃ front taken, starPattern = front ++ matcher.patternRest ∧
      starText = taken ++ matcher.textRest ∧ front.length = taken.length ∧ '*' ∉ front

/-- The rest of the pattern stands for the rest of the text, or it does after the latest star
took at least one more character. -/
def Accepts (matcher : Matcher) : Prop :=
  Denotes matcher.patternRest matcher.textRest ∨
    ∃ starPattern swallowed starText,
      matcher.widestStar = some (starPattern, swallowed :: starText) ∧
      Denotes ('*' :: starPattern) starText

/-- An answer is right, or the next round has the same one to find. -/
def Progresses (matcher : Matcher) : Bool ⊕ Matcher → Prop
  | .inl answer => answer = true ↔ matcher.Accepts
  | .inr next => next.Anchored ∧ (next.Accepts ↔ matcher.Accepts)

theorem accepts_atStar :
    Accepts ⟨pattern, text, some (pattern, text)⟩ ↔ Denotes ('*' :: pattern) text := by
  rw [denotes_star_iff]
  simp [Accepts]

theorem anchored_atStar : Anchored ⟨pattern, text, some (pattern, text)⟩ := by
  rintro _ _ ⟨⟩
  exact ⟨[], [], rfl, rfl, rfl, not_mem_nil⟩

theorem progresses_widen (fails : ¬ Denotes matcher.patternRest matcher.textRest) :
    matcher.Progresses matcher.widen := by
  have accepts : matcher.Accepts ↔ ∃ starPattern swallowed starText,
      matcher.widestStar = some (starPattern, swallowed :: starText) ∧
        Denotes ('*' :: starPattern) starText := or_iff_right fails
  rw [widen]
  split
  · rename_i noStar
    simp [Progresses, accepts, noStar]
  · rename_i star
    simp [Progresses, accepts, star]
  · rename_i starPattern swallowed starText star
    refine ⟨anchored_atStar, ?_⟩
    rw [accepts_atStar, accepts, star]
    simp

/-- A star that is met makes the one before it needless: what that could still take, the new
one can. -/
theorem accepts_of_star (anchored : matcher.Anchored)
    (isStar : matcher.patternRest = '*' :: pattern) :
    matcher.Accepts ↔ Denotes ('*' :: pattern) matcher.textRest := by
  rw [Accepts, isStar, or_iff_left_iff_imp]
  rintro ⟨starPattern, swallowed, starText, star, denotes⟩
  obtain ⟨front, taken, rfl, isText, sameLength, plain⟩ := anchored _ _ star
  rw [Denotes, if_pos rfl] at denotes
  obtain ⟨run, _, rfl, further⟩ := denotes
  rw [isStar] at further
  obtain ⟨retaken, rest, rfl, retakenLength, denotes⟩ := further.split plain
  rw [Denotes, if_pos rfl] at denotes ⊢
  obtain ⟨skipped, last, rfl, denotes⟩ := denotes
  -- Both are ends of the text behind the earlier star, and this one is the shorter.
  have behind : last <:+ matcher.textRest := by
    refine suffix_of_suffix_length_le ?_ (suffix_append taken _) ?_
    · rw [← isText]
      exact ⟨swallowed :: (run ++ (retaken ++ skipped)), by simp⟩
    · have lengths := congrArg length isText
      simp only [length_cons, length_append] at lengths
      omega
  obtain ⟨before, split⟩ := behind
  exact ⟨before, last, split.symm, denotes⟩

theorem progresses_round (anchored : matcher.Anchored) : matcher.Progresses matcher.round := by
  obtain ⟨patternRest, textRest, widestStar⟩ := matcher
  cases patternRest with
  | nil =>
    cases textRest with
    | nil => exact iff_of_true rfl (.inl rfl)
    | cons actual textNext => exact progresses_widen nofun
  | cons expected patternNext =>
    rw [round]
    dsimp only
    split
    · rename_i isStar
      subst isStar
      exact ⟨anchored_atStar, accepts_atStar.trans (accepts_of_star anchored rfl).symm⟩
    · rename_i noStar
      cases textRest with
      | nil =>
        apply progresses_widen
        rw [Denotes, if_neg noStar]
        exact nofun
      | cons actual textNext =>
        dsimp only
        split
        · rename_i accepted
          constructor
          · intro starPattern starText star
            obtain ⟨front, taken, rfl, rfl, sameLength, plain⟩ := anchored _ _ star
            refine ⟨front ++ [expected], taken ++ [actual], by simp, by simp, by simp [sameLength],
              ?_⟩
            simp [plain, Ne.symm noStar]
          · simp [Accepts, Denotes, noStar, accepted]
        · rename_i refused
          apply progresses_widen
          rw [Denotes, if_neg noStar]
          rintro ⟨_, _, ⟨⟩, accepted, -⟩
          exact refused accepted

theorem matchRounds_eq_some {rounds : Nat} {answer : Bool} (anchored : matcher.Anchored)
    (answered : matcher.matchRounds rounds = some answer) :
    answer = true ↔ matcher.Accepts := by
  induction rounds generalizing matcher with
  | zero => cases answered
  | succ rounds ih =>
    have progresses := progresses_round anchored
    rw [matchRounds] at answered
    split at answered
    · rename_i round
      rw [round] at progresses
      cases answered
      exact progresses
    · rename_i next round
      rw [round] at progresses
      exact (ih progresses.1 answered).trans progresses.2

end Matcher

/-- The matcher answers within its limit, and says whether the text is one the pattern stands
for. -/
theorem matches_iff_denotes (pattern text : String) :
    (Matcher.mk pattern.toList text.toList none).matchRounds
        (roundLimit pattern.toList.length text.toList.length) =
          some (Pattern.matches pattern text) ∧
      (Pattern.matches pattern text = true ↔ Denotes pattern.toList text.toList) := by
  obtain ⟨answer, answered⟩ :=
    isSome_iff_exists.mp (Matcher.start_isSome pattern.toList text.toList)
  have isAnswer : Pattern.matches pattern text = answer := by
    rw [Pattern.matches, answered, getD_some]
  have anchored : (Matcher.mk pattern.toList text.toList none).Anchored := by
    rintro _ _ ⟨⟩
  rw [isAnswer, Matcher.matchRounds_eq_some anchored answered]
  exact ⟨answered, or_iff_left (by simp)⟩

end Mentra.Permission
