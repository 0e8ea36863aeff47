import Mathlib

/-!
# Stateful programs that may fail

A program runs on a state and ends in a value or an error, and a state either way.
`Ensures program post fail start` says what a run from `start` ends in: a value and a state
with `post`, or an error and a state with `fail`.  One rule for each way to build a program
is all that later proofs use.
-/

namespace Mentra.Foundation

/-- A program over states `σ` that ends in a value or in an error `ε`. -/
abbrev Program (ε σ : Type) :=
  ExceptT ε (StateM σ)

namespace Program

variable {ε σ α β : Type}

/-- The value or error a program ends in, and its final state. -/
def exec (program : Program ε σ α) (start : σ) : Except ε α × σ :=
  program.run.run start

/-- What a run of the program from `start` ends in. -/
def Ensures (program : Program ε σ α) (post : α → σ → Prop) (fail : ε → σ → Prop)
    (start : σ) : Prop :=
  match program.exec start with
  | (.ok value, final) => post value final
  | (.error error, final) => fail error final

/-- Hand over the result of a fallible computation. -/
def lift (result : Except ε α) : Program ε σ α :=
  match result with
  | .ok value => pure value
  | .error error => throw error

/-- Run a program and hand over how it ended instead of failing with it. -/
def attempt (program : Program ε σ α) : Program ε σ (Except ε α) :=
  ExceptT.mk do return .ok (← program.run)

/-- Run a program on a part of the state. -/
def zoom {τ : Type} (read : σ → τ) (write : σ → τ → σ) (program : Program ε τ α) : Program ε σ α :=
  ExceptT.mk fun state =>
    ((program.exec (read state)).1, write state (program.exec (read state)).2)

/-- The run from `start` ends in a value. -/
def Succeeds (program : Program ε σ α) (start : σ) : Prop :=
  ∃ value, (program.exec start).1 = .ok value

/-- If the first program ends in a value, the second succeeds after it. -/
def Followed (first : Program ε σ α) (second : α → Program ε σ β) (start : σ) : Prop :=
  ∀ value middle, first.exec start = (.ok value, middle) → Succeeds (second value) middle

variable {program : Program ε σ α} {start : σ} {post post' : α → σ → Prop}
  {fail fail' : ε → σ → Prop}

theorem ensures_of_exec (ensures : Ensures program post fail start) :
    (∀ value final, program.exec start = (.ok value, final) → post value final) ∧
      ∀ error final, program.exec start = (.error error, final) → fail error final := by
  constructor
  · intro value final ended
    rw [Ensures, ended] at ensures
    exact ensures
  · intro error final ended
    rw [Ensures, ended] at ensures
    exact ensures

theorem ensures_exec :
    Ensures program (fun value final => program.exec start = (.ok value, final))
      (fun error final => program.exec start = (.error error, final)) start := by
  rw [Ensures]
  split
  · assumption
  · assumption

theorem Ensures.value {value : α}
    (ensures : Ensures program (fun result _ => result = value) (fun _ _ => False) start) :
    (program.exec start).1 = .ok value := by
  rw [Ensures] at ensures
  split at ensures
  · rename_i ended
    rw [ended, ensures]
  · cases ensures

/-- Every run ends somewhere, so a property of both endings holds of the final
state. -/
theorem Ensures.final {Holds : σ → Prop}
    (ensures : Ensures program (fun _ => Holds) (fun _ => Holds) start) :
    Holds (program.exec start).2 := by
  rw [Ensures] at ensures
  split at ensures
  · rename_i ended
    rw [ended]
    exact ensures
  · rename_i ended
    rw [ended]
    exact ensures

theorem Ensures.weaken (ensures : Ensures program post fail start)
    (ok : ∀ value final, post value final → post' value final)
    (error : ∀ error final, fail error final → fail' error final) :
    Ensures program post' fail' start := by
  rw [Ensures] at ensures ⊢
  split
  · rename_i value final ended
    rw [ended] at ensures
    exact ok value final ensures
  · rename_i fault final ended
    rw [ended] at ensures
    exact error fault final ensures

/-- Two specifications of one program hold together. -/
theorem Ensures.both (first : Ensures program post fail start)
    (second : Ensures program post' fail' start) :
    Ensures program (fun value final => post value final ∧ post' value final)
      (fun error final => fail error final ∧ fail' error final) start := by
  rw [Ensures] at *
  split
  · rename_i ended
    rw [ended] at first second
    exact ⟨first, second⟩
  · rename_i ended
    rw [ended] at first second
    exact ⟨first, second⟩

@[simp]
theorem ensures_pure {value : α} : Ensures (pure value) post fail start ↔ post value start :=
  Iff.rfl

@[simp]
theorem ensures_throw {error : ε} : Ensures (throw error) post fail start ↔ fail error start :=
  Iff.rfl

@[simp]
theorem ensures_get {post : σ → σ → Prop} : Ensures get post fail start ↔ post start start :=
  Iff.rfl

@[simp]
theorem ensures_modify {change : σ → σ} {post : PUnit → σ → Prop} :
    Ensures (modify change) post fail start ↔ post ⟨⟩ (change start) :=
  Iff.rfl

@[simp]
theorem ensures_modifyGet {change : σ → α × σ} :
    Ensures (modifyGet change) post fail start ↔ post (change start).1 (change start).2 :=
  Iff.rfl

@[simp]
theorem ensures_lift {result : Except ε α} :
    Ensures (lift result) post fail start ↔
      (∀ value, result = .ok value → post value start) ∧
        ∀ error, result = .error error → fail error start := by
  cases result with
  | ok value | error error => simp [lift]

theorem exec_bind (first : Program ε σ α) (rest : α → Program ε σ β) (start : σ) :
    (first >>= rest).exec start =
      match first.exec start with
      | (.ok value, final) => (rest value).exec final
      | (.error error, final) => (.error error, final) := by
  change (match first.run.run start with
    | (result, final) => (ExceptT.bindCont rest result).run final) = _
  rw [exec]
  cases first.run.run start with
  | mk result final =>
    cases result with
    | ok value | error error => rfl

variable {rest : α → Program ε σ β}

theorem ensures_bind {post : β → σ → Prop} :
    Ensures (program >>= rest) post fail start ↔
      Ensures program (fun value => Ensures (rest value) post fail) fail start := by
  rw [Ensures, Ensures, exec_bind]
  cases program.exec start with
  | mk result final =>
    cases result with
    | ok value | error error => rfl

theorem exec_attempt (program : Program ε σ α) (start : σ) :
    (attempt program).exec start = (.ok (program.exec start).1, (program.exec start).2) :=
  rfl

theorem ensures_attempt {post : Except ε α → σ → Prop} :
    Ensures (attempt program) post fail start ↔
      Ensures program (fun value => post (.ok value)) (fun error => post (.error error)) start := by
  rw [Ensures, Ensures, exec_attempt]
  cases program.exec start with
  | mk result final =>
    cases result with
    | ok value | error error => rfl

@[simp]
theorem ensures_zoom {τ : Type} {read : σ → τ} {write : σ → τ → σ} {program : Program ε τ α} :
    Ensures (zoom read write program) post fail start ↔
      Ensures program (fun value part => post value (write start part))
        (fun error part => fail error (write start part)) (read start) := by
  have ended : (zoom read write program).exec start =
      ((program.exec (read start)).1, write start (program.exec (read start)).2) := rfl
  rw [Ensures, Ensures, ended]
  cases program.exec (read start) with
  | mk result final =>
    cases result with
    | ok value | error error => rfl

/-- The composition rule: specify the first program, then go on from any state
it ends in. -/
theorem Ensures.bind {post : β → σ → Prop} (spec : Ensures program post' fail' start)
    (ok : ∀ value middle, post' value middle → Ensures (rest value) post fail middle)
    (error : ∀ error final, fail' error final → fail error final) :
    Ensures (program >>= rest) post fail start :=
  ensures_bind.mpr (spec.weaken ok error)

/-- However the run from `start` ends, it reaches a state with `Inv`. -/
def Reaches (Inv : σ → Prop) (program : Program ε σ α) (start : σ) : Prop :=
  Ensures program (fun _ => Inv) (fun _ => Inv) start

theorem Reaches.bind {Inv : σ → Prop} (reaches : Reaches Inv program start)
    (goesOn : ∀ value middle, Inv middle → Reaches Inv (rest value) middle) :
    Reaches Inv (program >>= rest) start :=
  Ensures.bind reaches goesOn fun _ _ holds => holds

theorem reaches_modify_bind {Inv : σ → Prop} {change : σ → σ} {rest : PUnit → Program ε σ α} :
    Reaches Inv (modify change >>= rest) start ↔ Reaches Inv (rest ⟨⟩) (change start) :=
  Iff.rfl

/-- A composition that fails does so in the first program, or after it. -/
theorem exec_bind_eq_error_iff {final : σ} {error : ε} :
    (program >>= rest).exec start = (.error error, final) ↔
      program.exec start = (.error error, final) ∨
        ∃ value middle, program.exec start = (.ok value, middle) ∧
          (rest value).exec middle = (.error error, final) := by
  rw [exec_bind]
  cases program.exec start with
  | mk result middle =>
    cases result with
    | ok value | error fault => simp

theorem not_succeeds_iff :
    ¬ Succeeds program start ↔ ∃ error final, program.exec start = (.error error, final) := by
  rw [Succeeds]
  cases program.exec start with
  | mk result final =>
    cases result with
    | ok value | error error => simp

theorem isOk_iff_succeeds : (program.exec start).1.isOk = true ↔ Succeeds program start := by
  rw [Succeeds]
  cases (program.exec start).1 with
  | ok value | error error => simp [Except.isOk, Except.toBool]

instance (program : Program ε σ α) (start : σ) : Decidable (Succeeds program start) :=
  decidable_of_iff _ isOk_iff_succeeds

theorem Followed.succeeds (followed : Followed program rest start)
    (succeeds : Succeeds program start) :
    Succeeds (program >>= rest) start := by
  obtain ⟨value, ended⟩ := succeeds
  rw [Succeeds, exec_bind, show program.exec start = (.ok value, _) from Prod.ext ended rfl]
  exact followed value _ (Prod.ext ended rfl)

theorem Succeeds.first (succeeds : Succeeds (program >>= rest) start) : Succeeds program start := by
  by_contra fails
  obtain ⟨error, final, failed⟩ := not_succeeds_iff.mp fails
  exact not_succeeds_iff.mpr ⟨error, final, exec_bind_eq_error_iff.mpr (.inl failed)⟩ succeeds

theorem Succeeds.followed (succeeds : Succeeds (program >>= rest) start) :
    Followed program rest start := by
  intro value middle ended
  rw [Succeeds, exec_bind, ended] at succeeds
  exact succeeds

/-! ## Programs that move the state along a relation -/

/-- Every run of the program, failed or not, moves the state along `R`. -/
def Along (R : σ → σ → Prop) (program : Program ε σ α) : Prop :=
  ∀ start, Ensures program (fun _ => R start) (fun _ => R start) start

/-- The run from `start` moves the state along `R`, failed or not, and a value it
ends in has `post`. -/
def Moves (R : σ → σ → Prop) (program : Program ε σ α) (post : α → σ → Prop) (start : σ) : Prop :=
  Ensures program (fun value final => R start final ∧ post value final) (fun _ => R start) start

section Along

variable {R : σ → σ → Prop}

theorem Along.pure (refl : ∀ state, R state state) (value : α) :
    Along R (pure value : Program ε σ α) :=
  fun start => refl start

theorem Along.throw (refl : ∀ state, R state state) (error : ε) :
    Along R (throw error : Program ε σ α) :=
  fun start => refl start

theorem Along.lift (refl : ∀ state, R state state) (result : Except ε α) :
    Along R (Program.lift result : Program ε σ α) := by
  intro start
  rw [ensures_lift]
  exact ⟨fun _ _ => refl start, fun _ _ => refl start⟩

theorem Along.bind (trans : ∀ first second third, R first second → R second third →
    R first third) (moves : Along R program)
    (goesOn : ∀ value, Along R (rest value)) : Along R (program >>= rest) := by
  intro start
  apply Reaches.bind (moves start)
  intro value middle moved
  apply (goesOn value middle).weaken
  · exact fun _ final further => trans start middle final moved further
  · exact fun _ final further => trans start middle final moved further

theorem Moves.bind [IsTrans σ R] {between : α → σ → Prop} {post : β → σ → Prop}
    (moves : Moves R program between start)
    (goesOn : ∀ value middle, R start middle → between value middle →
      Moves R (rest value) post middle) : Moves R (program >>= rest) post start := by
  apply Ensures.bind moves
  · rintro value middle ⟨moved, holds⟩
    apply (goesOn value middle moved holds).weaken
    · exact fun _ final both => ⟨IsTrans.trans _ _ _ moved both.1, both.2⟩
    · exact fun _ final further => IsTrans.trans _ _ _ moved further
  · exact fun _ _ moved => moved

theorem Moves.mono (moves : Moves R program post start)
    (weaker : ∀ value final, R start final → post value final → post' value final) :
    Moves R program post' start :=
  Ensures.weaken moves (fun value final both => ⟨both.1, weaker value final both.1 both.2⟩)
    fun _ _ moved => moved

theorem Moves.along {S : σ → σ → Prop} (moves : Moves R program post start)
    (weaker : ∀ start final, R start final → S start final) : Moves S program post start :=
  Ensures.weaken moves (fun _ final both => ⟨weaker start final both.1, both.2⟩)
    fun _ final => weaker start final

theorem Along.moves (along : Along R program) : Moves R program (fun _ _ => True) start :=
  (along start).weaken (fun _ _ moved => ⟨moved, trivial⟩) fun _ _ moved => moved

/-- A property that moves along `R` is kept by a program that does. -/
theorem Along.holds (moves : Along R program) {Holds : σ → Prop}
    (kept : ∀ start final, R start final → Holds start → Holds final) {start : σ}
    (initial : Holds start) : Reaches Holds program start := by
  apply (moves start).weaken
  · exact fun _ final moved => kept start final moved initial
  · exact fun _ final moved => kept start final moved initial

theorem Along.mono {S : σ → σ → Prop} (moves : Along R program)
    (weaker : ∀ start final, R start final → S start final) : Along S program :=
  fun start => (moves start).weaken (fun _ final => weaker start final)
    (fun _ final => weaker start final)

theorem Along.attempt (moves : Along R program) : Along R (Program.attempt program) :=
  fun start => ensures_attempt.mpr (moves start)

end Along

/-! ## Programs that keep a property unless they fail -/

/-- From a state with `Good` the program ends in one with `Good`, or fails in one
with `Bad`. -/
def Keeps (Good Bad : σ → Prop) (program : Program ε σ α) : Prop :=
  ∀ start, Good start → Ensures program (fun _ => Good) (fun _ => Bad) start

section Keeps

variable {Good Bad : σ → Prop}

theorem Keeps.pure (value : α) : Keeps Good Bad (pure value : Program ε σ α) :=
  fun _ good => good

theorem Keeps.bind (keeps : Keeps Good Bad program)
    (goesOn : ∀ value, Keeps Good Bad (rest value)) :
    Keeps Good Bad (program >>= rest) := by
  intro start good
  apply (keeps start good).bind
  · exact fun value middle good => goesOn value middle good
  · exact fun _ _ bad => bad

theorem Along.keeps {R : σ → σ → Prop} (moves : Along R program)
    (kept : ∀ start final, R start final → Good start → Good final)
    (weaker : ∀ state, Good state → Bad state) : Keeps Good Bad program :=
  fun _ good => (moves.holds kept good).weaken (fun _ _ good => good)
    (fun _ final good => weaker final good)

end Keeps

end Program

end Mentra.Foundation
