import Mentra.Memory.Projection

/-!
# Histories whose calls are answered

A provider accepts a history only if each tool call in it has its result before the assistant
speaks again.  Messages without results, a turn together with its results, dropping a front
part and reducing the content of results keep that.
-/

namespace Mentra

open Foundation List

variable {V : Type}

namespace Message

/-- The results given before the next assistant message. -/
def turnResults : List (Message V) → List String
  | [] => []
  | message :: rest =>
    if message.role = .assistant then [] else message.toolResultIds ++ turnResults rest

/-- Each tool-use block of each assistant message is answered by exactly one
tool-result block with its id before the next assistant message. -/
def Answered : List (Message V) → Prop
  | [] => True
  | message :: rest =>
    (message.role = .assistant → ∀ id ∈ message.toolUseIds, (turnResults rest).count id = 1) ∧
      Answered rest

instance decidableAnswered : (history : List (Message V)) → Decidable (Answered history)
  | [] => .isTrue trivial
  | _ :: rest =>
    have := decidableAnswered rest
    inferInstanceAs (Decidable (_ ∧ _))

/-- A message that neither speaks for the assistant nor holds results. -/
structure IsPlain (message : Message V) : Prop where
  role : message.role ≠ .assistant
  results : message.toolResultIds = []

theorem isPlain_user_text (text : String) : IsPlain (user (.text text) : Message V) :=
  ⟨nofun, rfl⟩

variable {front rest : List (Message V)}

theorem Answered.suffix (answered : Answered (front ++ rest)) : Answered rest := by
  induction front with
  | nil => exact answered
  | cons message front ih => exact ih answered.2

theorem Answered.of_no_assistant
    (silent : ∀ message ∈ front, message.role ≠ .assistant) (answered : Answered rest) :
    Answered (front ++ rest) := by
  induction front with
  | nil => exact answered
  | cons message front ih =>
    refine ⟨fun speaks => absurd speaks (silent message mem_cons_self), ih ?_⟩
    exact fun other mem => silent other (mem_cons_of_mem message mem)

variable {message : Message V}

theorem turnResults_insert (plain : IsPlain message) (front rest : List (Message V)) :
    turnResults (front ++ message :: rest) = turnResults (front ++ rest) := by
  induction front with
  | nil => rw [nil_append, nil_append, turnResults, if_neg plain.role, plain.results, nil_append]
  | cons first front ih =>
    rw [cons_append, cons_append, turnResults, turnResults, ih]

/-- Plain messages may be put in anywhere. -/
theorem Answered.insert (plain : IsPlain message) (answered : Answered (front ++ rest)) :
    Answered (front ++ message :: rest) := by
  induction front with
  | nil => exact ⟨fun speaks => absurd speaks plain.role, answered⟩
  | cons first front ih =>
    refine ⟨fun speaks id mem => ?_, ih answered.2⟩
    rw [append_eq, turnResults_insert plain]
    exact answered.1 speaks id mem

theorem turnResults_append_assistant (speaks : message.role = .assistant)
    (front rest : List (Message V)) :
    turnResults (front ++ message :: rest) = turnResults front := by
  induction front with
  | nil => simp only [nil_append, turnResults, if_pos speaks]
  | cons first front ih => rw [cons_append, turnResults, turnResults, ih]

/-- A turn may follow when what follows it answers its calls. -/
theorem Answered.append_turn (speaks : message.role = .assistant) (answered : Answered front)
    (follows : Answered (message :: rest)) : Answered (front ++ message :: rest) := by
  induction front with
  | nil => exact follows
  | cons first front ih =>
    refine ⟨fun talks id mem => ?_, ih answered.2⟩
    rw [append_eq, turnResults_append_assistant speaks]
    exact answered.1 talks id mem

theorem answered_of_no_calls (noCalls : message.toolUseIds = []) : Answered [message] := by
  refine ⟨fun _ id mem => ?_, trivial⟩
  rw [noCalls] at mem
  cases mem

/-- A turn with distinct calls is answered by one message with their results. -/
theorem answered_reply {reply : Message V} (distinct : message.toolUseIds.Nodup)
    (role : reply.role ≠ .assistant) (results : reply.toolResultIds = message.toolUseIds) :
    Answered [message, reply] := by
  refine ⟨fun _ id mem => ?_, fun speaks => absurd speaks role, trivial⟩
  rw [turnResults, if_neg role, turnResults, append_nil, results]
  exact count_eq_one_of_mem distinct mem

/-! ## Reduced results -/

theorem turnResults_eq_of_shape {history projected : List (Message V)}
    (shape : Memory.SameShape history projected) :
    turnResults history = turnResults projected := by
  induction shape with
  | nil => rfl
  | cons same _ ih => rw [turnResults, turnResults, same.role, same.toolResultIds_eq, ih]

/-- Calls and results are the same in histories of one shape. -/
theorem Answered.of_shape {history projected : List (Message V)}
    (shape : Memory.SameShape history projected) (answered : Answered history) :
    Answered projected := by
  induction shape with
  | nil => trivial
  | cons same rest ih =>
    refine ⟨fun speaks id mem => ?_, ih answered.2⟩
    rw [← turnResults_eq_of_shape rest]
    rw [← same.toolUseIds_eq] at mem
    exact answered.1 (same.role.trans speaks) id mem

end Message

end Mentra
