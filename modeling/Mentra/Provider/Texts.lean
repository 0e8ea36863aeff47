import Mentra.Provider.Positions

/-!
# Texts of a Gemini response

`merge_chunk` takes a text that starts with everything received so far as a repetition
of it.  When the texts at a position are increments, what the decoder sends is their
concatenation exactly when no text starts with all texts before it.
-/

namespace Mentra.Gemini

open Foundation List
open Foundation.Emission

/-- What has been received at a position after some texts. -/
def received (texts : List String) : String :=
  texts.foldl (fun previous text => (mergeChunk previous text).2) ""

/-- A text starts with everything before it. -/
def Repeats (texts : List String) : Prop :=
  ∃ before text, before ++ [text] <+: texts ∧ before ≠ [] ∧
    ∃ rest, text = String.join before ++ rest

theorem mergeChunk_spec (previous : String) {current : String} (nonempty : current ≠ "") :
    (mergeChunk previous current).2 = previous ++ (mergeChunk previous current).1.getD "" ∧
      ((previous ≠ "" ∧ (∃ rest, current = previous ++ rest) ∧
          (mergeChunk previous current).2 = current) ∨
        ((previous = "" ∨ ∀ rest, current ≠ previous ++ rest) ∧
          (mergeChunk previous current).2 = previous ++ current)) := by
  simp only [mergeChunk, String.isEmpty_iff, nonempty, if_false]
  by_cases first : previous = ""
  · simp [first]
  rw [if_neg first]
  by_cases same : current = previous
  · exact ⟨by simp [same], .inl ⟨first, ⟨"", by simp [same]⟩, by simp [same]⟩⟩
  rw [if_neg same]
  cases stripped : Text.stripPrefix? previous current with
  | some delta =>
    obtain rfl := Text.stripPrefix?_eq_some_iff.mp stripped
    refine ⟨?_, .inl ⟨first, ⟨delta, rfl⟩, rfl⟩⟩
    by_cases empty : delta = "" <;> simp [empty]
  | none =>
    refine ⟨rfl, .inr ⟨.inr fun rest split => ?_, rfl⟩⟩
    rw [Text.stripPrefix?_eq_some_iff.mpr split] at stripped
    cases stripped

theorem repeats_concat {texts : List String} {text : String} :
    Repeats (texts ++ [text]) ↔
      Repeats texts ∨ (texts ≠ [] ∧ ∃ rest, text = String.join texts ++ rest) := by
  constructor
  · rintro ⟨before, again, front, some, starts⟩
    rcases prefix_concat_iff.mp front with whole | earlier
    · obtain ⟨rfl, last⟩ := append_inj' whole rfl
      obtain rfl := singleton_inj.mp last
      exact .inr ⟨some, starts⟩
    · exact .inl ⟨before, again, earlier, some, starts⟩
  · rintro (⟨before, again, front, some, starts⟩ | ⟨some, starts⟩)
    · exact ⟨before, again, front.trans (prefix_append _ _), some, starts⟩
    · exact ⟨texts, text, prefix_rfl, some, starts⟩

/-- What has been received is never longer than the texts, and is all of them exactly
when none repeats. -/
theorem received_spec {texts : List String} (nonempty : ∀ text ∈ texts, text ≠ "") :
    (received texts).length ≤ (String.join texts).length ∧
      (received texts = String.join texts ↔ ¬Repeats texts) ∧
        (texts ≠ [] → received texts ≠ "") := by
  induction texts using List.reverseRecOn with
  | nil => exact ⟨Nat.le_refl 0, iff_of_true rfl (by simp [Repeats]), fun some => absurd rfl some⟩
  | append_singleton texts text ih =>
    obtain ⟨shorter, all, some⟩ := ih fun text mem => nonempty text (mem_append_left _ mem)
    have here := nonempty text (by simp)
    rw [repeats_concat, String.join_append, String.join_cons, String.join_nil, String.append_empty,
      received, foldl_concat, ← received, String.length_append]
    obtain ⟨-, ⟨some', ⟨rest, starts⟩, merged⟩ | ⟨fresh, merged⟩⟩ :=
      mergeChunk_spec (received texts) here
    · rw [merged]
      refine ⟨by omega, iff_of_false (fun same => ?_) (not_not.mpr ?_), fun _ => here⟩
      · have := congrArg String.length same
        rw [String.length_append] at this
        refine some' (String.length_eq_zero_iff.mp (by omega))
      · by_cases whole : received texts = String.join texts
        · refine .inr ⟨?_, rest, whole ▸ starts⟩
          rintro rfl
          exact some' rfl
        · exact .inl (not_not.mp (mt all.mpr whole))
    · rw [merged, String.length_append]
      refine ⟨by omega, ?_, fun _ => ?_⟩
      · rw [String.append_left_inj, all, not_or, iff_self_and]
        rintro whole ⟨notFirst, rest, starts⟩
        rw [← all.mpr whole] at starts
        rcases fresh with first | fresh
        · exact some notFirst first
        · exact fresh rest starts
      · simp [here]

section Decoder

variable {V : Type} {index : Nat}

/-- The texts that are sent about a position. -/
def sentTexts (index : Nat) (events : List (ProviderEvent V)) : List String :=
  (blockEvents index events).filterMap fun
    | .delta (.text text) => some text
    | _ => none

/-- A chunk has a text at a position. -/
def Brings (index : Nat) (chunk : StreamChunk V) (text : String) : Prop :=
  chunk.error = none ∧ chunk.parts[index]?.bind Part.text = some text

variable [SerdeJson V] {state : StreamState}

theorem advance_text {chunk : StreamChunk V} {text : String} (brings : Brings index chunk text) :
    sentTexts index (state.advance chunk).1 = (mergeChunk (state.slot index).text text).1.toList ∧
      (chunk.closes = false → ((state.advance chunk).2.slot index).text =
        (mergeChunk (state.slot index).text text).2) := by
  obtain ⟨part, here, isText⟩ := Option.bind_eq_some_iff.mp brings.2
  obtain ⟨toolId, follows⟩ := advance_follows brings.1 state index
  have signals : chunk.signalsAt index = .text text :: if chunk.closes then [.close] else [] := by
    simp [StreamChunk.signalsAt, here, Part.signal?, isText]
  rw [Follows, signals] at follows
  simp only [emit, Slot.take, Prod.mk.injEq] at follows
  rw [sentTexts, ← follows.1, ← follows.2]
  cases (mergeChunk (state.slot index).text text).1 <;> cases (state.slot index).opened <;>
    cases chunk.closes <;> simp [emit, Slot.take]

/-- What was received before a run and what is sent in it are what is received after it. -/
theorem received_run {chunks : List (StreamChunk V)} {texts : List String}
    (brings : List.Forall₂ (Brings index) chunks texts) (nonempty : ∀ text ∈ texts, text ≠ "")
    (stays : ∀ chunk ∈ chunks.dropLast, chunk.closes = false) :
    (state.slot index).text ++
        String.join (sentTexts index (emit StreamState.advance state chunks).1) =
      texts.foldl (fun previous text => (mergeChunk previous text).2) (state.slot index).text := by
  induction brings generalizing state with
  | nil => exact String.append_empty
  | @cons chunk text chunks texts here others ih =>
    have first := @advance_text _ _ _ state _ _ here
    have merged := (mergeChunk_spec (state.slot index).text (nonempty text (by simp))).1
    have sent : String.join (mergeChunk (state.slot index).text text).1.toList =
        (mergeChunk (state.slot index).text text).1.getD "" := by
      cases (mergeChunk (state.slot index).text text).1 <;> simp
    rw [emit, foldl_cons, sentTexts, blockEvents_append, filterMap_append, ← sentTexts,
      ← sentTexts, first.1, String.join_append, sent, ← String.append_assoc, ← merged]
    cases others with
    | nil => exact String.append_empty
    | cons there others =>
      rw [← first.2 (stays chunk (by simp))]
      exact ih (fun text mem => nonempty text (mem_cons_of_mem _ mem))
        fun chunk mem => stays chunk (by simpa using .inr mem)

/-- The texts sent about a position are the increments received there exactly when none
starts with all before it. -/
theorem increments_sent_iff {chunks : List (StreamChunk V)} {texts : List String}
    (fresh : (state.slot index).text = "") (brings : List.Forall₂ (Brings index) chunks texts)
    (nonempty : ∀ text ∈ texts, text ≠ "")
    (stays : ∀ chunk ∈ chunks.dropLast, chunk.closes = false) :
    String.join (sentTexts index (emit StreamState.advance state chunks).1) = String.join texts ↔
      ¬Repeats texts := by
  have run := @received_run _ _ _ state _ _ brings nonempty stays
  rw [fresh, String.empty_append] at run
  rw [run]
  exact (received_spec nonempty).2.1

end Decoder

/-- A chunk with one text. -/
def textChunk (text : String) : StreamChunk Unit :=
  { candidates := [{ content := some ⟨[{ text := some text }]⟩ }] }

/-- `ha` twice is sent once. -/
theorem repeated_increment_lost :
    sentTexts 0 (emit StreamState.advance { requestModel := "m" }
      [textChunk "ha", textChunk "ha"]).1 = ["ha"] := by
  decide +kernel

theorem increments_sent :
    String.join (sentTexts 0 (emit StreamState.advance { requestModel := "m" }
      [textChunk "ha", textChunk "!"]).1) = "ha!" := by
  have fresh : ¬Repeats ["ha", "!"] := (received_spec (by decide)).2.1.mp (by decide +kernel)
  exact (@increments_sent_iff _ 0 _ { requestModel := "m" } _ ["ha", "!"] rfl
    (.cons ⟨rfl, rfl⟩ (.cons ⟨rfl, rfl⟩ .nil)) (by decide) (by decide)).mpr fresh

end Mentra.Gemini
