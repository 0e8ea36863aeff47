import Mentra.Foundation.Frames
import Mentra.Provider.Stream
import Mentra.Runtime.Error

/-!
# Server-sent frames

What the stream decoders of `mentra-provider` share: a response body is a sequence of frames,
groups of lines ended by a blank line in one of two forms, and the payload of a frame is in
its `data:` lines.  Three decoders look for a boundary in one form over the whole buffer
before they look for the other (`responses/sse.rs`, `anthropic/sse.rs`, `gemini/sse.rs`);
`chat_completions/sse.rs` takes the boundary that comes first.  Reading UTF-8 is a parameter.
-/

namespace Mentra.Sse

open Foundation List Option Function
open Foundation.Frames

/-! ## Frames -/

/-- The two forms of a blank line after a line. -/
inductive Ending
  | lf
  | crlf

def Ending.delimiter : Ending → List UInt8
  | lf => [10, 10]
  | crlf => [13, 10, 13, 10]

@[simp]
theorem length_lf : Ending.lf.delimiter.length = 2 :=
  rfl

@[simp]
theorem length_crlf : Ending.crlf.delimiter.length = 4 :=
  rfl

variable (text : List UInt8)

/-- No line of the text is blank, in either form. -/
def NoBlankLine : Prop :=
  ∀ line ∈ text.splitOn 10, line ≠ [] ∧ line ≠ [13]

instance (text : List UInt8) : Decidable (NoBlankLine text) :=
  inferInstanceAs (Decidable (∀ line ∈ text.splitOn 10, _))

/-- What may stand before a blank line: nothing, or lines that are not blank. -/
def FrameText : Prop :=
  text = [] ∨ NoBlankLine text

instance (text : List UInt8) : Decidable (FrameText text) :=
  inferInstanceAs (Decidable (_ ∨ _))

/-- Lines up to a blank line. -/
structure Frame where
  text : List UInt8
  ending : Ending
  isFrameText : FrameText text

/-- A frame's bytes on the wire: its text and the delimiter. -/
def Frame.parts (frame : Frame) : List UInt8 × List UInt8 :=
  (frame.text, frame.ending.delimiter)

/-- Text that no boundary ends. -/
def Unended : Prop :=
  ¬ Ending.lf.delimiter <:+: text ∧ ¬ Ending.crlf.delimiter <:+: text

/-! ## Boundaries -/

/-- `find_frame_boundary` of the Responses, Anthropic and Gemini decoders: a
boundary in the first form anywhere, before one in the second form. -/
def findFrameBoundary : Boundary UInt8 := fun buffer =>
  match position Ending.lf.delimiter buffer with
  | some index => some (index, 2)
  | none =>
    match position Ending.crlf.delimiter buffer with
    | some index => some (index, 4)
    | none => none

/-- `find_frame_boundary` of the chat-completions decoder. -/
def findFirstFrameBoundary : Boundary UInt8 := fun buffer =>
  match position Ending.crlf.delimiter buffer, position Ending.lf.delimiter buffer with
  | some crlf, some lf => if crlf ≤ lf then some (crlf, 4) else some (lf, 2)
  | none, some lf => some (lf, 2)
  | some crlf, none => some (crlf, 4)
  | none, none => none

/-! ## Payloads -/

/-- A reading of bytes that are all below 128. -/
def ofAscii (bytes : List UInt8) : Except String String :=
  .ok (String.ofList (bytes.map fun byte => Char.ofNat byte.toNat))

/-- The payload of a frame: its `data:` lines but those that are skipped. -/
def dataLines (skips : String → Bool) (text : String) : List String :=
  (Text.lines text).filterMap fun raw =>
    let line := Text.stripReturn raw
    if skips line then none else (Text.stripPrefix? "data:" line).map Text.trimStart

/-- Blank lines and comments. -/
def skipsComments (line : String) : Bool :=
  line.isEmpty || (Text.stripPrefix? ":" line).isSome

/-- Blank lines, comments and event names. -/
def skipsCommentsAndEvents (line : String) : Bool :=
  skipsComments line || (Text.stripPrefix? "event:" line).isSome

variable (fromUtf8 : List UInt8 → Except String String)

/-- `parse_frame` up to the payload, which `handle` gets. -/
def parseFrame {σ τ : Type}
    (skips : String → Bool) (handle : String → σ → Except ProviderError (List τ × σ))
    (frame : List UInt8) (state : σ) : Except ProviderError (List τ × σ) :=
  match fromUtf8 frame with
  | .error error => .error (.malformedStream error)
  | .ok text =>
    let lines := dataLines skips text
    if lines.isEmpty then .ok ([], state)
    else handle (String.intercalate "\n" lines) state

/-- What a frame is read as, whatever came before it; a frame may have no
payload. -/
def readFrame {π : Type} (skips : String → Bool)
    (read : String → Except ProviderError π) (frame : List UInt8) :
    Except ProviderError (Option π) :=
  match fromUtf8 frame with
  | .error error => .error (.malformedStream error)
  | .ok text =>
    let lines := dataLines skips text
    if lines.isEmpty then .ok none
    else (read (String.intercalate "\n" lines)).map some

/-- A payload that is read first is handled as what it was read as. -/
theorem parseFrame_eq {σ τ π : Type}
    (skips : String → Bool) (read : String → Except ProviderError π)
    (handle : π → σ → Except ProviderError (List τ × σ)) (frame : List UInt8) (state : σ) :
    parseFrame fromUtf8 skips (fun data state => read data >>= fun payload => handle payload state)
        frame state =
      readFrame fromUtf8 skips read frame >>= fun payload? =>
        match payload? with
        | none => .ok ([], state)
        | some payload => handle payload state := by
  rw [parseFrame, readFrame]
  cases fromUtf8 frame with
  | error error => rfl
  | ok text =>
    simp only
    split
    · rfl
    · cases read (String.intercalate "\n" (dataLines skips text)) <;> rfl

/-! ## Where delimiters occur -/

namespace NoBlankLine

variable {text older newer rest : List UInt8}

/-- How a text starts whose first line is not blank. -/
theorem opens (noBlank : NoBlankLine text) :
    ∃ byte more, text = byte :: more ∧ byte ≠ 10 ∧
      (byte = 13 → ∃ next others, more = next :: others ∧ next ≠ 10) := by
  cases text with
  | nil => exact absurd rfl (noBlank [] (by simp)).1
  | cons byte more =>
    refine ⟨byte, more, rfl, ?_, ?_⟩
    · rintro rfl
      exact (noBlank [] (by simp [List.splitOn, splitOnP_cons_eq_if_modifyHead])).1 rfl
    · rintro rfl
      cases more with
      | nil => exact absurd rfl (noBlank [13] (by decide)).2
      | cons next others =>
        refine ⟨next, others, rfl, ?_⟩
        rintro rfl
        exact (noBlank [13] (by simp [List.splitOn, splitOnP_cons_eq_if_modifyHead])).2 rfl

theorem after (noBlank : NoBlankLine (older ++ 10 :: newer)) : NoBlankLine newer := by
  intro line mem
  refine noBlank line ?_
  rw [List.splitOn, splitOnP_append_cons _ _ (by simp)]
  exact mem_append_right _ mem

theorem not_lf (noBlank : NoBlankLine (older ++ newer)) (nonempty : newer ≠ []) :
    ¬ Ending.lf.delimiter <+: newer ++ rest := by
  intro occurs
  obtain ⟨byte, more, rfl⟩ := exists_cons_of_ne_nil nonempty
  rw [cons_append, Ending.delimiter, cons_prefix_cons] at occurs
  obtain ⟨rfl, later⟩ := occurs
  obtain ⟨next, others, rfl, differs, -⟩ := noBlank.after.opens
  rw [cons_append, cons_prefix_cons] at later
  exact differs later.1.symm

theorem not_crlf (noBlank : NoBlankLine (older ++ newer)) (nonempty : newer ≠ [])
    (ending : Ending) : ¬ Ending.crlf.delimiter <+: newer ++ (ending.delimiter ++ rest) := by
  intro occurs
  obtain ⟨byte, more, rfl⟩ := exists_cons_of_ne_nil nonempty
  rw [cons_append, Ending.delimiter, cons_prefix_cons] at occurs
  obtain ⟨rfl, second⟩ := occurs
  cases more with
  | nil => cases ending <;> simp [Ending.delimiter] at second
  | cons next others =>
    rw [cons_append, cons_prefix_cons] at second
    obtain ⟨rfl, third⟩ := second
    rw [show older ++ 13 :: 10 :: others = (older ++ [13]) ++ 10 :: others by simp] at noBlank
    obtain ⟨byte, more, rfl, -, returns⟩ := noBlank.after.opens
    rw [cons_append, cons_prefix_cons] at third
    obtain ⟨rfl, fourth⟩ := third
    obtain ⟨last, others, rfl, differs⟩ := returns rfl
    rw [cons_append, cons_prefix_cons] at fourth
    exact differs fourth.1.symm

end NoBlankLine

namespace FrameText

variable {text : List UInt8}

theorem position_lf (frameText : FrameText text) (rest : List UInt8) :
    position Ending.lf.delimiter (text ++ rest) =
      (position Ending.lf.delimiter rest).map (· + text.length) := by
  apply position_append
  rintro older newer rfl nonempty
  exact (frameText.resolve_left (by simp [nonempty])).not_lf nonempty

theorem position_crlf (frameText : FrameText text) (ending : Ending) (rest : List UInt8) :
    position Ending.crlf.delimiter (text ++ (ending.delimiter ++ rest)) =
      (position Ending.crlf.delimiter (ending.delimiter ++ rest)).map (· + text.length) := by
  apply position_append
  rintro older newer rfl nonempty
  exact (frameText.resolve_left (by simp [nonempty])).not_crlf nonempty ending

end FrameText

section Delimiters

variable (ending : Ending) (rest : List UInt8)

theorem position_delimiter : position ending.delimiter (ending.delimiter ++ rest) = some 0 :=
  position_of_prefix (prefix_append _ _) (by cases ending <;> simp [Ending.delimiter])

/-- The second form does not occur in the first. -/
theorem position_crlf_lf :
    position Ending.crlf.delimiter (Ending.lf.delimiter ++ rest) =
      (position Ending.crlf.delimiter rest).map (· + 2) := by
  simp only [position, Ending.delimiter, cons_append, nil_append, cons_prefix_cons]
  simp [comp_def]

/-- The first form occurs in the second only if a line feed follows. -/
theorem position_lf_crlf :
    position Ending.lf.delimiter (Ending.crlf.delimiter ++ rest) =
      (position Ending.lf.delimiter (10 :: rest)).map (· + 3) := by
  simp [position, Ending.delimiter, comp_def]

end Delimiters

/-! ## Boundaries found first -/

section Found

variable {text rest seen : List UInt8} (frameText : FrameText text)

include frameText

/-- A part of a stream that starts with a frame has its boundary, or ends before it. -/
theorem found_own {ending : Ending} (part : seen <+: text ++ ending.delimiter ++ rest) :
    position ending.delimiter seen =
      if (text ++ ending.delimiter).length ≤ seen.length then some text.length else none := by
  rw [append_assoc] at part
  have own : position ending.delimiter (text ++ (ending.delimiter ++ rest)) = some text.length := by
    cases ending with
    | lf => rw [frameText.position_lf, position_delimiter, map_some, Nat.zero_add]
    | crlf => rw [frameText.position_crlf, position_delimiter, map_some, Nat.zero_add]
  rw [position_of_isPrefix part (by cases ending <;> simp [Ending.delimiter]), own, filter_some,
    length_append]
  simp only [decide_eq_true_eq]

theorem found_lf (part : seen <+: text ++ Ending.lf.delimiter ++ rest) {index : Nat}
    (found : position Ending.crlf.delimiter seen = some index) :
    text.length < index ∧ (text ++ Ending.lf.delimiter).length ≤ seen.length := by
  rw [append_assoc] at part
  rw [position_of_isPrefix part (by simp [Ending.delimiter]), frameText.position_crlf .lf,
    position_crlf_lf, filter_eq_some_iff] at found
  obtain ⟨shifted, reaches⟩ := found
  simp only [Option.map_map, map_eq_some_iff, comp_apply] at shifted
  obtain ⟨later, -, rfl⟩ := shifted
  have fits := of_decide_eq_true reaches
  rw [length_crlf] at fits
  rw [length_append, length_lf]
  omega

theorem found_crlf (part : seen <+: text ++ Ending.crlf.delimiter ++ rest) :
    (∀ index, position Ending.lf.delimiter seen = some index →
      text.length + 3 ≤ index ∧ (text ++ Ending.crlf.delimiter).length ≤ seen.length) ∧
    (position Ending.lf.delimiter (10 :: rest) = none →
      position Ending.lf.delimiter seen = none) := by
  rw [append_assoc] at part
  have lfs : position Ending.lf.delimiter (text ++ (Ending.crlf.delimiter ++ rest)) =
      (position Ending.lf.delimiter (10 :: rest)).map (· + (text.length + 3)) := by
    rw [frameText.position_lf, position_lf_crlf, Option.map_map]
    congr 1
    funext index
    simp only [comp_apply]
    omega
  rw [position_of_isPrefix part (by simp [Ending.delimiter]), lfs]
  constructor
  · intro index found
    obtain ⟨shifted, reaches⟩ := filter_eq_some_iff.mp found
    obtain ⟨later, -, rfl⟩ := map_eq_some_iff.mp shifted
    have fits := of_decide_eq_true reaches
    rw [length_lf] at fits
    rw [length_append, length_crlf]
    omega
  · intro none
    rw [none]
    rfl

/-- The boundary that comes first is that of the frame in front. -/
theorem findsFirst_first (ending : Ending) :
    FindsFirst findFirstFrameBoundary text ending.delimiter rest := by
  intro seen part
  have own := found_own frameText part
  rw [findFirstFrameBoundary]
  by_cases complete : (text ++ ending.delimiter).length ≤ seen.length
  · rw [if_pos complete] at own ⊢
    cases ending with
    | lf =>
      rw [own]
      cases found : position Ending.crlf.delimiter seen with
      | none => rfl
      | some index => exact if_neg (found_lf frameText part found).1.not_ge
    | crlf =>
      rw [own]
      cases found : position Ending.lf.delimiter seen with
      | none => rfl
      | some index =>
        exact if_pos (Nat.le_of_add_right_le ((found_crlf frameText part).1 index found).1)
  · rw [if_neg complete] at own ⊢
    cases ending with
    | lf =>
      rw [own]
      cases found : position Ending.crlf.delimiter seen with
      | none => rfl
      | some index => exact absurd (found_lf frameText part found).2 complete
    | crlf =>
      rw [own]
      cases found : position Ending.lf.delimiter seen with
      | none => rfl
      | some index => exact absurd ((found_crlf frameText part).1 index found).2 complete

/-- A boundary in the first form is found whatever comes after it. -/
theorem findsFirst_lf : FindsFirst findFrameBoundary text Ending.lf.delimiter rest := by
  intro seen part
  rw [findFrameBoundary, found_own frameText part]
  by_cases complete : (text ++ Ending.lf.delimiter).length ≤ seen.length
  · rw [if_pos complete, if_pos complete]
    rfl
  · rw [if_neg complete, if_neg complete]
    cases found : position Ending.crlf.delimiter seen with
    | none => rfl
    | some index => exact absurd (found_lf frameText part found).2 complete

/-- A boundary in the second form is found if none in the first form is ahead. -/
theorem findsFirst_crlf (none : position Ending.lf.delimiter (10 :: rest) = none) :
    FindsFirst findFrameBoundary text Ending.crlf.delimiter rest := by
  intro seen part
  rw [findFrameBoundary, (found_crlf frameText part).2 none, found_own frameText part]
  by_cases complete : (text ++ Ending.crlf.delimiter).length ≤ seen.length
  · rw [if_pos complete, if_pos complete]
    rfl
  · rw [if_neg complete, if_neg complete]

end Found

end Mentra.Sse
