import Mentra.Foundation.Emission
import Mentra.Foundation.Program

/-!
# Frames in a stream that arrives in chunks

A stream is a sequence of frames, each ended by a delimiter, and perhaps a rest.  A decoder
appends every chunk to a buffer and cuts frames off it as long as a boundary is found.  If
in every part of the stream that may be in the buffer the boundary found is that of the
first frame, the decoder is handed the frames one at a time, whatever the chunks are.
-/

namespace Mentra.Foundation.Frames

variable {α : Type}

/-! ## Where a pattern occurs first -/

section Position

variable [DecidableEq α] {pattern buffer front rest : List α}

/-- `buffer.windows(n).position(|window| window == pattern)`. -/
def position (pattern : List α) : List α → Option Nat
  | [] => none
  | first :: rest =>
    if pattern <+: first :: rest then some 0 else (position pattern rest).map (· + 1)

theorem position_of_prefix (occurs : pattern <+: buffer) (nonempty : pattern ≠ []) :
    position pattern buffer = some 0 := by
  cases buffer with
  | nil => exact absurd (List.prefix_nil.mp occurs) nonempty
  | cons first rest => rw [position, if_pos occurs]

/-- Where nothing starts in the front, the first occurrence is behind it. -/
theorem position_append
    (none : ∀ older newer, front = older ++ newer → newer ≠ [] → ¬ pattern <+: newer ++ rest) :
    position pattern (front ++ rest) = (position pattern rest).map (· + front.length) := by
  induction front with
  | nil => simp
  | cons first front ih =>
    have here := none [] (first :: front) rfl (List.cons_ne_nil _ _)
    have later := ih fun older newer split => none (first :: older) newer (by simp [split])
    rw [List.cons_append] at here ⊢
    rw [position, if_neg here, later, Option.map_map]
    rfl

theorem position_eq_none_iff (nonempty : pattern ≠ []) :
    position pattern buffer = none ↔ ¬ pattern <:+: buffer := by
  induction buffer with
  | nil => simp [position, nonempty]
  | cons first rest ih =>
    rw [position, List.infix_cons_iff, not_or, ← ih]
    split
    · rename_i occurs
      simp [occurs]
    · rename_i absent
      simp [absent]

theorem position_eq_none_of_short (short : buffer.length < pattern.length) :
    position pattern buffer = none := by
  induction buffer with
  | nil => rfl
  | cons first rest ih =>
    rw [position, if_neg fun occurs => by have := occurs.length_le; omega,
      ih (by rw [List.length_cons] at short; omega)]
    rfl

/-- A pattern occurs in a part of the buffer where it occurs in the buffer, if
the part reaches that far. -/
theorem position_of_isPrefix {seen : List α} (part : seen <+: buffer) (nonempty : pattern ≠ []) :
    position pattern seen =
      (position pattern buffer).filter fun index => index + pattern.length ≤ seen.length := by
  have positive := List.length_pos_iff.mpr nonempty
  induction buffer generalizing seen with
  | nil =>
    rw [List.prefix_nil.mp part]
    rfl
  | cons first rest ih =>
    cases seen with
    | nil =>
      rw [position, eq_comm, Option.filter_eq_none_iff]
      intro index _
      simp only [List.length_nil, decide_eq_true_eq]
      omega
    | cons head seen =>
      obtain ⟨rfl, shorter⟩ := List.cons_prefix_cons.mp part
      have later := ih shorter
      rw [position, position]
      by_cases occurs : pattern <+: head :: rest
      · rw [if_pos occurs]
        by_cases reaches : pattern.length ≤ (head :: seen).length
        · rw [if_pos (List.prefix_of_prefix_length_le occurs part reaches), Option.filter_some,
            if_pos (by simpa using reaches)]
        · rw [if_neg fun inside => reaches inside.length_le, Option.filter_some,
            if_neg (by simpa using reaches)]
          rw [List.length_cons] at reaches
          rw [position_eq_none_of_short (by omega)]
          rfl
      · rw [if_neg occurs, if_neg fun inside => occurs (inside.trans part), later]
        cases position pattern rest with
        | none => rfl
        | some index =>
          have shifted : index + 1 + pattern.length ≤ seen.length + 1 ↔
              index + pattern.length ≤ seen.length := by omega
          simp only [Option.map_some, Option.filter_some, List.length_cons, shifted]
          split <;> rfl

end Position

/-! ## Streams of frames -/

/-- Finds the first boundary in a buffer: where its frame stops, and how wide
the delimiter after it is. -/
abbrev Boundary (α : Type) :=
  List α → Option (Nat × Nat)

/-- The stream of these frames, each with its delimiter, and a rest. -/
def stream (frames : List (List α × List α)) (rest : List α) : List α :=
  frames.flatMap (fun frame => frame.1 ++ frame.2) ++ rest

@[simp]
theorem stream_nil (rest : List α) : stream [] rest = rest :=
  rfl

theorem stream_cons (frame delimiter : List α) (frames : List (List α × List α)) (rest : List α) :
    stream ((frame, delimiter) :: frames) rest = frame ++ delimiter ++ stream frames rest := by
  simp [stream]

/-- However much of the stream is seen, the first boundary found is that of the frame in front,
as soon as its delimiter is complete. -/
def FindsFirst (boundary : Boundary α) (frame delimiter rest : List α) : Prop :=
  ∀ seen, seen <+: frame ++ delimiter ++ rest →
    boundary seen =
      if (frame ++ delimiter).length ≤ seen.length then some (frame.length, delimiter.length)
      else none

/-- A stream in which every boundary is found. -/
inductive Framed (boundary : Boundary α) : List (List α × List α) → List α → Prop
  | nil {rest : List α} (unended : ∀ seen, seen <+: rest → boundary seen = none) :
      Framed boundary [] rest
  | cons {frame delimiter rest : List α} {frames : List (List α × List α)}
      (nonempty : delimiter ≠ [])
      (finds : FindsFirst boundary frame delimiter (stream frames rest))
      (framed : Framed boundary frames rest) : Framed boundary ((frame, delimiter) :: frames) rest

namespace Framed

variable {boundary : Boundary α} {rest : List α}

theorem of_append {taken left : List (List α × List α)}
    (framed : Framed boundary (taken ++ left) rest) : Framed boundary left rest := by
  induction taken with
  | nil => exact framed
  | cons frame taken ih =>
    cases framed with
    | cons nonempty finds framed => exact ih framed

/-- Nothing is found before anything is seen. -/
theorem nothing {frames : List (List α × List α)} (framed : Framed boundary frames rest) :
    boundary [] = none := by
  cases framed with
  | nil unended => exact unended [] List.nil_prefix
  | cons nonempty finds framed =>
    rw [finds [] List.nil_prefix, if_neg]
    simp [nonempty]

end Framed

/-! ## Decoding -/

/-- Events are sent one after the other; an error ends the sending, and what was
sent stays sent. -/
abbrev Sending (ε τ : Type) :=
  Program ε (List τ)

/-- What the receiver of a sending gets. -/
def received {ε τ α : Type} (sending : Sending ε τ α) : List (Except ε τ) :=
  match sending.exec [] with
  | (.ok _, sent) => sent.map .ok
  | (.error error, sent) => sent.map .ok ++ [.error error]

/-- A decoder of frames into events. -/
structure Decoder (α σ ε τ : Type) where
  /-- What is sent before the stream is read. -/
  opening : List τ := []
  initial : σ
  parse : List α → σ → Except ε (List τ × σ)
  /-- What is sent when the stream ends, and the error it ends in. -/
  finish : σ → List τ × Option ε

namespace Decoder

variable {σ ε τ : Type} (decoder : Decoder α σ ε τ) (boundary : Boundary α)

/-- Parse one frame and send its events. -/
def take (state : σ) (frame : List α) : Sending ε τ σ := do
  let (events, next) ← Program.lift (decoder.parse frame state)
  modify (· ++ events)
  pure next

/-- Cut frames off the buffer while a boundary is found, at most `room` times. -/
def frameLoop : Nat → σ → List α → Sending ε τ (σ × List α)
  | 0, state, buffer => pure (state, buffer)
  | room + 1, state, buffer =>
    match boundary buffer with
    | none => pure (state, buffer)
    | some (stop, width) => do
        let next ← decoder.take state (buffer.take stop)
        frameLoop room next (buffer.drop (stop + width))

/-- Append each chunk to the buffer and cut off the frames; a boundary takes up at least one
element of it. -/
def chunkLoop : σ → List α → List (List α) → Sending ε τ (σ × List α)
  | state, buffer, [] => pure (state, buffer)
  | state, buffer, chunk :: chunks => do
      let (next, rest) ← decoder.frameLoop boundary (buffer ++ chunk).length state (buffer ++ chunk)
      chunkLoop next rest chunks

/-- The end of the stream: what is left in the buffer is the last frame. -/
def close (state : σ) (rest : List α) : Sending ε τ Unit := do
  let last ← if rest.isEmpty then pure state else decoder.take state rest
  modify (· ++ (decoder.finish last).1)
  match (decoder.finish last).2 with
  | none => pure ()
  | some error => throw error

/-- Decode a stream that arrives in chunks. -/
def forward (chunks : List (List α)) : Sending ε τ Unit := do
  modify (· ++ decoder.opening)
  let (state, rest) ← decoder.chunkLoop boundary decoder.initial [] chunks
  decoder.close state rest

/-- Decode frames that are handed over one at a time. -/
def handed (frames : List (List α)) (rest : List α) : Sending ε τ Unit := do
  modify (· ++ decoder.opening)
  let state ← frames.foldlM decoder.take decoder.initial
  decoder.close state rest

variable {decoder boundary} {frames : List (List α × List α)} {rest : List α}

theorem take_of_error {state : σ} {frame : List α} {error : ε}
    (refused : decoder.parse frame state = .error error) :
    decoder.take state frame = throw error := by
  rw [take, refused]
  rfl

/-- The loop takes the frames that are complete in the buffer. -/
theorem frameLoop_framed (decoder : Decoder α σ ε τ) (framed : Framed boundary frames rest)
    {buffer later : List α} (split : buffer ++ later = stream frames rest) {room : Nat}
    (enough : buffer.length ≤ room) :
    ∃ taken left kept, frames = taken ++ left ∧ boundary kept = none ∧
      kept ++ later = stream left rest ∧
      ∀ state, decoder.frameLoop boundary room state buffer =
        (taken.map Prod.fst).foldlM decoder.take state >>= fun next => pure (next, kept) := by
  induction framed generalizing buffer room with
  | nil unended =>
    have none := unended buffer ⟨later, split⟩
    refine ⟨[], [], buffer, rfl, none, split, fun state => ?_⟩
    cases room with
    | zero => simp [frameLoop]
    | succ room => simp [frameLoop, none]
  | @cons frame delimiter rest frames nonempty finds framed ih =>
    rw [stream_cons] at split
    have found := finds buffer ⟨later, split⟩
    by_cases complete : (frame ++ delimiter).length ≤ buffer.length
    · rw [if_pos complete] at found
      obtain ⟨others, rfl⟩ := List.prefix_of_prefix_length_le (List.prefix_append _ _)
        ⟨later, split⟩ complete
      have splitOthers : others ++ later = stream frames rest := by
        rw [List.append_assoc] at split
        exact List.append_cancel_left split
      have positive := List.length_pos_iff.mpr nonempty
      simp only [List.length_append] at enough
      obtain ⟨less, rfl⟩ := Nat.exists_eq_add_one_of_ne_zero (by omega : room ≠ 0)
      obtain ⟨taken, left, kept, rfl, none, splitLeft, loops⟩ :=
        ih splitOthers (by omega : others.length ≤ less)
      refine ⟨(frame, delimiter) :: taken, left, kept, rfl, none, splitLeft, fun state => ?_⟩
      have cut : (frame ++ delimiter ++ others).take frame.length = frame ∧
          (frame ++ delimiter ++ others).drop (frame.length + delimiter.length) = others := by
        constructor
        · rw [List.append_assoc, List.take_left]
        · rw [← List.length_append, List.drop_left]
      simp only [frameLoop, found, cut, loops, List.map_cons, List.foldlM_cons, bind_assoc]
    · rw [if_neg complete] at found
      refine ⟨[], _, buffer, rfl, found, by rwa [stream_cons], fun state => ?_⟩
      cases room with
      | zero => simp [frameLoop]
      | succ room => simp [frameLoop, found]

/-- The frames are taken one at a time, whatever the chunks are. -/
theorem chunkLoop_framed (framed : Framed boundary frames rest) {buffer : List α}
    {chunks : List (List α)} (split : buffer ++ chunks.flatten = stream frames rest)
    (none : boundary buffer = none) (state : σ) :
    decoder.chunkLoop boundary state buffer chunks =
      (frames.map Prod.fst).foldlM decoder.take state >>= fun next => pure (next, rest) := by
  induction chunks generalizing frames buffer state with
  | nil =>
    rw [List.flatten_nil, List.append_nil] at split
    cases framed with
    | nil unended =>
      simp [chunkLoop, split]
    | cons nonempty finds framed =>
      rw [stream_cons] at split
      have found := finds buffer (split ▸ List.prefix_rfl)
      rw [none, split, if_pos (by simp)] at found
      cases found
  | cons chunk chunks ih =>
    rw [List.flatten_cons, ← List.append_assoc] at split
    obtain ⟨taken, left, kept, rfl, unfound, splitLeft, loops⟩ :=
      frameLoop_framed decoder framed split le_rfl
    simp only [chunkLoop, loops, List.map_append, List.foldlM_append, bind_assoc, pure_bind]
    congr 1
    funext next
    exact ih framed.of_append splitLeft unfound next

/-- A framed stream is decoded as if its frames were handed over. -/
theorem forward_framed (framed : Framed boundary frames rest) {chunks : List (List α)}
    (split : chunks.flatten = stream frames rest) :
    decoder.forward boundary chunks = decoder.handed (frames.map Prod.fst) rest := by
  rw [forward, handed, chunkLoop_framed framed (by simpa using split) framed.nothing, bind_assoc]
  rfl

/-! ## Frames that are parsed whatever the state is -/

section Parses

open Emission Program

variable {π : Type} {step : σ → π → List τ × σ} {texts : List (List α)} {payloads : List π}

/-- The frames' payloads say what parsing them does. -/
def Parses (decoder : Decoder α σ ε τ) (step : σ → π → List τ × σ) (texts : List (List α))
    (payloads : List π) : Prop :=
  List.Forall₂ (fun text payload => ∀ state, decoder.parse text state = .ok (step state payload))
    texts payloads

/-- Frames that can all be parsed are taken one after the other. -/
theorem exec_foldlM_take (parses : decoder.Parses step texts payloads) (state : σ) (sent : List τ) :
    (texts.foldlM decoder.take state : Sending ε τ σ).exec sent =
      (.ok (emit step state payloads).2, sent ++ (emit step state payloads).1) := by
  induction parses generalizing state sent with
  | nil =>
    rw [emit_nil, List.append_nil]
    rfl
  | @cons text payload texts payloads first rest ih =>
    have taken : (decoder.take state text).exec sent =
        (.ok (step state payload).2, sent ++ (step state payload).1) := by
      rw [take, first]
      rfl
    rw [List.foldlM_cons, exec_bind, taken]
    simp only [ih, emit, List.append_assoc]

/-- What is received of frames that can all be parsed. -/
theorem received_handed
    (parses : decoder.Parses step (texts ++ if rest.isEmpty then [] else [rest]) payloads)
    (ends : (decoder.finish (emit step decoder.initial payloads).2).2 = none) :
    received (decoder.handed texts rest) =
      (decoder.opening ++ (emit step decoder.initial payloads).1 ++
        (decoder.finish (emit step decoder.initial payloads).2).1).map .ok := by
  have closes : ∀ state, decoder.close state rest =
      ((if rest.isEmpty then [] else [rest]).foldlM decoder.take state >>= fun last =>
        decoder.close last []) := by
    intro state
    cases rest with
    | nil => simp
    | cons first rest => simp [close]
  have taken := exec_foldlM_take parses decoder.initial decoder.opening
  rw [List.foldlM_append] at taken
  have ended : (decoder.handed texts rest).exec [] =
      (.ok ⟨⟩, decoder.opening ++ (emit step decoder.initial payloads).1 ++
        (decoder.finish (emit step decoder.initial payloads).2).1) := by
    simp only [handed, closes]
    rw [exec_bind, ← bind_assoc]
    change Program.exec (_ >>= _) decoder.opening = _
    rw [exec_bind, taken]
    simp only [close, List.isEmpty_nil, if_true, pure_bind, ends]
    rfl
  rw [received, ended]

/-- Where nothing but events is received, every frame was parsed. -/
theorem exists_parse_of_received
    (fine : ∀ item ∈ received (decoder.handed texts rest), ∃ event, item = .ok event)
    {text : List α} (mem : text ∈ texts) : ∃ state sent, decoder.parse text state = .ok sent := by
  have parsed : ∀ (texts : List (List α)) (state final : σ) (sent sent' : List τ),
      (texts.foldlM decoder.take state : Sending ε τ σ).exec sent = (.ok final, sent') →
      ∀ text ∈ texts, ∃ state sent, decoder.parse text state = .ok sent := by
    intro texts
    induction texts with
    | nil => simp
    | cons first texts ih =>
      intro state final sent sent' ran
      rw [List.foldlM_cons, exec_bind] at ran
      cases parse : decoder.parse first state with
      | error error =>
        rw [take_of_error parse] at ran
        cases ran
      | ok parsed =>
        have taken : (decoder.take state first).exec sent = (.ok parsed.2, sent ++ parsed.1) := by
          rw [take, parse]
          rfl
        rw [taken] at ran
        intro text mem
        rcases List.mem_cons.mp mem with rfl | later
        · exact ⟨state, parsed, parse⟩
        · exact ih _ _ _ _ ran text later
  have opened : (decoder.handed texts rest).exec [] = Program.exec
      (texts.foldlM decoder.take decoder.initial >>= fun state => decoder.close state rest)
      decoder.opening := by
    rfl
  cases ran : (texts.foldlM decoder.take decoder.initial : Sending ε τ σ).exec decoder.opening with
  | mk outcome sent =>
    cases outcome with
    | ok final => exact parsed texts _ _ _ _ ran text mem
    | error error =>
      rw [received, opened, exec_bind, ran] at fine
      obtain ⟨event, isEvent⟩ := fine (.error error) (by simp)
      cases isEvent

end Parses

end Decoder

end Mentra.Foundation.Frames
