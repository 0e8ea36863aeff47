import Mentra.Provider.Gemini

/-!
# Boundaries in two forms

The Responses, Anthropic and Gemini decoders look for a boundary in the first form anywhere in
the buffer before they look for one in the second form.  So frames are cut off where they end
if none ended in the second form comes before one ended in the first; otherwise two frames may
be taken as one.
-/

namespace Mentra

open Foundation List
open Foundation.Frames

namespace Sse

variable {V σ : Type}

/-- The bytes of frames on the wire. -/
def wire (frames : List Frame) : List UInt8 :=
  stream (frames.map Frame.parts) []

theorem wire_cons (frame : Frame) (frames : List Frame) :
    wire (frame :: frames) = frame.text ++ frame.ending.delimiter ++ wire frames :=
  stream_cons _ _ _ _

/-- `forward_events` of `responses/sse.rs`, with the handling of a payload as a
parameter: the headers are sent first, and the end of the stream is no error. -/
def responsesDecoder (fromUtf8 : List UInt8 → Except String String)
    (headers : List (String × String)) (initial : σ)
    (handle : String → σ → Except ProviderError (List (ProviderEvent V) × σ)) :
    Decoder UInt8 σ ProviderError (ProviderEvent V) where
  opening := if headers.isEmpty then [] else [.responseHeaders headers]
  initial
  parse := parseFrame fromUtf8 skipsCommentsAndEvents handle
  finish _ := ([], none)

/-- `forward_events` of `anthropic/sse.rs`, with the handling of a payload as a
parameter. -/
def anthropicDecoder (fromUtf8 : List UInt8 → Except String String) (initial : σ)
    (handle : String → σ → Except ProviderError (List (ProviderEvent V) × σ)) :
    Decoder UInt8 σ ProviderError (ProviderEvent V) where
  initial
  parse := parseFrame fromUtf8 skipsComments handle
  finish _ := ([], none)

/-- However the frames are cut into chunks, the decoder sends what it sends when
they are handed to it one at a time. -/
def HandsOver (decoder : Decoder UInt8 σ ProviderError (ProviderEvent V))
    (frames : List Frame) : Prop :=
  ∀ chunks : List (List UInt8), chunks.flatten = wire frames →
    received (decoder.forward findFrameBoundary chunks) =
      received (decoder.handed (frames.map Frame.text) [])

/-- No frame ended in the second form comes before one ended in the first. -/
def FirstFormFirst (frames : List Frame) : Prop :=
  frames.Pairwise fun earlier later => earlier.ending = .crlf → later.ending = .crlf

/-! ## Frames that are cut off where they end -/

variable {frames : List Frame}

/-- Between frames that all end in the second form no boundary in the first form
is seen. -/
theorem position_lf_wire (all : ∀ frame ∈ frames, frame.ending = .crlf) :
    position Ending.lf.delimiter (10 :: wire frames) = none := by
  induction frames with
  | nil => decide
  | cons frame frames ih =>
    have later := ih fun frame mem => all frame (mem_cons_of_mem _ mem)
    have here : ¬ Ending.lf.delimiter <+: 10 :: wire (frame :: frames) := by
      rw [wire_cons, all frame mem_cons_self]
      rcases frame.isFrameText with empty | noBlank
      · simp [empty, Ending.delimiter]
      · obtain ⟨byte, more, opens, notLf, -⟩ := noBlank.opens
        simpa [opens, Ending.delimiter] using notLf.symm
    rw [position, if_neg here, wire_cons, all frame mem_cons_self, append_assoc,
      frame.isFrameText.position_lf, position_lf_crlf, later]
    rfl

theorem framed_of_firstFormFirst (ordered : FirstFormFirst frames) :
    Framed findFrameBoundary (frames.map Frame.parts) [] := by
  induction frames with
  | nil =>
    apply Framed.nil
    intro seen part
    rw [prefix_nil.mp part]
    rfl
  | cons frame frames ih =>
    obtain ⟨after, others⟩ := pairwise_cons.mp ordered
    obtain ⟨text, ending, frameText⟩ := frame
    cases ending with
    | lf => exact .cons (by simp [Ending.delimiter]) (findsFirst_lf frameText) (ih others)
    | crlf =>
      have none := position_lf_wire fun frame mem => after frame mem rfl
      exact .cons (by simp [Ending.delimiter]) (findsFirst_crlf frameText none) (ih others)

theorem handsOver_of_firstFormFirst (decoder : Decoder UInt8 σ ProviderError (ProviderEvent V))
    (ordered : FirstFormFirst frames) : HandsOver decoder frames := by
  intro chunks split
  rw [Decoder.forward_framed (framed_of_firstFormFirst ordered) split, map_map]
  rfl

/-! ## The three decoders -/

/-- If no frame ended in the second form comes before one ended in the first, each of the
three decoders sends the same for every cutting of the frames, whatever its payloads mean. -/
theorem decoders_handOver (V : Type) [SerdeJson V] {frames : List Frame}
    (ordered : FirstFormFirst frames) :
    (∀ fromUtf8 headers (σ : Type) initial
      (handle : String → σ → Except ProviderError (List (ProviderEvent V) × σ)),
      HandsOver (responsesDecoder fromUtf8 headers initial handle) frames) ∧
    (∀ fromUtf8 (σ : Type) initial
      (handle : String → σ → Except ProviderError (List (ProviderEvent V) × σ)),
      HandsOver (anthropicDecoder fromUtf8 initial handle) frames) ∧
    (∀ fromUtf8 (read : String → Except String (Gemini.StreamChunk V)) requestModel,
      HandsOver (Gemini.decoder fromUtf8 read requestModel) frames) :=
  ⟨fun _ _ _ _ _ => handsOver_of_firstFormFirst _ ordered,
    fun _ _ _ _ => handsOver_of_firstFormFirst _ ordered,
    fun _ _ _ => handsOver_of_firstFormFirst _ ordered⟩

/-- Two payloads of a response, a slice of text and its end. -/
def readDigit : String → Except String (Gemini.StreamChunk Unit)
  | "1" => .ok { candidates := [{ content := some ⟨[{ text := some "Hi" }]⟩ }] }
  | "2" => .ok { candidates := [{ finishReason := some "STOP" }] }
  | _ => .error "trailing characters"

theorem frameText_digit : FrameText [100, 97, 116, 97, 58, 32, 49] := by
  decide

/-- `data: 1` and `data: 2`, ended in the given forms. -/
def digitFrames (first second : Ending) : List Frame :=
  [⟨[100, 97, 116, 97, 58, 32, 49], first, frameText_digit⟩,
    ⟨[100, 97, 116, 97, 58, 32, 50], second, by decide⟩]

/-- What is sent for the two payloads. -/
def digitEvents : List (Except ProviderError (ProviderEvent Unit)) :=
  [.ok (.messageStarted "gemini-m" "m" .assistant), .ok (.contentBlockStarted 0 .text),
    .ok (.contentBlockDelta 0 (.text "Hi")), .ok (.contentBlockStopped 0),
    .ok (.messageDelta (some "STOP") none), .ok .messageStopped]

/-- With the first form first, the two frames are a whole response in every cutting. -/
theorem orderedFrames_read :
    FirstFormFirst (digitFrames .lf .crlf) ∧
    ∀ chunks : List (List UInt8), chunks.flatten = wire (digitFrames .lf .crlf) →
      received ((Gemini.decoder ofAscii readDigit "m").forward findFrameBoundary chunks) =
        digitEvents := by
  have ordered : FirstFormFirst (digitFrames .lf .crlf) := by
    simp [FirstFormFirst, digitFrames]
  have handed : received ((Gemini.decoder ofAscii readDigit "m").handed
      ((digitFrames .lf .crlf).map Frame.text) []) = digitEvents := by
    decide +kernel
  refine ⟨ordered, fun chunks split => ?_⟩
  exact ((decoders_handOver Unit ordered).2.2 ofAscii readDigit "m" chunks split).trans handed

/-- With the second form first, the two frames in one chunk are taken as one, which cannot be
read; handed over one at a time they are a whole response. -/
theorem mixedFrames_merged :
    received ((Gemini.decoder ofAscii readDigit "m").forward findFrameBoundary
      [wire (digitFrames .crlf .lf)]) = [.error (.deserialize "trailing characters")] ∧
    received ((Gemini.decoder ofAscii readDigit "m").handed
      ((digitFrames .crlf .lf).map Frame.text) []) = digitEvents := by
  decide +kernel

end Sse

end Mentra
