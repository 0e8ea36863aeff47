import Mentra.Foundation.Utf8
import Mentra.Mcp.Wire

/-!
# Chunks of an event stream

The parser is fed the chunks of a stream up to the first that it refuses.  How a stream is
cut changes neither whether it is refused nor the error, but a chunk that is refused hands
out no events, not even those it completed before the error.
-/

namespace Mentra.Mcp.SseParser

open Foundation

variable (fromUtf8 : List UInt8 → Option String)

/-- The events completed before the end of the stream or the first error, and that error. -/
def parse (parser : SseParser) : List UInt8 → List SseEvent × Option SseWireError
  | [] => ([], none)
  | byte :: bytes =>
    match feedByte fromUtf8 parser byte with
    | .error error => ([], some error)
    | .ok (event, parser) =>
      ((event.toList ++ (parse parser bytes).1), (parse parser bytes).2)

/-- What the chunks of a stream hand out up to the first that is refused. -/
def handOut (parser : SseParser) : List (List UInt8) → List SseEvent × Option SseWireError
  | [] => ([], none)
  | chunk :: chunks =>
    match feed fromUtf8 parser chunk with
    | .error error => ([], some error)
    | .ok (events, parser) =>
      (events ++ (handOut parser chunks).1, (handOut parser chunks).2)

/-- A chunk that is refused completed no event before its error. -/
def NothingLost (parser : SseParser) : List (List UInt8) → Prop
  | [] => True
  | chunk :: chunks =>
    match feed fromUtf8 parser chunk with
    | .error _ => (parse fromUtf8 parser chunk).1 = []
    | .ok (_, parser) => NothingLost parser chunks

variable (parser : SseParser)

theorem parse_append (bytes more : List UInt8) :
    parse fromUtf8 parser (bytes ++ more) =
      match feed fromUtf8 parser bytes with
      | .error error => ((parse fromUtf8 parser bytes).1, some error)
      | .ok (events, parser) =>
        (events ++ (parse fromUtf8 parser more).1, (parse fromUtf8 parser more).2) := by
  induction bytes generalizing parser with
  | nil => rfl
  | cons byte bytes ih =>
    rw [List.cons_append, parse, parse, feed]
    cases stepped : feedByte fromUtf8 parser byte with
    | error error => rfl
    | ok result =>
      simp only [ih]
      cases fed : feed fromUtf8 result.2 bytes with
      | error error => simp [fed, bind, Except.bind]
      | ok rest => simp [fed, bind, Except.bind, pure, Except.pure]

/-- Where a stream is cut does not change the error.  It does not change the events
exactly when the chunk that is refused completed none. -/
theorem handOut_eq_parse_iff (chunks : List (List UInt8)) :
    (handOut fromUtf8 parser chunks).2 = (parse fromUtf8 parser chunks.flatten).2 ∧
      (handOut fromUtf8 parser chunks = parse fromUtf8 parser chunks.flatten ↔
        NothingLost fromUtf8 parser chunks) := by
  induction chunks generalizing parser with
  | nil => exact ⟨rfl, iff_of_true rfl trivial⟩
  | cons chunk chunks ih =>
    rw [List.flatten_cons, parse_append, handOut, NothingLost]
    cases fed : feed fromUtf8 parser chunk with
    | error error => exact ⟨rfl, by simp only [Prod.mk.injEq, and_true, eq_comm]⟩
    | ok result =>
      obtain ⟨sameError, sameEvents⟩ := ih result.2
      refine ⟨sameError, Iff.trans ?_ sameEvents⟩
      simp only [Prod.ext_iff, List.append_cancel_left_eq]

/-- `data:a`, a blank line and a line that is too long: the event is lost if all of it
comes in one chunk. -/
theorem chunk_loses_event :
    ∃ first second : List (List UInt8), first.flatten = second.flatten ∧
      handOut Utf8.fromUtf8? (new 6) first = ([⟨"message", "a"⟩], some (.eventTooLarge 6 7)) ∧
      handOut Utf8.fromUtf8? (new 6) second = ([], some (.eventTooLarge 6 7)) := by
  refine ⟨["data:a\n\n".toUTF8.toList, "data:ab".toUTF8.toList],
    ["data:a\n\ndata:ab".toUTF8.toList], ?_⟩
  decide +kernel

end Mentra.Mcp.SseParser
