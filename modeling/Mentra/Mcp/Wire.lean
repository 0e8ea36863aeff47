import Mentra.Foundation.Text

/-!
# The event stream parser of the MCP transports

Model of `SseParser` in `mentra/src/mcp/sse/wire.rs`.  The parser is fed chunks of bytes and
gives back the events that a chunk completes.  Reading a line as UTF-8 is a parameter.
-/

namespace Mentra.Mcp

open Foundation

structure SseEvent where
  event : String
  data : String
  deriving DecidableEq

inductive SseWireError
  | eventTooLarge (limit observed : Nat)
  | invalidUtf8
  deriving DecidableEq

structure SseParser where
  /-- The bytes of the line that is being read. -/
  line : List UInt8 := []
  data : String := ""
  event : Option String := none
  /-- The last byte was a carriage return. -/
  pendingCr : Bool := false
  atStreamStart : Bool := true
  maxEventBytes : Nat

namespace SseParser

def new (maxEventBytes : Nat) : SseParser where
  maxEventBytes

/-- What the parser keeps of the event it is in. -/
def observed (parser : SseParser) : Nat :=
  (parser.event.map String.utf8ByteSize).getD 0 + parser.data.utf8ByteSize + parser.line.length

def checkBounds (parser : SseParser) : Except SseWireError SseParser :=
  if parser.observed > parser.maxEventBytes then
    .error (.eventTooLarge parser.maxEventBytes parser.observed)
  else .ok parser

/-- The event read so far, if it has data. -/
def takeEvent (parser : SseParser) : Option SseEvent × SseParser :=
  let rest := { parser with event := none, data := "" }
  if parser.data.isEmpty then (none, rest)
  else
    (some {
      event := parser.event.getD "message"
      -- The line feed behind the last `data` field is dropped.
      data := String.ofList parser.data.toList.dropLast }, rest)

/-- `split_once(':')`, with one blank behind the colon dropped. -/
def splitField (line : String) : String × String :=
  match line.toList.span (· ≠ ':') with
  | (name, _ :: value) =>
    let value := String.ofList value
    (String.ofList name, (Text.stripPrefix? " " value).getD value)
  | (_, []) => (line, "")

/-- What a line without its ending adds to the event. -/
def applyLine (parser : SseParser) (line : String) :
    Except SseWireError (Option SseEvent × SseParser) :=
  if line.isEmpty then .ok parser.takeEvent
  else if (Text.stripPrefix? ":" line).isSome then .ok (none, parser)
  else
    match splitField line with
    | ("event", value) => .ok (none, { parser with event := some value })
    | ("data", value) => do
        return (none, ← checkBounds { parser with data := parser.data ++ value ++ "\n" })
    | _ => .ok (none, parser)

variable (fromUtf8 : List UInt8 → Option String)

def endLine (parser : SseParser) : Except SseWireError (Option SseEvent × SseParser) :=
  match fromUtf8 parser.line with
  | none => .error .invalidUtf8
  | some line =>
    let line := if parser.atStreamStart then (Text.stripPrefix? "\uFEFF" line).getD line else line
    applyLine { parser with line := [], atStreamStart := false } line

/-- One byte of the stream. -/
def feedByte (parser : SseParser) (byte : UInt8) :
    Except SseWireError (Option SseEvent × SseParser) :=
  -- A line feed behind a carriage return ends no line of its own.
  if parser.pendingCr && byte = 10 then .ok (none, { parser with pendingCr := false })
  else if byte = 10 then endLine fromUtf8 { parser with pendingCr := false }
  else if byte = 13 then endLine fromUtf8 { parser with pendingCr := true }
  else do
    return (none, ← checkBounds { parser with pendingCr := false, line := parser.line ++ [byte] })

/-- Feed a chunk.  An error loses the events that the chunk completed before it. -/
def feed (parser : SseParser) : List UInt8 → Except SseWireError (List SseEvent × SseParser)
  | [] => .ok ([], parser)
  | byte :: bytes => do
      let (event, parser) ← feedByte fromUtf8 parser byte
      let (events, parser) ← feed parser bytes
      return (event.toList ++ events, parser)

end SseParser

end Mentra.Mcp
