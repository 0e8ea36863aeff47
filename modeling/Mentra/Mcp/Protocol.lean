import Mentra.Json.Core

/-!
# Messages of the Model Context Protocol

Model of the types of `mentra/src/mcp/protocol.rs` that a client reads: JSON-RPC responses
and the results of `initialize` and `tools/call`.  The readers are those that `serde` derives:
a structure is read from an object, or from an array of its fields in order; an optional
field may be missing or `null`, and a field with a default may be missing.
-/

namespace Mentra.Mcp

inductive JsonRpcId
  | number (value : Nat)
  | string (text : String)
  | null
  deriving DecidableEq

structure JsonRpcError where
  code : Int
  message : String
  data : Option Json := none

structure JsonRpcResponse where
  id : JsonRpcId
  result : Option Json := none
  error : Option JsonRpcError := none

/-! ## Reading fields -/

/-- An optional text that is present. -/
def optionalText : Json → Option (Option String)
  | .null => some none
  | .string text => some (some text)
  | _ => none

/-- An optional text in an object. -/
def textField (fields : List (String × Json)) (name : String) : Option (Option String) :=
  match Json.field fields name with
  | none => some none
  | some value => optionalText value

def boolValue : Json → Option Bool
  | .bool value => some value
  | _ => none

/-! ## Results -/

structure McpToolCallContent where
  kind : String
  text : Option String := none
  data : Option String := none
  mimeType : Option String := none

def McpToolCallContent.fromValue : Json → Option McpToolCallContent
  | .object fields => do
      let kind ← (Json.field fields "type").bind Json.asStr
      let text ← textField fields "text"
      let data ← textField fields "data"
      let mimeType ← textField fields "mimeType"
      return { kind, text, data, mimeType }
  | .array [kind, text, data, mimeType] => do
      return {
        kind := ← kind.asStr
        text := ← optionalText text
        data := ← optionalText data
        mimeType := ← optionalText mimeType }
  | _ => none

structure McpToolCallResult where
  content : List McpToolCallContent
  isError : Bool := false

def contentValue : Json → Option (List McpToolCallContent)
  | .array items => items.mapM McpToolCallContent.fromValue
  | _ => none

def McpToolCallResult.fromValue : Json → Option McpToolCallResult
  | .object fields => do
      let content ← (Json.field fields "content").bind contentValue
      let isError ← match Json.field fields "isError" with
        | none => some false
        | some value => boolValue value
      return { content, isError }
  | .array [content] => do
      return { content := ← contentValue content }
  | .array [content, isError] => do
      return { content := ← contentValue content, isError := ← boolValue isError }
  | _ => none

structure McpServerInfo where
  name : String
  version : String := ""

def McpServerInfo.fromValue : Json → Option McpServerInfo
  | .object fields => do
      let name ← (Json.field fields "name").bind Json.asStr
      let version ← match Json.field fields "version" with
        | none => some ""
        | some value => value.asStr
      return { name, version }
  | .array [name] => do
      return { name := ← name.asStr }
  | .array [name, version] => do
      return { name := ← name.asStr, version := ← version.asStr }
  | _ => none

structure McpInitializeResult where
  protocolVersion : String
  capabilities : Json
  serverInfo : McpServerInfo

def McpInitializeResult.fromValue : Json → Option McpInitializeResult
  | .object fields => do
      let protocolVersion ← (Json.field fields "protocolVersion").bind Json.asStr
      let capabilities ← Json.field fields "capabilities"
      let serverInfo ← (Json.field fields "serverInfo").bind McpServerInfo.fromValue
      return { protocolVersion, capabilities, serverInfo }
  | .array [protocolVersion, capabilities, serverInfo] => do
      return {
        protocolVersion := ← protocolVersion.asStr
        capabilities
        serverInfo := ← McpServerInfo.fromValue serverInfo }
  | _ => none

end Mentra.Mcp
