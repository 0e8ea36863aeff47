import Mentra.Foundation.Text

/-!
# Names of bridged tools

Model of the names in `mentra/src/mcp/bridge.rs`.  A bridged tool is named after its server and
itself, and the name is read back by cutting at the first `__`.  A server name that is accepted
has no `__` and ends in no `_`, so that cut is the separator, whatever the tool name starts with.
-/

namespace Mentra.Mcp

open Foundation List

inductive McpServerNameError
  | empty
  | containsDoubleUnderscore (serverName : String)
  | endsWithUnderscore (serverName : String)

def mcpToolPrefix : String :=
  "mcp__"

def mcpToolName (serverName toolName : String) : String :=
  mcpToolPrefix ++ serverName ++ "__" ++ toolName

/-- `str::split_once`: cut at the first occurrence of the separator. -/
def splitOnce (separator : List Char) : List Char → Option (List Char × List Char)
  | [] => if separator = [] then some ([], []) else none
  | char :: rest =>
    if separator <+: char :: rest then some ([], (char :: rest).drop separator.length)
    else (splitOnce separator rest).map fun cut => (char :: cut.1, cut.2)

def parseMcpToolName (name : String) : Option (String × String) := do
  let rest ← Text.stripPrefix? mcpToolPrefix name
  let (server, tool) ← splitOnce "__".toList rest.toList
  return (String.ofList server, String.ofList tool)

def validateMcpServerName (serverName : String) : Except McpServerNameError Unit :=
  if serverName.isEmpty then .error .empty
  else if "__".toList <:+: serverName.toList then .error (.containsDoubleUnderscore serverName)
  else if serverName.toList.getLast? = some '_' then .error (.endsWithUnderscore serverName)
  else .ok ()

theorem validateMcpServerName_eq_ok_iff {serverName : String} :
    validateMcpServerName serverName = .ok () ↔
      serverName ≠ "" ∧ ¬ ['_', '_'] <:+: serverName.toList ∧
        serverName.toList.getLast? ≠ some '_' := by
  simp only [validateMcpServerName, String.isEmpty_iff]
  split_ifs <;> simp_all

/-- The first `__` of a joined name is the separator. -/
theorem splitOnce_append {server : List Char} (single : ¬ ['_', '_'] <:+: server)
    (ends : server.getLast? ≠ some '_') (tool : List Char) :
    splitOnce ['_', '_'] (server ++ ['_', '_'] ++ tool) = some (server, tool) := by
  induction server with
  | nil => exact if_pos (prefix_append _ _)
  | cons char rest ih =>
    have later : ¬ ['_', '_'] <:+: rest := fun inside => single (infix_cons inside)
    -- A `__` at the front lies in the server name or across its end.
    have front : ¬ ['_', '_'] <+: char :: (rest ++ ['_', '_'] ++ tool) := by
      rintro ⟨after, split⟩
      obtain ⟨rfl, behind⟩ := List.cons.inj split
      cases rest with
      | nil => exact ends rfl
      | cons next rest =>
        have second : '_' = next := (List.cons.inj behind).1
        exact single ⟨[], rest, by rw [second]; rfl⟩
    have endsLater : rest.getLast? ≠ some '_' := by
      cases rest with
      | nil => exact nofun
      | cons next rest => rwa [getLast?_cons_cons] at ends
    rw [cons_append, cons_append, splitOnce, if_neg front, ih later endsLater]
    rfl

theorem parseMcpToolName_of_valid {serverName : String}
    (valid : validateMcpServerName serverName = .ok ()) (toolName : String) :
    parseMcpToolName (mcpToolName serverName toolName) = some (serverName, toolName) := by
  obtain ⟨-, single, ends⟩ := validateMcpServerName_eq_ok_iff.mp valid
  have stripped : Text.stripPrefix? mcpToolPrefix (mcpToolName serverName toolName) =
      some (serverName ++ "__" ++ toolName) := by
    rw [Text.stripPrefix?_eq_some_iff, mcpToolName, String.append_assoc, String.append_assoc,
      String.append_assoc]
  have cut := splitOnce_append single ends toolName.toList
  rw [append_assoc, cons_append, singleton_append] at cut
  simp [parseMcpToolName, stripped, cut]

/-- The name of a bridged tool is read back as its server and itself, so that no two pairs
share a name. -/
theorem parseMcpToolName_mcpToolName (serverName toolName : String)
    (valid : validateMcpServerName serverName = .ok ()) :
    parseMcpToolName (mcpToolName serverName toolName) = some (serverName, toolName) ∧
      ∀ otherServer otherTool, validateMcpServerName otherServer = .ok () →
        mcpToolName otherServer otherTool = mcpToolName serverName toolName →
          otherServer = serverName ∧ otherTool = toolName := by
  refine ⟨parseMcpToolName_of_valid valid toolName, ?_⟩
  intro otherServer otherTool otherValid same
  have other := parseMcpToolName_of_valid otherValid otherTool
  rw [same, parseMcpToolName_of_valid valid toolName] at other
  exact Prod.mk.inj (Option.some.inj other.symm)

/-- A tool name that starts with `_`. -/
theorem parseMcpToolName_files :
    parseMcpToolName "mcp__files____read" = some ("files", "__read") ∧
      ∀ otherServer otherTool, validateMcpServerName otherServer = .ok () →
        mcpToolName otherServer otherTool = "mcp__files____read" →
          otherServer = "files" ∧ otherTool = "__read" :=
  parseMcpToolName_mcpToolName "files" "__read" rfl

end Mentra.Mcp
