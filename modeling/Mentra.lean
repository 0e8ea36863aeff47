import Mentra.A2a.Output
import Mentra.Background.Ids
import Mentra.Compaction.Files
import Mentra.Compaction.Replacement
import Mentra.FileStore.Component
import Mentra.FileStore.Crash
import Mentra.Gateway.Callers
import Mentra.Mcp.Bridge
import Mentra.Mcp.Chunks
import Mentra.Mcp.StreamableHttp.Sessions
import Mentra.Permission.Histories
import Mentra.Permission.Races
import Mentra.Policy.Confinement
import Mentra.Process.Capture
import Mentra.Provider.Assemblers
import Mentra.Provider.Boundaries
import Mentra.Provider.Calls
import Mentra.Provider.Completions
import Mentra.Provider.Texts
import Mentra.Runner.Answered
import Mentra.Runner.Budget
import Mentra.Runner.Deferrals
import Mentra.Runner.Deliveries
import Mentra.Runner.Restored
import Mentra.Task.Boards
import Mentra.Team.Inbox
import Mentra.Team.Shutdowns
import Mentra.Tool.BashValidation
import Mentra.Tool.Schema
