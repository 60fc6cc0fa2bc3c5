import ClosedForm.CommandLine.Print
import ClosedForm.Server.Router

/-!
# The command that starts the server

The command reads the port and the limits from its arguments and says what the server offers.
Listening itself is not described here, except that a port that is no port cannot be listened on.
-/

namespace ClosedForm
namespace CommandLine

/-- The options of the command. -/
def serveOptions : List OptionSpec := [⟨"port", .number⟩, ⟨"release", .switch⟩,
  ⟨"max-degree", .number⟩, ⟨"max-terms", .number⟩, ⟨"max-check-range", .number⟩]

/-- The help of the command. -/
def serveHelp : String :=
  "Usage: mcp-server [--port PORT] [--release] [--max-degree MAX-DEGREE] " ++
    "[--max-terms MAX-TERMS] [--max-check-range MAX-CHECK-RANGE]\n\n" ++
  "Options:\n" ++
  "  --port PORT            port to listen on [default: 8080]\n" ++
  "  --release              run gin in release mode\n" ++
  "  --max-degree MAX-DEGREE\n" ++
  "                         largest degree estimate a tool call may simplify [default: 64]\n" ++
  "  --max-terms MAX-TERMS\n" ++
  "                         most summation terms one evaluation may add up [default: 1048576]\n" ++
  "  --max-check-range MAX-CHECK-RANGE\n" ++
  "                         most points one check may visit [default: 10000]\n" ++
  "  --help, -h             display this help and exit\n"

/-- What the server says when it starts. -/
def banner (port : Int64) : String :=
  "gosigma MCP server listening on :" ++ Text.integer port.toInt ++ "\n" ++
  "  POST /tool    execute a tool call\n" ++
  "  GET  /schema  tool schema for agent registration\n" ++
  "  GET  /health  health check\n" ++
  "  GET  /metrics prometheus metrics\n"

/-- Whether a number is that of a port. -/
def isPort (port : Int64) : Bool := 0 ≤ port && port ≤ 65535

/-- Runs the command on its arguments, up to the point where it listens. -/
def serve (args : List String) : Run :=
  match read serveOptions 0 args with
  | .help => { stdout := serveHelp }
  | .mistake m => { failure := some (.arguments m) }
  | .run args =>
    let port := args.number "port" 8080
    { stderr := banner port
      failure := if isPort port then none else some (.invalidPort port.toInt) }

end CommandLine
end ClosedForm
