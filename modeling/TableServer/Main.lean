import TableServer.Program.Service
import TableServer.Program.Terminal

namespace TableServer

/-- Runs the server with settings from the environment. -/
def serverMain : IO UInt32 := do
  let environment ← Std.Internal.UV.System.osEnviron
  match configure environment.toList with
  | .error (.settings issues) =>
    IO.eprintln (Settings.errorHeadline issues)
    for issue in issues do IO.eprintln s!"  {issue.cause.message}"
    return 1
  | .error (.level fault) => throw (.userError fault.message)
  | .ok (settings, setup) =>
    let host := systemHost setup (← Std.CancellationToken.new)
    match ← (Server.ofSettings settings).runUntilSignal host with
    | .ok code => return code.toUInt32
    | .error fault => throw (.userError fault.message)

end TableServer

/-- With the word `query` first the program is the client, and the rest is its command line; else it is
the server. -/
def main : List String → IO UInt32
  | "query" :: arguments => TableServer.Terminal.main arguments
  | _ => TableServer.serverMain
