import Std.Time
import TableServer.Server.Log

namespace TableServer

/-- The current time, as the records of a format tell it. -/
def LogFormat.now : LogFormat → IO String
  | .json => return (← Std.Time.PlainDateTime.now).format "uuuu-MM-dd'T'HH:mm:ss.SSSSSS"
  | .text => return (← Std.Time.PlainDateTime.now).format "uuuu-MM-dd HH:mm:ss,SSS"

/-- Writes a record to the error output, if the log keeps it. -/
def LogSetup.write (s : LogSetup) (r : LogRecord) : IO Unit := do
  if s.keeps r then IO.eprintln (r.line s.format (← s.format.now))

end TableServer
