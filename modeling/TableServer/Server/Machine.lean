import TableServer.Server.Lifecycle

namespace TableServer

/-- What the machine says to a request to listen; a port of zero asks for any port. -/
abbrev Bind := ListenAt → Nat → Except BindFault Nat

/-- A machine that a server can run on without a system: its files are a volume, its log is a list, and
who may listen where is a function. -/
structure Machine where
  volume : Volume
  log : List LogRecord
  bind : Bind
  /-- The number of the signal that comes once the server waits for one. -/
  signal : Nat

namespace Machine

def makeDirectory (directory : String) (m : Machine) : Except StoreFailure Unit × Machine :=
  let (result, v) := FileStore.ensureDirectory m.volume directory
  (result, { m with volume := v })

def host : Host (StateM Machine) Store where
  makeDirectory := makeDirectory
  openStore s := fun m => (s.store m.volume, m)
  listen place s _ := fun m => (m.bind place s.port, m)
  close := pure ()
  awaitSignal := fun m => (m.signal, m)
  write r := fun m => ((), { m with log := m.log ++ [r] })

end Machine

end TableServer
