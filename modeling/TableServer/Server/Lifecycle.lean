import TableServer.Network.HostName
import TableServer.Server.Settings

namespace TableServer

/-- Why a server cannot listen. -/
inductive BindFault
  | addressInUse (host : String) (port : Nat)
  | refused (reason : String)
  deriving DecidableEq, Repr

def BindFault.message : BindFault → String
  | addressInUse host port =>
    s!"[Errno 98] error while attempting to bind on address {LogRecord.shownAddress host port}: " ++
      "address already in use"
  | refused reason => reason

/-- Why a server does not start. -/
inductive StartFault
  | directory (e : StoreFailure)
  | host (fault : HostFault)
  | listen (fault : BindFault)
  deriving DecidableEq, Repr

def StartFault.message : StartFault → String
  | directory (.reported e) => e.message
  | directory (.unexpected cause) => cause.message
  | host fault => fault.message
  | listen fault => fault.message

/-- Where a server listens: at a destination, or on all addresses of its machine. -/
abbrev ListenAt := Option Destination

/-- A host without a name stands for all addresses. -/
def Settings.listenAt (s : Settings) : Except HostFault ListenAt :=
  if s.host = "" then .ok none else (Destination.ofHost s.host).map some

/-- What a server asks of the system that it runs on; `σ` are the stores there. -/
structure Host (m : Type → Type) (σ : Type) where
  /-- Makes the data directory where it is missing. -/
  makeDirectory : String → m (Except StoreFailure Unit)
  openStore : Settings → m σ
  /-- Listens for clients of a store and tells the port; a port of zero asks for any. -/
  listen : ListenAt → Settings → σ → m (Except BindFault Nat)
  /-- Stops to listen, and closes all connections. -/
  close : m Unit
  /-- Waits for a signal to end, and tells its number. -/
  awaitSignal : m Nat
  write : LogRecord → m Unit

def Host.info {m : Type → Type} {σ : Type} (host : Host m σ) (source : LogSource) (message : String) :
    m Unit :=
  host.write (.of source .info message)

/-- A server, as far as it has been started. -/
structure Server (σ : Type) where
  settings : Settings
  store : Option σ
  /-- The port that the server listens on. -/
  port : Option Nat
  running : Bool

namespace Server

variable {m : Type → Type} {σ : Type} [Monad m]

def ofSettings (s : Settings) : Server σ := ⟨s, none, none, false⟩

def isListening (s : Server σ) : Bool := s.port.isSome

/-- Ends listening and running, as far as they have begun. -/
def stop (host : Host m σ) (s : Server σ) : m (Server σ) := do
  if s.isListening then
    host.close
    host.info .listener "TCP server stopped"
  if s.running then host.info .main "TableDB server stopped"
  pure { s with port := none, running := false }

/-- Stops a server that could not start, for what reason it may be. -/
def fail (host : Host m σ) (s : Server σ) (fault : StartFault) :
    m (Except StartFault Unit × Server σ) := do
  host.write ⟨.main, .error, "Server startup failed: " ++ fault.message, [], true⟩
  pure (.error fault, ← s.stop host)

/-- Makes the data directory, where the store has one. -/
def prepare (host : Host m σ) (s : Server σ) : m (Except StoreFailure Unit) :=
  match s.settings.backend with
  | .memory => pure (.ok ())
  | .json => host.makeDirectory s.settings.directory

/-- Starts to listen. -/
def listen (host : Host m σ) (store : σ) (s : Server σ) : m (Except StartFault Unit × Server σ) := do
  match s.settings.listenAt with
  | .error fault => s.fail host (.host fault)
  | .ok place =>
    match ← host.listen place s.settings store with
    | .error fault => s.fail host (.listen fault)
    | .ok port =>
      host.info .listener s!"TCP server listening on {s.settings.host}:{port}"
      host.info .main "TableDB server started successfully"
      pure (.ok (), { s with port := some port, running := true })

/-- Starts the server; one that runs already goes on as it is. The data directory is made before the
server listens. -/
def start (host : Host m σ) (s : Server σ) : m (Except StartFault Unit × Server σ) := do
  if s.running then
    host.write (.of .main .warning "Server already running")
    pure (.ok (), s)
  else
    host.info .main "Starting TableDB server"
    host.write s.settings.logged
    match ← s.prepare host with
    | .error e => s.fail host (.directory e)
    | .ok () =>
      let store ← host.openStore s.settings
      { s with store := some store }.listen host store

/-- The record that ends a server that could not start. Unexpected causes have none. -/
def farewell? (s : Server σ) : StartFault → Option LogRecord
  | .directory (.reported (.noDirectory path refused reason)) =>
    some (.of .main .error s!"Could not create data directory {path}: {reason.logged refused}")
  | .directory (.reported e) => some (.of .main .error e.message)
  | .directory (.unexpected _) => none
  | .host _ => none
  | .listen fault =>
    some (.of .main .error s!"Could not bind {s.settings.bindAddress}: {fault.message}")

/-- Runs a server until a signal, and gives the exit code of the program. An unexpected cause that keeps
the server from starting is not dealt with here. -/
def runUntilSignal (host : Host m σ) (s : Server σ) : m (Except StartFault Nat) := do
  match ← s.start host with
  | (.error fault, s) =>
    match s.farewell? fault with
    | some r =>
      host.write r
      let _ ← s.stop host
      pure (.ok 1)
    | none =>
      let _ ← s.stop host
      pure (.error fault)
  | (.ok (), s) =>
    let signal ← host.awaitSignal
    host.info .main s!"Received signal {signal}, initiating shutdown"
    let _ ← s.stop host
    pure (.ok 0)

end Server

/-- Why a server cannot be set up. -/
inductive SetupFault
  | settings (issues : List Issue)
  | level (fault : LevelFault)
  deriving DecidableEq, Repr

/-- The settings that an environment gives, with the log that they ask for. -/
def configure (environment : List (String × String)) : Except SetupFault (Settings × LogSetup) :=
  match Settings.read ⟨.default, environment, []⟩ with
  | .error issues => .error (.settings issues)
  | .ok settings =>
    match settings.logSetup with
    | .error fault => .error (.level fault)
    | .ok setup => .ok (settings, setup)

end TableServer
