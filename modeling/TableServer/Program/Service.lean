import Std.Async.Signal
import Std.Sync.CancellationToken
import Std.Sync.Mutex
import TableServer.Connection.Wire
import TableServer.Program.Log
import TableServer.Program.Network
import TableServer.Server.Lifecycle

namespace TableServer

open Std.Net Std.Async

/-- What the connections of a server share. -/
structure Service where
  settings : Settings
  setup : LogSetup
  store : Std.Mutex Store
  closing : Std.CancellationToken

namespace Service

/-- Handles one chunk. No other is handled meanwhile, so that an insert keeps its table from its load to
the end of its save. -/
def handle (x : Service) (chunk : Bytes) : IO Result :=
  x.store.atomically do
    match Wire.command chunk, ← get with
    | .ok c, .files s => Disk.execute s c
    | .ok c, .memory s =>
      let (result, s) := execute s c
      set (Store.memory s)
      return result
    | .error result, _ => return result

/-- What is read at once at most, whatever the settings allow. -/
def readLimit : Nat := 262144

/-- The next chunk of a connection; there is none when either side closes it. -/
def receive (x : Service) (client : TCP.Socket.Client) : Async (Option ByteArray) :=
  Selectable.one #[
    .case (client.recvSelector (min x.settings.chunkSize readLimit).toUInt64) pure,
    .case x.closing.selector fun () => pure none]

/-- Answers the chunks of a connection until there is none, or an answer cannot be sent. -/
partial def answerChunks (x : Service) (client : TCP.Socket.Client) : Async Unit := do
  match ← x.receive client with
  | none => return
  | some chunk =>
    let chunk := chunk.toList
    if chunk.isEmpty then return
    match Wire.decode chunk with
    | .ok text => x.setup.write (.received text)
    | .error _ => pure ()
    match Wire.encode (← x.handle chunk) with
    | .error _ => return
    | .ok line =>
      client.send ⟨line.toArray⟩
      x.answerChunks client

def peerOf (client : TCP.Socket.Client) : IO String := do
  let peer ← client.getPeerName
  return LogRecord.shownAddress peer.ipAddr.toString peer.port.toNat

/-- Serves a connection and tells the log of it. -/
def serveClient (x : Service) (client : TCP.Socket.Client) : Async Unit := do
  let peer ← peerOf client
  x.setup.write (.connected peer)
  try x.answerChunks client
  catch e => x.setup.write (.connectionError peer (Disk.Refusal.ofError e).shown)
  try client.shutdown
  catch _ => pure ()
  x.setup.write (.disconnected peer)

/-- Takes connections until the server closes. -/
partial def acceptClients (x : Service) (socket : TCP.Socket.Server) : Async Unit := do
  let client ← Selectable.one #[
    .case socket.acceptSelector fun client => pure (some client),
    .case x.closing.selector fun () => pure none]
  match client with
  | none => return
  | some client =>
    background (x.serveClient client)
    x.acceptClients socket

/-- Listens on one address, and tells the port. -/
def listenOn (address : IPAddr) (port : Nat) : IO (Except BindFault (TCP.Socket.Server × Nat)) := do
  let socket ← TCP.Socket.Server.mk
  try
    socket.bind (socketAddress address port.toUInt16)
    socket.listen 100
    return .ok (socket, (← socket.getSockName).port.toNat)
  catch e =>
    let r := Disk.Refusal.ofError e
    return .error (if r.number = 98 then .addressInUse address.toString port else .refused r.shown)

/-- Listens on all addresses of a host; the port is that of the first. -/
def listenOnAll (x : Service) (first : Option Nat) : List IPAddr → IO (Except BindFault Nat)
  | [] => return first.elim (.error (.refused "no address")) .ok
  | address :: rest => do
    match ← listenOn address x.settings.port with
    | .error fault => return .error fault
    | .ok (socket, port) =>
      (background (x.acceptClients socket)).block
      x.listenOnAll (first.or (some port)) rest

def listen (x : Service) (place : ListenAt) : IO (Except BindFault Nat) := do
  match ← (addressesOf (place.getD everyAddress)).block with
  | .error reason => return .error (.refused reason)
  | .ok addresses => x.listenOnAll none addresses

end Service

/-- Waits for the first of the signals that end a server. -/
def awaitSignal : IO Nat := do
  let terminate ← Signal.Waiter.mk .sigterm false
  let interrupt ← Signal.Waiter.mk .sigint false
  Async.block (Selectable.one #[
    .case terminate.selector fun () => pure 15,
    .case interrupt.selector fun () => pure 2])

/-- The system as a host for one server: sockets, signals, and the disk. -/
def systemHost (setup : LogSetup) (closing : Std.CancellationToken) : Host IO (Std.Mutex Store) where
  makeDirectory := Disk.makeDataDirectory
  openStore s := Std.Mutex.new (s.store .empty)
  listen place settings store := Service.listen ⟨settings, setup, store, closing⟩ place
  close := closing.cancel .shutdown
  awaitSignal := awaitSignal
  write := setup.write

end TableServer
