import Std.Async.Timer
import TableServer.Client.CommandLine
import TableServer.Client.Connect
import TableServer.Program.Network
import TableServer.Text.Newline

namespace TableServer.Terminal

open Std.Net Std.Async

/-- A time in milliseconds, as far as a timer takes it. -/
def timerOf (timeout : Binary64) : Nat :=
  let longest := Nat.pow 2 40
  match timeout with
  | .finite false significand exponent =>
    let (n, d) := Binary64.quotient significand exponent
    min (n * 1000 / d) longest
  | .finite true _ _ => 0
  | .infinite _ => longest
  | .nan => longest

def timer (timeout : Binary64) : Async (Selector Unit) := Selector.sleep (.ofNat (timerOf timeout))

/-- Tries addresses in order; `refused` are the reasons of those before. -/
def connectFirst (port : UInt16) (refused : List String) :
    List IPAddr → Async (Except String TCP.Socket.Client)
  | [] => return .error (Client.unreachable refused)
  | address :: rest => do
    let socket ← TCP.Socket.Client.mk
    try
      socket.connect (socketAddress address port)
      return .ok socket
    catch e =>
      let reason := Client.refusal (Disk.Refusal.ofError e).number address.toString port.toNat
      connectFirst port (refused ++ [reason]) rest

/-- Connects within a time. -/
def connectWithin (timeout : Binary64) : Network Async TCP.Socket.Client := fun d port => do
  let connected : Async (Except String TCP.Socket.Client) := do
    match ← addressesOf d with
    | .error reason => return .error reason
    | .ok addresses => connectFirst port.toUInt16 [] addresses
  let expired : Async (Except String TCP.Socket.Client) := do
    Selectable.one #[.case (← timer timeout) fun () => pure (.error "")]
  Async.race connected expired

/-- What has been received and belongs to later answers. -/
abbrev Pending := IO.Ref Bytes

/-- Waits for the answer at the front of what is received. -/
partial def awaitAnswer (socket : TCP.Socket.Client) (expired : Selector Unit) (pending : Pending) :
    Async (Except ClientFault Json.Value) := do
  match Client.answer? (← pending.get) false with
  | some answer =>
    pending.modify Client.dropLine
    return answer
  | none =>
    let received : Option (Option ByteArray) ← Selectable.one #[
      .case (socket.recvSelector 65536) fun bytes => pure (some bytes),
      .case expired fun () => pure none]
    match received with
    | none => return .error .timedOut
    | some none => return (Client.answer? (← pending.get) true).getD (.error .hungUp)
    | some (some bytes) =>
      pending.modify (· ++ bytes.toList)
      awaitAnswer socket expired pending

/-- A connection of a client, with the time to wait for each answer. -/
structure Connection where
  socket : TCP.Socket.Client
  timeout : Binary64
  pending : Pending

namespace Connection

def ask (c : Connection) (text : String) : Async (Except ClientFault Json.Value) := do
  c.socket.send text.toUTF8
  awaitAnswer c.socket (← timer c.timeout) c.pending

/-- Asks, and prints the answer when it comes. -/
def askAndPrint (c : Connection) (text : String) : IO (Except ClientFault Json.Value) := do
  let answer ← (c.ask text).block
  match answer with
  | .ok v => IO.print (Query.printed v)
  | .error _ => pure ()
  return answer

end Connection

/-- Runs the statements of a command line, and gives the exit code. -/
def run (a : CommandLine.Arguments) : IO UInt32 := do
  let timeout := a.target.timeout.getD CommandLine.defaultTimeout
  let socket ← (Client.connect (connectWithin timeout) a.target).block
  let pending ← IO.mkRef []
  let connected := socket.map fun socket => Connection.mk socket timeout pending
  match ← Query.session Connection.askAndPrint connected a.statements with
  | .ok exit =>
    IO.eprint exit.err
    return exit.code.toUInt32
  | .error fault => throw (.userError (repr fault).pretty)

/-- The client at a terminal. -/
def main (arguments : List String) : IO UInt32 := do
  let input ← if CommandLine.readsInput arguments then (← IO.getStdin).readToEnd else pure ""
  let input := String.ofList (unifyNewlines input.toList)
  match CommandLine.plan arguments input with
  | .query a => run a
  | .done exit =>
    IO.print exit.out
    IO.eprint exit.err
    return exit.code.toUInt32

end TableServer.Terminal
