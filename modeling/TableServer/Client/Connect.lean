import TableServer.Client.Answer
import TableServer.Number.Binary64
import TableServer.Text.Quoted

namespace TableServer

/-- What becomes of a request for a connection to a port: a refusal comes with its reason. -/
abbrev Network (m : Type → Type) (χ : Type) := Destination → Nat → m (Except String χ)

namespace Client

/-- The reason of a system that does not let a client through to an address. A network that is not there
shows at once, all else only after a call. -/
def refusal (number : Nat) (host : String) (port : Nat) : String :=
  if number = 101 then "[Errno 101] Network is unreachable"
  else s!"[Errno {number}] Connect call failed ({quoted host}, {port})"

/-- The reason for all addresses of a host together. -/
def unreachable : List String → String
  | [] => "no address"
  | reason :: more =>
    if more.all (· = reason) then reason
    else "Multiple exceptions: " ++ String.intercalate ", " (reason :: more)

/-- Where a client is to connect, and how long that may take. Each may be given as nothing. -/
structure Target where
  host : Option String
  port : Option Int
  timeout : Option Binary64
  deriving DecidableEq, Repr

/-- What is given as nothing is shown as an empty list. -/
def Target.shown (t : Target) : String :=
  (t.host.getD "[]") ++ ":" ++ (t.port.map toString).getD "[]"

/-- Ports of hosts that are looked up count by their low bits, and those below zero are none. -/
def servicePort? (port : Int) : Option Nat :=
  let low := (port % (Nat.pow 2 32 : Nat)).toNat
  if low < Nat.pow 2 31 then some (low % 65536) else none

/-- The destination of a target with its port. Only an address in plain form is strict about ports. -/
def Target.route (t : Target) : Except ClientFault (Destination × Nat) :=
  let longest : Int := Nat.pow 2 63
  match t.host, t.port with
  | none, none => .error .noHost
  | none, some _ => .error .noHostAtPort
  | some host, none =>
    match HostName.encode host.toList with
    | .error fault => .error (.host fault)
    | .ok _ => .error (.cannotConnect t.shown "Int or String expected")
  | some host, some port =>
    match Destination.ofHost host with
    | .error fault => .error (.host fault)
    | .ok d =>
      if (Address.ofPlain? host).isSome then
        if 0 ≤ port ∧ port ≤ 65535 then .ok (d, port.toNat) else .error .portRange
      else if port < -longest ∨ longest ≤ port then .error .portSize
      else match servicePort? port with
        | some port => .ok (d, port)
        | none =>
          .error (.cannotConnect t.shown "[Errno -8] Servname not supported for ai_socktype")

/-- Connects a client to a server within a time; where that is used up from the start nothing is tried. -/
def connect {m : Type → Type} {χ : Type} [Monad m] (network : Network m χ) (t : Target) :
    m (Except ClientFault χ) :=
  match t.timeout with
  | none => pure (.error .noTimeout)
  | some timeout =>
    if timeout.atMostZero then pure (.error (.cannotConnect t.shown ""))
    else match t.route with
      | .error fault => pure (.error fault)
      | .ok (d, port) => do
        return (← network d port).mapError fun reason => .cannotConnect t.shown reason

end Client

end TableServer
