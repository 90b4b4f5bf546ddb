import Std.Async.DNS
import Std.Async.TCP
import TableServer.Network.HostName
import TableServer.Program.Disk

namespace TableServer

open Std.Net Std.Async

/-- The words for a name whose addresses cannot be found. -/
def unresolved (r : Disk.Refusal) : String :=
  match r.number with
  | 3001 => HostName.unanswered
  | 3008 => HostName.unknown
  | _ => r.shown

def ipAddress? : Address → Option IPAddr
  | .four number => (IPv4Addr.ofString (Address.four number).toString).map .v4
  | .six written => (IPv6Addr.ofString written).map .v6

/-- The addresses of a destination. -/
def addressesOf (d : Destination) : Async (Except String (List IPAddr)) := do
  match d with
  | .address a => return (ipAddress? a).elim (.error HostName.unknown) fun a => .ok [a]
  | .name name =>
    if !HostName.isAskable name.toList then return .error HostName.unknown
    try return .ok (← DNS.getAddrInfo name "").toList.eraseDups
    catch e => return .error (unresolved (.ofError e))

/-- All addresses of this machine. -/
def everyAddress : Destination := .address (.four 0)

def socketAddress (address : IPAddr) (port : UInt16) : SocketAddress :=
  match address with
  | .v4 a => .v4 ⟨a, port⟩
  | .v6 a => .v6 ⟨a, port⟩

end TableServer
