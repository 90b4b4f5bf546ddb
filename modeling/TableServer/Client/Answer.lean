import TableServer.Json.Reader
import TableServer.Network.HostName
import TableServer.Text.Utf8

namespace TableServer

/-- What can go wrong for a client. -/
inductive ClientFault
  | notConnected
  | cannotConnect (address reason : String)
  | host (fault : HostFault)
  | portRange
  | portSize
  | noHost
  | noHostAtPort
  | noTimeout
  | hungUp
  | timedOut
  | lineTooLong
  | notUtf8
  | malformed (fault : Json.Fault)
  deriving DecidableEq, Repr

namespace ClientFault

def message : ClientFault → String
  | notConnected => "Not connected"
  | cannotConnect address reason => s!"Cannot connect to {address}: {reason}"
  | host fault => fault.message
  | portRange => "connect(): port must be 0-65535."
  | portSize => "Python int too large to convert to C long"
  | noHost => "getaddrinfo() argument 1 must be string or None"
  | noHostAtPort => "inet_pton() argument 2 must be str, not list"
  | noTimeout => "'<=' not supported between instances of 'list' and 'int'"
  | hungUp => "Server closed the connection"
  | timedOut => ""
  | lineTooLong => "Separator is not found, and chunk exceed the limit"
  | notUtf8 => ""
  | malformed (.malformed complaint position) => Json.faultMessage complaint position
  | malformed .tooDeep => ""
  | malformed (.tooLong _) => ""

/-- Faults of the connection itself, which a client is prepared for. -/
def ofConnection : ClientFault → Bool
  | notConnected => true
  | cannotConnect _ _ => true
  | hungUp => true
  | _ => false

end ClientFault

namespace Client

/-- The longest line in bytes that a client takes, its end apart. -/
def lineLimit : Nat := 65536

/-- The line at the front of what has been received; there is none while it is still on its way. When
the server has closed the connection the rest counts as a line. -/
def line? (received : Bytes) (closed : Bool) : Option (Except ClientFault Bytes) :=
  let body := received.takeWhile (· ≠ 10)
  if lineLimit < body.length then some (.error .lineTooLong)
  else if body.length < received.length then some (.ok (body ++ [10]))
  else if closed then some (.ok received)
  else none

/-- What has been received behind the line at the front. -/
def dropLine (received : Bytes) : Bytes := (received.dropWhile (· ≠ 10)).drop 1

/-- The value on a line. A line of no bytes says that the server has gone. -/
def readLine (line : Bytes) : Except ClientFault Json.Value :=
  if line.isEmpty then .error .hungUp
  else match Utf8.decode line with
    | none => .error .notUtf8
    | some cs => (Json.read cs).mapError .malformed

/-- The answer at the front of what has been received, if it can be told yet. Each answer is a line with
one JSON value. -/
def answer? (received : Bytes) (closed : Bool) : Option (Except ClientFault Json.Value) :=
  (line? received closed).map fun line => line.bind readLine

/-- Whether an answer is an object that tells of an error. -/
def isErrorAnswer : Json.Value → Bool
  | .object members => (Json.member? (Text.ofString "error") members).isSome
  | _ => false

end Client

end TableServer
