import TableServer.Client.Answer
import TableServer.Connection.Wire

namespace TableServer

/-- How a call of the client ended. -/
inductive CallOutcome
  | returned (answer : Json.Value)
  | failed (fault : ClientFault)

/-- A client and a server on one connection, with what is on its way between them. A client waits for one
answer at a time, but what it gives up waiting for arrives all the same. A server takes for a statement
whatever it can read at once. -/
structure Exchange (σ : Type) where
  /-- How many bytes the server reads at once, at the most. -/
  size : Nat
  store : σ
  /-- What the client has written and the server has not read. -/
  requests : Bytes
  replies : Bytes
  /-- Whether the server has closed the connection. -/
  closed : Bool
  /-- The statement whose answer the client waits for. -/
  waiting : Option String
  /-- Statements called so far, each with its outcome. -/
  calls : List (String × CallOutcome)
  /-- What the server has read so far, each time with the result. -/
  served : List (Bytes × Result)

/-- The server reads when some of the bytes written by the client have arrived, and what others do on
their connections changes the store. -/
inductive ExchangeEvent (σ : Type)
  | call (text : String)
  | serve (arrived : Nat)
  | elsewhere (store : σ)
  | receive
  | expire

namespace Exchange

variable {σ : Type}

/-- A connection at its start: nothing has been asked for and nothing is on its way. -/
def start (size : Nat) (store : σ) : Exchange σ := ⟨size, store, [], [], false, none, [], []⟩

/-- The call that waits for an answer ends. -/
def finish (x : Exchange σ) (text : String) (outcome : CallOutcome) : Exchange σ :=
  { x with waiting := none, calls := x.calls ++ [(text, outcome)] }

def ofAnswer : Except ClientFault Json.Value → CallOutcome
  | .ok v => .returned v
  | .error fault => .failed fault

/-- What the server reads at once when some bytes have arrived. -/
def chunk (x : Exchange σ) (arrived : Nat) : Bytes := x.requests.take (min arrived x.size)

/-- Reads a chunk and answers it. An answer that cannot be written ends the connection. -/
def stepServe [TableStore σ] (x : Exchange σ) (arrived : Nat) : Exchange σ :=
  let chunk := x.chunk arrived
  let (result, store) := handleChunk x.store chunk
  let x := { x with
    store := store
    requests := x.requests.drop chunk.length
    served := x.served ++ [(chunk, result)] }
  match Wire.encode result with
  | .ok line => { x with replies := x.replies ++ line }
  | .error _ => { x with closed := true }

/-- What an event makes of the exchange; it is `none` where the event cannot happen. Replies count as
having arrived as soon as they are written, all of each line at once. So a line that is too long is
dropped whole when it is read, and the case is left out that only a part of it has arrived by then: the
client would drop that part alone, and read the rest of the line in the next call. -/
def step [TableStore σ] (x : Exchange σ) : ExchangeEvent σ → Option (Exchange σ)
  | .call text =>
    match x.waiting with
    | some _ => none
    | none => some { x with
        waiting := some text
        requests := x.requests ++ Utf8.encode text.toList }
  | .serve arrived => if x.closed || (x.chunk arrived).isEmpty then none else some (x.stepServe arrived)
  | .elsewhere store => some { x with store := store }
  | .receive =>
    match x.waiting, Client.answer? x.replies x.closed with
    | some text, some answer =>
      some ({ x with replies := Client.dropLine x.replies }.finish text (ofAnswer answer))
    | _, _ => none
  | .expire =>
    match x.waiting with
    | some text => some (x.finish text (.failed .timedOut))
    | none => none

/-- Lets events happen one after another. -/
def run [TableStore σ] (x : Exchange σ) (events : List (ExchangeEvent σ)) : Option (Exchange σ) :=
  events.foldlM step x

end Exchange

/-- A statement and its answer, with nothing between client and server. An answer that cannot be written
ends all asking. -/
def askDirectly {σ : Type} [TableStore σ] (text : String) :
    ExceptT WireFault (StateM σ) (Except ClientFault Json.Value) := do
  let (result, store) := handleChunk (← get) (Utf8.encode text.toList)
  set store
  return Client.readLine (← Wire.encode result)

end TableServer
