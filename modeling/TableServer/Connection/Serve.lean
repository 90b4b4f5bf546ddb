import TableServer.Connection.Wire

namespace TableServer

/-- Cuts bytes into pieces of a size; the last may be shorter. A size of zero counts as one. -/
def pieces (size : Nat) (bytes : Bytes) : List Bytes :=
  match bytes with
  | [] => []
  | b :: rest => (b :: rest.take (size - 1)) :: pieces size (rest.drop (size - 1))
  termination_by bytes.length
  decreasing_by simp only [List.length_drop, List.length_cons]; omega

/-- How much of its input a connection reads at once. -/
inductive ReadSize
  | nothing
  | upTo (size : Nat)
  | everything
  deriving DecidableEq, Repr

namespace ReadSize

/-- Zero bytes are nothing, and there is no end to fewer. -/
def ofInt (n : Int) : ReadSize :=
  if n = 0 then nothing else if n < 0 then everything else upTo n.toNat

/-- The pieces of a write that can be read before more is written. -/
def piecesOf (write : Bytes) : ReadSize → List Bytes
  | nothing => []
  | upTo size => pieces size write
  | everything => []

/-- What can be read only once the input has ended. -/
def rest (writes : List Bytes) : ReadSize → List Bytes
  | nothing => []
  | upTo _ => []
  | everything => if writes.flatten.isEmpty then [] else [writes.flatten]

end ReadSize

/-- What goes wrong with a connection: sending an answer, counted from one, or closing. -/
structure ConnectionFaults where
  send : Option Nat
  close : Bool
  deriving DecidableEq, Repr

/-- Why a connection is served no longer. -/
inductive Ending
  | endOfInput
  | sendFailed
  | unwritable (fault : WireFault)
  deriving DecidableEq, Repr

/-- What has become of pieces: the lines that were sent, the store, and why no more pieces are answered.
-/
structure Served (σ : Type) where
  lines : List Bytes
  store : σ
  ending : Ending

/-- The connections that are open, and the store that they share. -/
structure Listener (σ : Type) where
  store : σ
  connections : Nat

/-- What became of a connection. -/
structure ConnectionReport where
  openAtStart : Nat
  lines : List Bytes
  ending : Ending
  /-- Whether it ended before its input did. -/
  early : Bool
  closed : Bool

variable {σ : Type} [TableStore σ]

/-- Answers pieces until the input ends or an answer fails; `answered` counts those before. Each piece is
one statement, and is answered with one line before the next is read. -/
def serve (send : Option Nat) (answered : Nat) (store : σ) : List Bytes → Served σ
  | [] => ⟨[], store, .endOfInput⟩
  | piece :: rest =>
    let (result, store) := handleChunk store piece
    match Wire.encode result with
    | .error fault => ⟨[], store, .unwritable fault⟩
    | .ok line =>
      if send = some (answered + 1) then ⟨[line], store, .sendFailed⟩
      else
        let served := serve send (answered + 1) store rest
        { served with lines := line :: served.lines }

/-- Whether a connection is closed after all. It is, also where waiting for that fails. -/
def closeConnection (faults : ConnectionFaults) : Bool :=
  let waited : Except Unit Unit := if faults.close then .error () else .ok ()
  match waited with
  | .ok () => true
  | .error () => true

/-- Whether a connection ends before its input does. -/
def endsEarly (ending : Ending) : ReadSize → Bool
  | .nothing => true
  | .upTo _ => ending ≠ .endOfInput
  | .everything => false

/-- Serves a connection from its start to its end. One that reads nothing is over at once, and nobody
sees it open. -/
def Listener.serveConnection (l : Listener σ) (faults : ConnectionFaults) (size : ReadSize)
    (writes : List Bytes) : ConnectionReport × Listener σ :=
  let opened := l.connections + 1
  let served := serve faults.send 0 l.store (writes.flatMap size.piecesOf ++ size.rest writes)
  (⟨if size = .nothing then l.connections else opened, served.lines, served.ending,
    endsEarly served.ending size, closeConnection faults⟩, ⟨served.store, opened - 1⟩)

end TableServer
