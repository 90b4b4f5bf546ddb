import TableServer.Execution.Run
import TableServer.Json.Writer
import TableServer.Text.Utf8

namespace TableServer

/-- Why a result has no line. -/
inductive WireFault
  | longNumber
  | unpairedSurrogate
  deriving DecidableEq, Repr

namespace Wire

/-- The line of a result: compact JSON with a newline behind it. Too long a number shows before a text
that cannot be encoded. -/
def encode (r : Result) : Except WireFault Bytes :=
  match Json.write .compact r.payload with
  | .error _ => .error .longNumber
  | .ok text =>
    match text.chars? with
    | none => .error .unpairedSurrogate
    | some cs => .ok (Utf8.encode (cs ++ ['\n']))

def invalidUtf8 : Result := .parseFailure "statement is not valid UTF-8"

/-- The statement in a chunk, or the result to answer with. -/
def decode (chunk : Bytes) : Except Result String :=
  match Utf8.decode chunk with
  | some cs => .ok (String.ofList cs)
  | none => .error invalidUtf8

/-- The command in a chunk, or the result to answer with. -/
def command (chunk : Bytes) : Except Result Command :=
  match decode chunk with
  | .error result => .error result
  | .ok text =>
    match parse statementDigits text with
    | .error rejection => .error (.parseFailure rejection.message)
    | .ok c => .ok c

end Wire

/-- Handles a received chunk, which is one statement: the result to answer with, and the store after it.
-/
def handleChunk {σ : Type} [TableStore σ] (store : σ) (chunk : Bytes) : Result × σ :=
  match Wire.decode chunk with
  | .ok text => executeStatement store text
  | .error result => (result, store)

theorem handleChunk_of_command {σ : Type} [TableStore σ] (store : σ) {chunk : Bytes} {c : Command}
    (h : Wire.command chunk = .ok c) : handleChunk store chunk = execute store c := by
  unfold Wire.command at h
  unfold handleChunk
  cases hd : Wire.decode chunk with
  | error r => simp [hd] at h
  | ok text =>
    cases hp : parse statementDigits text with
    | error e => simp [hd, hp] at h
    | ok d =>
      simp only [hd, hp, Except.ok.injEq] at h
      simp [executeStatement, hp, h]

theorem handleChunk_of_no_command {σ : Type} [TableStore σ] (store : σ) {chunk : Bytes} {r : Result}
    (h : Wire.command chunk = .error r) : handleChunk store chunk = (r, store) := by
  unfold Wire.command at h
  unfold handleChunk
  cases hd : Wire.decode chunk with
  | error e => simp_all
  | ok text =>
    cases hp : parse statementDigits text with
    | error e =>
      simp only [hd, hp, Except.error.injEq] at h
      simp [executeStatement, hp, h]
    | ok d => simp [hd, hp] at h

end TableServer
