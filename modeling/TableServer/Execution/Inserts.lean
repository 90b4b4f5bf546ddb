import TableServer.Execution.Run

namespace TableServer

/-- How an insert has ended: with a result, or cancelled and without one. -/
inductive Outcome
  | answered (result : Result)
  | cancelled
  deriving DecidableEq, Repr

/-- How far an insert has come. -/
inductive Phase
  | idle
  | queued
  | loading
  | loaded (outcome : Except StoreFailure (List Record))
  | saving (record : Record)
  /-- Cancelled, with the save still to be waited for. -/
  | settling
  | finished (outcome : Outcome)

/-- The save of an insert, which goes on whatever becomes of the insert itself. -/
inductive Write
  | unstarted
  | pending (records : List Record)
  | landed (outcome : Except StoreFailure Unit)

/-- An insert with how far it has come, and its save, which has a life of its own. -/
structure Task where
  insertion : Insertion
  phase : Phase
  write : Write

def Task.ofInsertion (i : Insertion) : Task := ⟨i, .idle, .unstarted⟩

def Task.table (t : Task) : String := t.insertion.table

def Task.outcome? (t : Task) : Option Outcome :=
  match t.phase with
  | .finished outcome => some outcome
  | _ => none

/-- Inserts over one store that run at the same time. Each table has a lock that waiters get in the order
in which they came, and an insert holds it from before its load until after its save. -/
structure Inserts (σ : Type) where
  store : σ
  tasks : List Task
  held : List String
  queue : List Nat

/-- An event of an insert, which is given by its number. A load or save that is refused fails without a
look at the store. -/
inductive Event
  | arrive (task : Nat)
  | acquire (task : Nat)
  | load (task : Nat) (refusal : Option StoreFailure)
  | build (task : Nat)
  | land (task : Nat) (refusal : Option StoreFailure)
  | resume (task : Nat)
  | cancel (task : Nat)

def Event.task : Event → Nat
  | arrive task => task
  | acquire task => task
  | load task _ => task
  | build task => task
  | land task _ => task
  | resume task => task
  | cancel task => task

namespace Inserts

variable {σ : Type}

def start (store : σ) (insertions : List Insertion) : Inserts σ :=
  ⟨store, insertions.map .ofInsertion, [], []⟩

def isLocked (m : Inserts σ) (table : String) : Bool := m.held.contains table

def setTask (m : Inserts σ) (i : Nat) (t : Task) : Inserts σ := { m with tasks := m.tasks.set i t }

def setPhase (m : Inserts σ) (i : Nat) (t : Task) (phase : Phase) : Inserts σ :=
  m.setTask i { t with phase := phase }

/-- Ends an insert that holds its lock. -/
def release (m : Inserts σ) (i : Nat) (t : Task) (outcome : Outcome) : Inserts σ :=
  { m.setPhase i t (.finished outcome) with held := m.held.erase t.table }

/-- The waiter whose turn it is at a table. -/
def nextWaiter (m : Inserts σ) (table : String) : Option Nat :=
  m.queue.find? fun j => m.tasks[j]?.any fun t => t.table = table

variable [TableStore σ]

/-- A load or save that may be refused. -/
def refusedOr {α : Type} (refusal : Option StoreFailure) (operation : σ → Except StoreFailure α × σ)
    (store : σ) : Except StoreFailure α × σ :=
  match refusal with
  | some e => (.error e, store)
  | none => operation store

/-- The insert whose turn it is reads its table, which may be refused. -/
def stepLoad (m : Inserts σ) (i : Nat) (t : Task) (refusal : Option StoreFailure) : Inserts σ :=
  let (outcome, store) := refusedOr refusal (TableStore.load · t.table) m.store
  { m.setPhase i t (.loaded outcome) with store := store }

/-- Makes the record, and starts to save it with the loaded ones. -/
def stepBuild (m : Inserts σ) (i : Nat) (t : Task) (loaded : Except StoreFailure (List Record)) :
    Inserts σ :=
  match loaded with
  | .error e => m.release i t (.answered e.result)
  | .ok records =>
    match t.insertion.record (nextId records) with
    | .error fault => m.release i t (.answered (.executionFailure fault.message))
    | .ok r => m.setTask i { t with phase := .saving r, write := .pending (records ++ [r]) }

/-- The save of an insert ends. It does so whether its insert still waits for it or has been cancelled. -/
def stepLand (m : Inserts σ) (i : Nat) (t : Task) (records : List Record)
    (refusal : Option StoreFailure) : Inserts σ :=
  let (outcome, store) := refusedOr refusal (TableStore.save · t.table records) m.store
  { m.setTask i { t with write := .landed outcome } with store := store }

def saved (r : Record) : Except StoreFailure Unit → Result
  | .ok () => .inserted r
  | .error e => e.result

/-- Cancels an insert. One that saves waits for the save, unless it is cancelled once more. -/
def stepCancel (m : Inserts σ) (i : Nat) (t : Task) : Option (Inserts σ) :=
  match t.phase with
  | .idle => some (m.setPhase i t (.finished .cancelled))
  | .queued => some { m.setPhase i t (.finished .cancelled) with queue := m.queue.erase i }
  | .loading => some (m.release i t .cancelled)
  | .loaded _ => some (m.release i t .cancelled)
  | .saving _ => some (m.setPhase i t .settling)
  | .settling => some (m.release i t .cancelled)
  | .finished _ => none

/-- What an event makes of the inserts; it is `none` where the event cannot happen. -/
def step (m : Inserts σ) (e : Event) : Option (Inserts σ) := do
  let i := e.task
  let t ← m.tasks[i]?
  match e, t.phase, t.write with
  | .arrive _, .idle, _ => some { m.setPhase i t .queued with queue := m.queue ++ [i] }
  | .acquire _, .queued, _ =>
    if m.isLocked t.table || m.nextWaiter t.table != some i then none
    else
      some { m.setPhase i t .loading with queue := m.queue.erase i, held := t.table :: m.held }
  | .load _ refusal, .loading, _ => some (m.stepLoad i t refusal)
  | .build _, .loaded outcome, _ => some (m.stepBuild i t outcome)
  | .land _ refusal, _, .pending records => some (m.stepLand i t records refusal)
  | .resume _, .saving r, .landed outcome => some (m.release i t (.answered (saved r outcome)))
  | .resume _, .settling, .landed _ => some (m.release i t .cancelled)
  | .cancel _, _, _ => m.stepCancel i t
  | _, _, _ => none

/-- Lets events happen one after another. -/
def run (m : Inserts σ) (events : List Event) : Option (Inserts σ) := events.foldlM step m

/-- What an insert can do by itself, the latest first. -/
def ownEvents (i : Nat) : List Event :=
  [.resume i, .land i none, .build i, .load i none, .acquire i, .arrive i]

/-- Lets everything happen that is not blocked, the inserts with low numbers first. Each has few events,
so that the fuel is never used up. -/
def settleFrom (blocked : Event → Bool) : (fuel : Nat) → Inserts σ → Inserts σ
  | 0, m => m
  | fuel + 1, m =>
    let events := (List.range m.tasks.length).flatMap ownEvents
    match (events.filter fun e => !blocked e).findSome? m.step with
    | some m => settleFrom blocked fuel m
    | none => m

def settle (blocked : Event → Bool) (m : Inserts σ) : Inserts σ :=
  settleFrom blocked (6 * m.tasks.length) m

end Inserts

end TableServer
