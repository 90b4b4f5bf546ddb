import TableServer.Store.Volume

namespace TableServer

/-- What a save is about: the target, the temporary file, and whether a flush waits for the disk. -/
structure SavePlan where
  target : Path
  temporary : Path
  sync : Bool
  deriving Repr

/-- The steps of a save. -/
inductive SaveStep
  | makeDirectories
  | create
  | write (part : Bytes)
  | flush
  | sync
  | replace
  deriving DecidableEq, Repr

namespace SavePlan

/-- The steps of writing a content that comes in parts. It goes to a temporary file beside the target,
which is then moved onto it; so the target holds the old content or all of the new one after any number of
steps. -/
def steps (plan : SavePlan) (parts : List Bytes) : List SaveStep :=
  [.makeDirectories, .create] ++ parts.map .write ++ [.flush] ++
    (if plan.sync then [.sync] else []) ++ [.replace]

/-- What a step does to the volume. Flushing moves no byte that a reader of the volume sees. -/
def perform (plan : SavePlan) (step : SaveStep) (v : Volume) : Except FileError Unit × Volume :=
  let settle := fun (result : Except FileError Volume) =>
    match result with
    | .ok v => (.ok (), v)
    | .error e => (.error e, v)
  match step with
  | .makeDirectories =>
    let (result, v) := v.makeDirectories plan.target.parent
    (result.mapError (·.2), v)
  | .create => settle (v.create plan.temporary)
  | .write part => settle (v.append plan.temporary part)
  | .flush => (.ok (), v)
  | .sync => (.ok (), v)
  | .replace => settle (v.rename plan.temporary plan.target)

/-- A step, and the refusal it meets whatever the volume holds, if it meets one. -/
abbrev Attempt := SaveStep × Option FileError

def attempt (plan : SavePlan) (a : Attempt) (v : Volume) : Except FileError Unit × Volume :=
  match a.2 with
  | some e => (.error e, v)
  | none => plan.perform a.1 v

/-- Runs a save. When a step is refused the temporary file goes, if it has been made. -/
def run (plan : SavePlan) (created : Bool) : List Attempt → Volume → Except FileError Unit × Volume
  | [], v => (.ok (), v)
  | a :: rest, v =>
    match plan.attempt a v with
    | (.ok (), v) => run plan (created || a.1 = .create) rest v
    | (.error e, v) => (.error e, if created then v.delete plan.temporary else v)

/-- Every volume that a run passes through, from the one it starts with to the one it leaves. -/
def trail (plan : SavePlan) (created : Bool) : List Attempt → Volume → List Volume
  | [], v => [v]
  | a :: rest, v =>
    v :: match plan.attempt a v with
      | (.ok (), v) => trail plan (created || a.1 = .create) rest v
      | (.error _, v) => [v, if created then v.delete plan.temporary else v]

end SavePlan

end TableServer
