import TableServer.Proofs.Store.Keeping
import TableServer.Proofs.Store.Steps

namespace TableServer

namespace SavePlan

/-- What a system does to a save of its own accord: in which parts it writes a content, and which of the steps, by
their numbers, it refuses. -/
structure Faults where
  split : Bytes → List Bytes
  flatten_split (content : Bytes) : (split content).flatten = content
  refusal : Nat → Option FileError

namespace Faults

/-- A system that writes in one go and refuses nothing of its own accord. -/
def none : Faults := ⟨fun content => [content], by simp, fun _ => .none⟩

/-- The steps that one step of a save comes to. -/
def parts (f : Faults) : SaveStep → List SaveStep
  | .write content => (f.split content).map .write
  | step => [step]

/-- The steps of a save as the system takes them. -/
def attempts (f : Faults) (steps : List SaveStep) : List Attempt :=
  (steps.flatMap f.parts).zipIdx.map fun step => (step.1, f.refusal step.2)

theorem map_fst_attempts (f : Faults) (steps : List SaveStep) :
    (f.attempts steps).map Prod.fst = steps.flatMap f.parts := by
  rw [attempts, List.map_map]
  exact List.zipIdx_map_fst 0 _

theorem attempts_none (steps : List SaveStep) : none.attempts steps = steps.map fun step => (step, .none) := by
  have hparts : none.parts = fun step => [step] := by
    funext step
    cases step <;> rfl
  rw [attempts, hparts, List.flatMap_singleton']
  refine Eq.trans ?_ (congrArg (List.map fun step => (step, Option.none)) (List.zipIdx_map_fst 0 steps))
  rw [List.map_map]
  rfl

theorem flatMap_parts_steps (f : Faults) (plan : SavePlan) (content : Bytes) :
    (plan.steps [content]).flatMap f.parts = plan.steps (f.split content) := by
  cases hsync : plan.sync <;> simp [SavePlan.steps, hsync, parts]

/-- The steps that are attempted, with those that are left, are all the steps of a save. -/
theorem content_steps (f : Faults) (plan : SavePlan) (content : Bytes) :
    (f.attempts (plan.steps [content])).map Prod.fst ++ [] = plan.steps (f.split content) := by
  rw [List.append_nil, map_fst_attempts, flatMap_parts_steps]

theorem first_steps (f : Faults) (plan : SavePlan) :
    (f.attempts [.makeDirectories]).map Prod.fst ++ .create :: plan.quietSteps = plan.steps [] := rfl

theorem empty_steps (f : Faults) (plan : SavePlan) :
    (f.attempts [.makeDirectories, .create]).map Prod.fst ++ plan.quietSteps = plan.steps [] := rfl

/-- A system that refuses nothing of its own accord. -/
def Willing (f : Faults) : Prop := ∀ n, f.refusal n = .none

theorem Willing.attempts {f : Faults} (h : f.Willing) {steps : List SaveStep} :
    ∀ a ∈ f.attempts steps, a.2 = .none := by
  intro a ha
  obtain ⟨step, _, rfl⟩ := List.mem_map.mp ha
  exact h step.2

theorem attempts_ne_nil (f : Faults) (steps : List SaveStep) : f.attempts (.makeDirectories :: steps) ≠ [] :=
  List.cons_ne_nil _ _

end Faults

/-- What a place can hold at any moment of a save: what it held before, or else a new directory on the way to the
target, the temporary file, or all that was to be saved. -/
inductive MayHold (plan : SavePlan) (records : List Record) (v w : Volume) (q : Place) : Prop
  | same (h : w.node? q = v.node? q)
  | directory (hfree : v.node? q = none) (hnode : w.node? q = some .directory)
    (hon : w.LiesOn plan.target.parent q)
  | temporary {part : Bytes} (hfree : v.node? q = none) (hplace : w.resolve plan.temporary = .ok q)
    (hnode : w.node? q = some (.file part))
  | saved {content : Bytes} (hold : v.node? q ≠ some .directory) (hplace : w.resolve plan.target = .ok q)
    (hencode : TableFile.encode records = .ok content) (hnode : w.node? q = some (.file content))

variable {plan : SavePlan} {records : List Record} {u v w : Volume} {q : Place} {content : Bytes}
  {steps : List SaveStep} {created : Bool}

theorem mayHold_of_gains (h : Volume.Gains plan.target.parent v w) (q : Place) : plan.MayHold records v w q := by
  rcases h q with hsame | ⟨hfree, hnode, hon⟩
  · exact .same hsame
  · exact .directory hfree hnode hon

theorem mayHold_of_gains_same (hgains : Volume.Gains plan.target.parent v u) (hkeeps : u.KeepsDirectories w)
    (hsame : w.node? q = u.node? q) : plan.MayHold records v w q := by
  rcases hgains q with hsame' | ⟨hfree, hnode, hon⟩
  · exact .same (hsame.trans hsame')
  · exact .directory hfree (hsame.trans hnode) (hon.of_keepsDirectories hkeeps)

/-- The new content is in place only where it is all of what was to be saved. -/
theorem Stage.mayHold (h : plan.Stage u content steps created w) (hgains : Volume.Gains plan.target.parent v u)
    (hcontent : steps = [] → TableFile.encode records = .ok content) (q : Place) : plan.MayHold records v w q := by
  cases h with
  | made parts quiet hparts hquiet hsteps hcreated hsame => exact mayHold_of_gains (hsame ▸ hgains) q
  | @writing goal done parts quiet hparts hquiet hsteps hcreated hwriting =>
    by_cases hq : q = goal
    · subst hq
      refine .temporary ?_ hwriting.leads hwriting.holds
      rcases hgains q with hsame | ⟨hfree, _, _⟩
      · rw [← hsame]
        exact hwriting.free
      · exact hfree
    · exact mayHold_of_gains_same hgains hwriting.keepsDirectories (hwriting.same q hq)
  | @replaced goal hsteps hreplaced =>
    by_cases hq : q = goal
    · subst hq
      have hold : v.node? q ≠ some .directory := fun hold => hreplaced.replaceable (hgains.keepsDirectories q hold)
      exact .saved hold hreplaced.leads (hcontent hsteps) hreplaced.holds
    · exact mayHold_of_gains_same hgains hreplaced.keepsDirectories (hreplaced.same q hq)

theorem keepsDirectories_of_mayHold (h : ∀ q, plan.MayHold records v w q) : v.KeepsDirectories w := by
  intro q hq
  cases h q with
  | same hsame => rw [hsame, hq]
  | directory hfree hnode hon => exact hnode
  | temporary hfree hplace hnode =>
    rw [hq] at hfree
    contradiction
  | saved hold hplace hencode hnode => exact absurd hq hold

/-- The target is as it was or holds all that was to be saved, unless the directories above it are new and its path
steps back. -/
theorem mayHold_target (h : ∀ q, plan.MayHold records v w q) (hbeside : plan.IsBeside)
    (hway : ".." ∉ plan.target.names ∨ v.isDirectory plan.target.parent = true)
    (hq : w.resolve plan.target = .ok q) :
    w.node? q = v.node? q ∨ ∃ content, TableFile.encode records = .ok content ∧ w.node? q = some (.file content) := by
  cases h q with
  | same hsame => exact .inl hsame
  | saved hold hplace hencode hnode => exact .inr ⟨_, hencode, hnode⟩
  | temporary hfree hplace hnode => exact absurd rfl (hbeside.place_ne hq hplace)
  | directory hfree hnode hon =>
    rcases hway with hdots | hstands
    · by_cases hnames : plan.target.names = []
      · have hroot := (Volume.resolve_eq_ok hq).2
        rw [hnames] at hroot
        obtain rfl := Except.ok.inj hroot
        exact absurd rfl (Volume.ne_nil_of_node?_eq_none hfree)
      · rw [← Path.child_name hnames] at hdots hq
        exact absurd hq (hon.resolve_child_ne hdots)
    · rw [hon.stands (keepsDirectories_of_mayHold h) hstands] at hfree
      contradiction

theorem run_mem_trail (plan : SavePlan) (created : Bool) (as : List Attempt) (v : Volume) :
    (plan.run created as v).2 ∈ plan.trail created as v := by
  induction as generalizing created v with
  | nil => exact List.mem_singleton_self v
  | cons a as ih =>
    rw [run, trail]
    rcases plan.attempt a v with ⟨e | u, w⟩
    · simp
    · exact List.mem_cons_of_mem _ (ih _ w)

end SavePlan

namespace FileStore

variable {s : FileStore} {f : SavePlan.Faults} {table : String} {records : List Record} {p : Path}

/-- Replaces the records of a table on a system with faults; on one without, this is `replace`. -/
def replaceUnder (s : FileStore) (f : SavePlan.Faults) (table : String) (records : List Record) :
    Except StoreFailure Unit × FileStore :=
  match s.path table with
  | .error e => (.error e, s)
  | .ok p =>
    match script (s.plan p) records with
    | .error cause => (.error (.unexpected cause), s)
    | .ok script =>
      let (outcome, v) := (s.plan p).run false (f.attempts script.steps) s.volume
      (conclude table (s.plan p) script outcome, s.on v)

/-- Every volume that such a save passes through; a crash leaves one of them. -/
def passed (s : FileStore) (f : SavePlan.Faults) (table : String) (records : List Record) : List Volume :=
  match s.path table with
  | .error _ => [s.volume]
  | .ok p =>
    match script (s.plan p) records with
    | .error _ => [s.volume]
    | .ok script => (s.plan p).trail false (f.attempts script.steps) s.volume

/-- Without faults a save is what the store does, so that what is shown of all systems is shown of it. -/
theorem replaceUnder_none (s : FileStore) (table : String) (records : List Record) :
    s.replaceUnder .none table records = s.replace table records := by
  unfold replaceUnder replace
  simp only [SavePlan.Faults.attempts_none]
  rfl

theorem replaceUnder_mem_passed (s : FileStore) (f : SavePlan.Faults) (table : String) (records : List Record) :
    (s.replaceUnder f table records).2.volume ∈ s.passed f table records := by
  unfold replaceUnder passed
  cases s.path table with
  | error e => exact List.mem_singleton_self _
  | ok p =>
    dsimp only
    cases script (s.plan p) records with
    | error cause => exact List.mem_singleton_self _
    | ok script => exact SavePlan.run_mem_trail _ _ _ _

theorem isBeside_plan (s : FileStore) (p : Path) : (s.plan p).IsBeside := by
  obtain ⟨tag, htag⟩ := exists_tag s.volume p
  exact ⟨_, htag, temporaryName_ne_dots _ _, temporaryName_ne_self _ _⟩

/-- The failures of a save that leaves nothing behind: a step was refused, by a system that is willing only where
something is in the way, or the path or an id cannot be written. -/
inductive IsRefusal (s : FileStore) (f : SavePlan.Faults) (table : String) (records : List Record) (p : Path) :
    StoreFailure → Prop
  | system (reason : FileError) (hwhy : f.Willing → (s.plan p).Blocked s.volume) :
    IsRefusal s f table records p (.reported (.unwritable table p reason))
  | nul (h : p.hasNul = true) : IsRefusal s f table records p (.unexpected .nulInPath)
  | long (h : ∃ r ∈ records, ¬ r.IsShort) : IsRefusal s f table records p (.unexpected .longNumber)

/-- How a save to a path can end, with the volume that it leaves: with the new content at the target, with nothing
but new directories, or with an empty temporary file where a text cannot be encoded. -/
inductive Ending (s : FileStore) (f : SavePlan.Faults) (table : String) (records : List Record) (p : Path) :
    Except StoreFailure Unit → Volume → Prop
  | done {u w : Volume} {goal : Place} {content : Bytes} (hencode : TableFile.encode records = .ok content)
    (hnul : p.hasNul = false) (hgains : Volume.Gains p.parent s.volume u)
    (hreplaced : (s.plan p).Replaced content u w goal) : Ending s f table records p (.ok ()) w
  | refused {e : StoreFailure} {w : Volume} (hwhy : s.IsRefusal f table records p e)
    (hgains : Volume.Gains p.parent s.volume w) : Ending s f table records p (.error e) w
  | stranded {u w : Volume} {q : Place} (hencode : TableFile.encode records = .error .unpairedSurrogate)
    (hgains : Volume.Gains p.parent s.volume u) (hwriting : (s.plan p).Writing [] u w q) :
    Ending s f table records p (.error (.unexpected .unpairedSurrogate)) w

/-- A step that is refused takes the temporary file with it, if it has been made. -/
theorem ending_of_refused {content : Bytes} {rest : List SaveStep} {steps : List SaveStep} {reason : FileError}
    {w : Volume} (h : (s.plan p).RunEnds s.volume content rest (∀ a ∈ f.attempts steps, a.2 = none) (.error reason) w) :
    s.Ending f table records p (.error (.reported (.unwritable table p reason))) w :=
  .refused (.system reason fun hwilling => h.blocked hwilling.attempts) h.gains

/-- Every save to a path ends in one of these ways. -/
theorem replaceUnder_ending (hpath : s.path table = .ok p) (f : SavePlan.Faults) (records : List Record) :
    ∃ result w, s.replaceUnder f table records = (result, s.on w) ∧
      s.Ending f table records p result w := by
  have hbeside := s.isBeside_plan p
  unfold replaceUnder
  rw [hpath]
  dsimp only
  obtain ⟨cause, hscript, hcause⟩ | ⟨content, hencode, hnul, hscript⟩ | ⟨-, hnul, hscript⟩ | ⟨hencode, hscript⟩ :=
    script_outcomes (s.plan p) records
  all_goals
    rw [hscript]
    dsimp only
  · refine ⟨_, s.volume, rfl, .refused ?_ (.refl _ _)⟩
    rcases hcause with ⟨rfl, hnul⟩ | ⟨rfl, hlong⟩
    · exact .nul hnul
    · exact .long hlong
  · obtain ⟨outcome, w, hrun, hends⟩ := SavePlan.run_ends (f.content_steps (s.plan p) content)
      (f.attempts_ne_nil _) (f.flatten_split content) hbeside s.volume
    rw [hrun]
    cases outcome with
    | error e => exact ⟨_, w, rfl, ending_of_refused hends⟩
    | ok _ =>
      obtain ⟨u, created, hgains, hstage⟩ := hends.stage
      obtain ⟨goal, hreplaced⟩ := hstage.of_nil
      exact ⟨_, w, rfl, .done hencode hnul hgains hreplaced⟩
  · obtain ⟨outcome, w, hrun, hends⟩ := SavePlan.run_ends (f.first_steps (s.plan p)) (f.attempts_ne_nil _)
      List.flatten_nil hbeside s.volume
    rw [hrun]
    cases outcome with
    | error e => exact ⟨_, w, rfl, ending_of_refused hends⟩
    | ok _ =>
      obtain ⟨u, created, hgains, hstage⟩ := hends.stage
      rw [← hstage.of_create] at hgains
      exact ⟨_, w, rfl, .refused (.nul hnul) hgains⟩
  · obtain ⟨outcome, w, hrun, hends⟩ := SavePlan.run_ends (f.empty_steps (s.plan p)) (f.attempts_ne_nil _)
      List.flatten_nil hbeside s.volume
    rw [hrun]
    cases outcome with
    | error e => exact ⟨_, w, rfl, ending_of_refused hends⟩
    | ok _ =>
      obtain ⟨u, created, hgains, hstage⟩ := hends.stage
      obtain ⟨q, hwriting⟩ := hstage.of_flush
      exact ⟨_, w, rfl, .stranded hencode hgains hwriting⟩

/-- What is passed has nothing but what may be there on the way. -/
theorem passed_mayHold (hpath : s.path table = .ok p) {w : Volume} (hw : w ∈ s.passed f table records)
    (q : Place) : (s.plan p).MayHold records s.volume w q := by
  have hbeside := s.isBeside_plan p
  unfold passed at hw
  rw [hpath] at hw
  dsimp only at hw
  obtain ⟨cause, hscript, -⟩ | ⟨content, hencode, -, hscript⟩ | ⟨-, -, hscript⟩ | ⟨-, hscript⟩ :=
    script_outcomes (s.plan p) records
  all_goals
    rw [hscript] at hw
    dsimp only at hw
  · obtain rfl := List.mem_singleton.mp hw
    exact .same rfl
  · rcases SavePlan.trail_cases (f.content_steps (s.plan p) content) (f.attempts_ne_nil _)
      (f.flatten_split content) hbeside hw with hgains | ⟨u, steps, created, hgains, hstage⟩
    · exact SavePlan.mayHold_of_gains hgains q
    · exact hstage.mayHold hgains (fun _ => hencode) q
  · rcases SavePlan.trail_cases (f.first_steps (s.plan p)) (f.attempts_ne_nil _) List.flatten_nil hbeside hw with
      hgains | ⟨u, steps, created, hgains, hstage⟩
    · exact SavePlan.mayHold_of_gains hgains q
    · exact hstage.mayHold hgains (fun hnil => absurd hnil (by simp)) q
  · rcases SavePlan.trail_cases (f.empty_steps (s.plan p)) (f.attempts_ne_nil _) List.flatten_nil hbeside hw with
      hgains | ⟨u, steps, created, hgains, hstage⟩
    · exact SavePlan.mayHold_of_gains hgains q
    · exact hstage.mayHold hgains (fun hnil => absurd hnil (by simp [SavePlan.quietSteps])) q

theorem read_child_of_walk {v w : Volume} {place : Place} {name : String} (hname : name ≠ "..")
    (hv : v.walk [] p.names = .ok place) (hw : w.walk [] p.names = .ok place)
    (hplace : w.node? place = v.node? place) (hnode : w.node? (place ++ [name]) = v.node? (place ++ [name])) :
    w.read (p.child name) = v.read (p.child name) := by
  have hresolve : w.resolve (p.child name) = v.resolve (p.child name) := by
    unfold Volume.resolve
    rw [Path.child, Volume.walk_append, Volume.walk_append, hv, hw]
    change (if _ then _ else w.walk place [name]) = if _ then _ else v.walk place [name]
    rw [Volume.walk, Volume.walk, hplace]
    rfl
  unfold Volume.read Volume.status
  rw [hresolve]
  cases hq : v.resolve (p.child name) with
  | error e => rfl
  | ok q =>
    obtain ⟨place', hplace', rfl⟩ := Volume.resolve_child_eq_ok hname hq
    obtain rfl := Except.ok.inj (hplace'.symm.trans hv)
    simp only [bind, Except.bind, hnode]

/-- A table without a name has no path, whatever the volume holds. -/
theorem read_on_of_no_name {other : String} (h : safeName other = "") (v : Volume) :
    (s.on v).read other = .error (.reported (.invalidName other)) := by
  rw [read, path, if_pos h]
  rfl

/-- With the usual pattern no load looks at a temporary file. -/
theorem read_of_temporary {v w : Volume} {q : Place} (hpattern : s.pattern = usualPattern)
    (hpath : s.path table = .ok p) (hq : v.resolve (s.plan p).temporary = .ok q) (hsame : Volume.SameBut q v w)
    (hfile : v.node? q ≠ some .directory) (other : String) : (s.on w).read other = (s.on v).read other := by
  by_cases hother : safeName other = ""
  · rw [read_on_of_no_name hother, read_on_of_no_name hother]
  obtain rfl := Except.ok.inj ((path_eq hpattern (safeName_ne_empty_of_path hpath)).symm.trans hpath)
  obtain ⟨tag, hplan⟩ := plan_eq s (fileName table)
  rw [hplan] at hq
  obtain ⟨place, hplace, rfl⟩ := Volume.resolve_child_eq_ok (temporaryName_ne_dots _ _) hq
  have hplace' := Volume.walk_of_keepsDirectories (hsame.keepsDirectories hfile) hplace
  have hdots : fileName other ≠ ".." := fileName_ne (by decide)
  have hread := read_child_of_walk hdots hplace hplace' (hsame place (by simp))
    (hsame _ (Volume.concat_ne (temporaryName_ne_fileName _ tag hother).symm))
  rw [read_on_eq (path_eq hpattern hother) (isPlain_fileName other),
    read_on_eq (path_eq hpattern hother) (isPlain_fileName other), hread]

/-- In a directory that stood before, a table with another file is loaded as before. -/
theorem read_of_mayHold {w : Volume} (hpattern : s.pattern = usualPattern) (hpath : s.path table = .ok p)
    (hstands : s.volume.isDirectory p.parent = true) (hmay : ∀ q, (s.plan p).MayHold records s.volume w q)
    {other : String} (hother : safeName other ≠ safeName table) : (s.on w).read other = s.read other := by
  by_cases hempty : safeName other = ""
  · exact (read_on_of_no_name hempty w).trans (read_on_of_no_name hempty s.volume).symm
  obtain rfl := Except.ok.inj ((path_eq hpattern (safeName_ne_empty_of_path hpath)).symm.trans hpath)
  obtain ⟨tag, hplan⟩ := plan_eq s (fileName table)
  rw [hplan] at hmay
  rw [Path.parent_child] at hstands
  obtain ⟨place, hleads⟩ := (Volume.isDirectory_iff _).mp hstands
  have hkeeps := SavePlan.keepsDirectories_of_mayHold hmay
  have hleads' := hleads.of_keepsDirectories hkeeps
  -- No other name in the directory leads to the file of the other table.
  have hname : ∀ name, name ≠ ".." → name ≠ fileName other →
      w.resolve (s.directory.child name) ≠ .ok (place ++ [fileName other]) := by
    intro name hdots hne hresolve
    exact Volume.concat_ne hne (hleads'.of_resolve_child hdots hresolve).2.symm
  apply read_on (path_eq hpattern hempty) (isPlain_fileName other) hleads hleads'
  cases hmay (place ++ [fileName other]) with
  | same hsame => exact hsame
  | directory hfree hnode hon =>
    have hon' : w.LiesOn s.directory (place ++ [fileName other]) := by
      rw [← Path.parent_child s.directory (fileName table)]
      exact hon
    rw [hon'.stands hkeeps hstands] at hfree
    contradiction
  | temporary hfree hplace hnode =>
    exact absurd hplace (hname _ (temporaryName_ne_dots _ _) (temporaryName_ne_fileName _ tag hempty))
  | saved hold hplace hencode hnode =>
    apply absurd hplace (hname _ (fileName_ne (by decide)) _)
    intro heq
    exact hother (safeName_eq_of_fileName heq).symm

theorem read_on_path (hpath : s.path table = .ok p) (hnul : p.hasNul = false) (v : Volume) :
    (s.on v).read table = FileStore.records table p (v.read p) := by
  have hpath' : (s.on v).path table = .ok p := hpath
  unfold read
  simp only [hpath', bind, Except.bind, hnul]
  rfl

theorem Ending.exists_content {w : Volume} (h : s.Ending f table records p (.ok ()) w) :
    ∃ content, TableFile.encode records = .ok content ∧ p.hasNul = false ∧ w.read p = .ok content := by
  cases h with
  | @done u w goal content hencode hnul hgains hreplaced =>
    have hleads : w.resolve p = .ok goal := hreplaced.leads
    refine ⟨content, hencode, hnul, ?_⟩
    unfold Volume.read Volume.status
    simp only [hleads, hreplaced.holds, bind, Except.bind]

/-- What a save has put in place is what is loaded. -/
theorem Ending.read (hpath : s.path table = .ok p) {w : Volume} (h : s.Ending f table records p (.ok ()) w) :
    (s.on w).read table = .ok records := by
  obtain ⟨content, hencode, hnul, hcontent⟩ := h.exists_content
  rw [read_on_path hpath hnul, hcontent]
  simp only [FileStore.records, TableFile.decode_encode hencode]

/-- What holds of a save to a path, whatever goes wrong and wherever it is cut off. -/
structure Atomic (s : FileStore) (f : SavePlan.Faults) (table : String) (records : List Record) (p : Path) :
    Prop where
  /-- No file but the target is touched on the way, save for the temporary file. -/
  passes : ∀ w ∈ s.passed f table records, ∀ q, (s.plan p).MayHold records s.volume w q
  /-- The target holds what it held or all of the new content. -/
  target : ∀ w ∈ s.passed f table records, ∀ q, w.resolve p = .ok q →
    ".." ∉ p.names ∨ s.volume.isDirectory p.parent = true → w.node? q = s.volume.node? q ∨
      ∃ content, TableFile.encode records = .ok content ∧ w.node? q = some (.file content)
  /-- Where the path of the target led to, it leads to still. -/
  leads : ∀ w ∈ s.passed f table records, ∀ q, s.volume.resolve p = .ok q → w.resolve p = .ok q
  /-- Any other table is loaded as before, where the data directory stood. -/
  others : s.pattern = usualPattern → s.volume.isDirectory p.parent = true → ∀ w ∈ s.passed f table records,
    ∀ other, safeName other ≠ safeName table → (s.on w).read other = s.read other
  ends : ∃ result w, s.replaceUnder f table records = (result, s.on w) ∧ w ∈ s.passed f table records ∧
    s.Ending f table records p result w
  stored : ∀ after, s.replaceUnder f table records = (.ok (), after) → after.read table = .ok records
  /-- What a crash leaves at the temporary path, or whatever else stands there later, no load looks at. -/
  unread : s.pattern = usualPattern → ∀ v w q, v.resolve (s.plan p).temporary = .ok q →
    v.node? q ≠ some .directory → Volume.SameBut q v w → ∀ other, (s.on w).read other = (s.on v).read other

theorem atomic_of_path (hpath : s.path table = .ok p) (f : SavePlan.Faults) (records : List Record) :
    s.Atomic f table records p where
  passes w hw q := passed_mayHold hpath hw q
  target w hw q hq hway := SavePlan.mayHold_target (passed_mayHold hpath hw) (s.isBeside_plan p) hway hq
  leads w hw q hq :=
    Volume.resolve_of_keepsDirectories (SavePlan.keepsDirectories_of_mayHold (passed_mayHold hpath hw)) hq
  others hpattern hstands w hw other hother :=
    read_of_mayHold hpattern hpath hstands (passed_mayHold hpath hw) hother
  ends := by
    obtain ⟨result, w, hreplace, hending⟩ := replaceUnder_ending hpath f records
    have hw := s.replaceUnder_mem_passed f table records
    rw [hreplace] at hw
    exact ⟨result, w, hreplace, hw, hending⟩
  stored after hafter := by
    obtain ⟨result, w, hreplace, hending⟩ := replaceUnder_ending hpath f records
    rw [hafter] at hreplace
    obtain ⟨rfl, rfl⟩ := Prod.mk.inj hreplace
    exact hending.read hpath
  unread hpattern v w q hq hfile hsame other := read_of_temporary hpattern hpath hq hsame hfile other

/-- Saves are atomic on every system: a table without a path is refused before anything is done, and a save to a path
has left the target as it was or put all of the new content there, at every moment and in the end. A save that fails
takes its temporary file along, but where a text cannot be encoded, which shows only when the file has been made. -/
theorem save_atomic (s : FileStore) (f : SavePlan.Faults) (table : String) (records : List Record) :
    (∃ e, s.path table = .error e ∧ s.replaceUnder f table records = (.error e, s) ∧
      s.passed f table records = [s.volume]) ∨
    ∃ p, s.path table = .ok p ∧ s.Atomic f table records p := by
  cases hpath : s.path table with
  | error e =>
    refine .inl ⟨e, rfl, ?_, ?_⟩
    · rw [replaceUnder, hpath]
    · rw [passed, hpath]
  | ok p => exact .inr ⟨p, rfl, atomic_of_path hpath f records⟩

end FileStore

end TableServer
