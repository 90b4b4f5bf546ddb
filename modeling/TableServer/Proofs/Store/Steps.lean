import TableServer.Proofs.Store.Directories

namespace TableServer

theorem Path.child_name {p : Path} (h : p.names ≠ []) : p.parent.child p.name = p := by
  obtain ⟨slashes, names⟩ := p
  have hlast : names.getLast? = some (names.getLast h) := List.getLast?_eq_some_getLast h
  simp [Path.child, Path.parent, Path.name, hlast, List.dropLast_concat_getLast h]

namespace Volume

variable {v w : Volume} {p : Path} {q : Place}

/-- The last name of a path, once those before it have led to a place. -/
theorem resolve_child_cases {name : String} (h : v.resolve (p.child name) = .ok q) :
    ∃ place, v.walk [] p.names = .ok place ∧ q = if name = ".." then place.dropLast else place ++ [name] := by
  obtain ⟨place, hplace, _, _, hq⟩ := walk_child_eq_ok_iff.mp (resolve_eq_ok h).2
  exact ⟨place, hplace, hq⟩

theorem resolve_child_eq_ok {name : String} (hname : name ≠ "..") (h : v.resolve (p.child name) = .ok q) :
    ∃ place, v.walk [] p.names = .ok place ∧ q = place ++ [name] := by
  obtain ⟨place, hplace, hq⟩ := resolve_child_cases h
  rw [if_neg hname] at hq
  exact ⟨place, hplace, hq⟩

theorem create_eq_ok_iff :
    v.create p = .ok w ↔ ∃ q, v.resolve p = .ok q ∧ v.node? q = none ∧ w = v.put q (.file []) := by
  rw [create, bind_ok]
  refine exists_congr fun q => and_congr_right fun _ => ?_
  cases v.node? q <;> simp [eq_comm]

theorem append_eq_ok_iff {more : Bytes} :
    v.append p more = .ok w ↔ ∃ q, v.resolve p = .ok q ∧ ∃ content, v.node? q = some (.file content) ∧
      w = v.put q (.file (content ++ more)) := by
  rw [append, bind_ok]
  refine exists_congr fun q => and_congr_right fun _ => ?_
  rcases v.node? q with _ | _ | content
  · simp
  · simp
  · exact ⟨fun h => ⟨content, rfl, (Except.ok.inj h).symm⟩, fun ⟨_, rfl, hw⟩ => congrArg _ hw.symm⟩

theorem rename_eq_ok_iff {target : Path} :
    v.rename p target = .ok w ↔ ∃ q, v.resolve p = .ok q ∧ ∃ goal, v.resolve target = .ok goal ∧ ∃ node,
      v.node? q = some node ∧ ¬ (target.name = "" ∨ target.name = "..") ∧ v.node? goal ≠ some .directory ∧
      w = (v.remove q).put goal node := by
  rw [rename, bind_ok]
  refine exists_congr fun q => and_congr_right fun _ => ?_
  rw [bind_ok]
  refine exists_congr fun goal => and_congr_right fun _ => ?_
  cases v.node? q with
  | none => simp
  | some node =>
    by_cases hname : target.name = "" ∨ target.name = ".."
    · simp [hname]
    · rcases v.node? goal with _ | _ | old <;> simp [hname, eq_comm (a := w)]

end Volume

namespace SavePlan

variable {plan : SavePlan} {u v w x : Volume} {q : Place} {done : Bytes}

/-- The temporary file has a name of its own beside the target. -/
def IsBeside (plan : SavePlan) : Prop :=
  ∃ name, plan.temporary = plan.target.parent.child name ∧ name ≠ ".." ∧ name ≠ plan.target.name

/-- The two lead to different places. -/
theorem IsBeside.place_ne {goal : Place} (h : plan.IsBeside) (hgoal : v.resolve plan.target = .ok goal)
    (hq : v.resolve plan.temporary = .ok q) : goal ≠ q := by
  obtain ⟨name, htemporary, hname, hne⟩ := h
  rw [htemporary] at hq
  obtain ⟨place, hplace, rfl⟩ := Volume.resolve_child_eq_ok hname hq
  by_cases hnames : plan.target.names = []
  · have hroot := (Volume.resolve_eq_ok hgoal).2
    rw [hnames] at hroot
    obtain rfl := Except.ok.inj hroot
    exact (Volume.concat_ne_nil place name).symm
  rw [← Path.child_name hnames] at hgoal
  by_cases hdots : plan.target.name = ".."
  · -- The target is the directory above.
    obtain ⟨place', hplace', hgoal⟩ := Volume.resolve_child_cases hgoal
    obtain rfl := Except.ok.inj (hplace'.symm.trans hplace)
    rw [if_pos hdots] at hgoal
    intro heq
    have hlength := congrArg List.length (hgoal.symm.trans heq)
    rw [List.length_dropLast, List.length_append, List.length_singleton] at hlength
    omega
  · obtain ⟨place', hplace', rfl⟩ := Volume.resolve_child_eq_ok hdots hgoal
    obtain rfl := Except.ok.inj (hplace'.symm.trans hplace)
    exact Volume.concat_ne hne.symm

/-- A volume with the temporary file, at a place that was free before, and otherwise as before. -/
structure Writing (plan : SavePlan) (done : Bytes) (v w : Volume) (q : Place) : Prop where
  free : v.node? q = none
  leads : w.resolve plan.temporary = .ok q
  holds : w.node? q = some (.file done)
  same : Volume.SameBut q v w

theorem Writing.ne_nil (h : plan.Writing done v w q) : q ≠ [] :=
  Volume.ne_nil_of_node?_eq_none h.free

theorem Writing.keepsDirectories (h : plan.Writing done v w q) : v.KeepsDirectories w :=
  h.same.keepsDirectories (by simp [h.free])

theorem writing_of_create (h : v.create plan.temporary = .ok w) : ∃ q, plan.Writing [] v w q := by
  obtain ⟨q, hresolve, hfree, rfl⟩ := Volume.create_eq_ok_iff.mp h
  have hsame := Volume.sameBut_put v q (.file [])
  have hkeeps := hsame.keepsDirectories (by simp [hfree])
  exact ⟨q, hfree, Volume.resolve_of_keepsDirectories hkeeps hresolve,
    Volume.node?_put_self v _ (Volume.ne_nil_of_node?_eq_none hfree), hsame⟩

theorem Writing.append (h : plan.Writing done v w q) {part : Bytes} (hdone : w.append plan.temporary part = .ok x) :
    plan.Writing (done ++ part) v x q := by
  obtain ⟨q', hresolve, content, hnode, rfl⟩ := Volume.append_eq_ok_iff.mp hdone
  obtain rfl := Except.ok.inj (hresolve.symm.trans h.leads)
  obtain rfl := Node.file.inj (Option.some.inj (hnode.symm.trans h.holds))
  have hsame := Volume.sameBut_put w q' (.file (content ++ part))
  have hkeeps := hsame.keepsDirectories (by simp [hnode])
  exact ⟨h.free, Volume.resolve_of_keepsDirectories hkeeps hresolve,
    Volume.node?_put_self w _ h.ne_nil, h.same.trans hsame⟩

/-- Without its temporary file a save has changed nothing. -/
theorem Writing.delete (h : plan.Writing done v w q) : (w.delete plan.temporary).node? = v.node? := by
  unfold Volume.delete
  rw [h.leads]
  exact h.same.node?_remove h.ne_nil h.free

/-- A volume with the content at the target, and otherwise as before. -/
structure Replaced (plan : SavePlan) (content : Bytes) (v w : Volume) (goal : Place) : Prop where
  replaceable : v.node? goal ≠ some .directory
  leads : w.resolve plan.target = .ok goal
  holds : w.node? goal = some (.file content)
  same : Volume.SameBut goal v w

theorem Replaced.keepsDirectories {content : Bytes} {goal : Place} (h : plan.Replaced content v w goal) :
    v.KeepsDirectories w := h.same.keepsDirectories h.replaceable

theorem Writing.rename (h : plan.Writing done v w q) (hbeside : plan.IsBeside)
    (hdone : w.rename plan.temporary plan.target = .ok x) : ∃ goal, plan.Replaced done v x goal := by
  obtain ⟨q', hresolve, goal, hgoal, node, hnode, _, hold, rfl⟩ := Volume.rename_eq_ok_iff.mp hdone
  obtain rfl := Except.ok.inj (hresolve.symm.trans h.leads)
  obtain rfl := Option.some.inj (hnode.symm.trans h.holds)
  have hplaces := hbeside.place_ne hgoal hresolve
  have hgone := h.same.node?_remove h.ne_nil h.free
  have hsame : Volume.SameBut goal v ((w.remove q').put goal (.file done)) := by
    intro r hr
    rw [Volume.node?_put_of_ne _ _ hr, hgone]
  have hnot : v.node? goal ≠ some .directory := by
    rw [← h.same goal hplaces]
    exact hold
  have hkeeps : w.KeepsDirectories ((w.remove q').put goal (.file done)) := by
    intro r hr
    have hrq : r ≠ q' := by
      rintro rfl
      rw [hnode] at hr
      cases hr
    rw [h.same r hrq] at hr
    exact hsame.keepsDirectories hnot r hr
  have hnil : goal ≠ [] := by
    rintro rfl
    exact hold rfl
  exact ⟨goal, hnot, Volume.resolve_of_keepsDirectories hkeeps hgoal, Volume.node?_put_self _ _ hnil, hsame⟩

/-- The steps that only see to it that the disk has what was written. -/
def IsQuiet (step : SaveStep) : Prop := step = .flush ∨ step = .sync

/-- How far a save has come that is to write a content, by the steps that are still to be done: it stands where the
temporary file is to be made, where it is being written, or where the target has been replaced. `u` is the volume
where the directories have been made. -/
inductive Stage (plan : SavePlan) (u : Volume) (content : Bytes) (steps : List SaveStep) (created : Bool)
    (w : Volume) : Prop
  | made (parts : List Bytes) (quiet : List SaveStep) (hparts : parts.flatten = content)
    (hquiet : ∀ step ∈ quiet, IsQuiet step)
    (hsteps : steps = .create :: (parts.map .write ++ (quiet ++ [.replace]))) (hcreated : created = false)
    (hsame : w = u)
  | writing {q : Place} {done : Bytes} (parts : List Bytes) (quiet : List SaveStep)
    (hparts : done ++ parts.flatten = content) (hquiet : ∀ step ∈ quiet, IsQuiet step)
    (hsteps : steps = parts.map .write ++ (quiet ++ [.replace])) (hcreated : created = true)
    (hwriting : plan.Writing done u w q)
  | replaced {goal : Place} (hsteps : steps = []) (hreplaced : plan.Replaced content u w goal)

/-- Nothing is in the way of a save where the directories have been made. -/
structure Unhindered (plan : SavePlan) (u : Volume) : Prop where
  temporary : ∃ q, u.resolve plan.temporary = .ok q ∧ u.node? q = none
  target : ∃ goal, u.resolve plan.target = .ok goal ∧ u.node? goal ≠ some .directory
  name : ¬ (plan.target.name = "" ∨ plan.target.name = "..")

/-- Something is in the way of a save: the directories cannot be made, or a file is hindered where they have been
made. -/
inductive Blocked (plan : SavePlan) (v : Volume) : Prop
  | directories {refusal : Path × FileError} {w : Volume}
    (hmade : v.makeDirectories plan.target.parent = (.error refusal, w))
  | files {u : Volume} (hmade : v.makeDirectories plan.target.parent = (.ok (), u)) (h : ¬ plan.Unhindered u)

variable {content : Bytes} {parts : List Bytes} {step : SaveStep} {steps rest : List SaveStep} {created : Bool}

theorem stage_made (u : Volume) (hsteps : .makeDirectories :: steps = plan.steps parts)
    (hparts : parts.flatten = content) : plan.Stage u content steps false u := by
  refine .made parts (.flush :: if plan.sync then [.sync] else []) hparts ?_ ?_ rfl rfl
  · intro step hstep
    rcases List.mem_cons.mp hstep with rfl | hstep
    · exact .inl rfl
    · split at hstep
      · exact .inr (List.mem_singleton.mp hstep)
      · contradiction
  · rw [(List.cons.inj hsteps).2]
    simp

/-- The steps that are left once the temporary file has been made, where there is nothing to write. -/
def quietSteps (plan : SavePlan) : List SaveStep :=
  .flush :: ((if plan.sync then [.sync] else []) ++ [.replace])

/-- The volume once the temporary file is gone, if it has been made. -/
def cleaned (plan : SavePlan) (created : Bool) (w : Volume) : Volume :=
  if created then w.delete plan.temporary else w

/-- As long as a step is left, nothing is new but the temporary file. -/
theorem Stage.node?_cleaned (h : plan.Stage u content (step :: rest) created w) :
    (plan.cleaned created w).node? = u.node? := by
  cases h with
  | made parts quiet hparts hquiet hsteps hcreated hsame => rw [cleaned, hcreated, hsame, if_neg Bool.false_ne_true]
  | writing parts quiet hparts hquiet hsteps hcreated hwriting =>
    rw [cleaned, if_pos hcreated]
    exact hwriting.delete
  | replaced hsteps => contradiction

/-- Before the temporary file nothing is new. -/
theorem Stage.of_create (h : plan.Stage u content (.create :: rest) created w) : w = u := by
  cases h with
  | made parts quiet hparts hquiet hsteps hcreated hsame => exact hsame
  | writing parts quiet hparts hquiet hsteps =>
    cases parts with
    | cons part parts => exact absurd (List.cons.inj hsteps).1 nofun
    | nil =>
      cases quiet with
      | nil => exact absurd (List.cons.inj hsteps).1 nofun
      | cons first quiet =>
        obtain ⟨rfl, _⟩ := List.cons.inj hsteps
        exact absurd (hquiet _ List.mem_cons_self) (by rintro (h | h) <;> contradiction)
  | replaced hsteps => contradiction

/-- Before the flush the temporary file has the whole content. -/
theorem Stage.of_flush (h : plan.Stage u content (.flush :: rest) created w) : ∃ q, plan.Writing content u w q := by
  cases h with
  | made parts quiet hparts hquiet hsteps => exact absurd (List.cons.inj hsteps).1 nofun
  | writing parts quiet hparts hquiet hsteps hcreated hwriting =>
    cases parts with
    | cons part parts => exact absurd (List.cons.inj hsteps).1 nofun
    | nil =>
      rw [List.flatten_nil, List.append_nil] at hparts
      exact ⟨_, hparts ▸ hwriting⟩
  | replaced hsteps => contradiction

/-- At the end the target has the content. -/
theorem Stage.of_nil (h : plan.Stage u content [] created w) : ∃ goal, plan.Replaced content u w goal := by
  cases h with
  | made parts quiet hparts hquiet hsteps => exact absurd hsteps nofun
  | writing parts quiet hparts hquiet hsteps => simp at hsteps
  | replaced hsteps hreplaced => exact ⟨_, hreplaced⟩

/-- A step leads on, or it cannot be done and has changed nothing; then something is in the way. -/
theorem Stage.perform (h : plan.Stage u content (step :: rest) created w) (hbeside : plan.IsBeside) :
    (∃ x, plan.perform step w = (.ok (), x) ∧ plan.Stage u content rest (created || step = .create) x) ∨
      ∃ e, plan.perform step w = (.error e, w) ∧ ¬ plan.Unhindered u := by
  cases h with
  | made parts quiet hparts hquiet hsteps hcreated hsame =>
    obtain ⟨rfl, rfl⟩ := List.cons.inj hsteps
    subst hsame
    simp only [SavePlan.perform]
    cases hdone : w.create plan.temporary with
    | ok x =>
      obtain ⟨q, hwriting⟩ := writing_of_create hdone
      exact .inl ⟨x, rfl, .writing parts quiet hparts hquiet rfl (by simp) hwriting⟩
    | error e =>
      refine .inr ⟨e, rfl, fun hfree => ?_⟩
      obtain ⟨q, hresolve, hnode⟩ := hfree.temporary
      rw [Volume.create_eq_ok_iff.mpr ⟨q, hresolve, hnode, rfl⟩] at hdone
      contradiction
  | writing parts quiet hparts hquiet hsteps hcreated hwriting =>
    subst hcreated
    cases parts with
    | cons part parts =>
      obtain ⟨rfl, rfl⟩ := List.cons.inj hsteps
      have hdone : w.append plan.temporary part = .ok _ :=
        Volume.append_eq_ok_iff.mpr ⟨_, hwriting.leads, _, hwriting.holds, rfl⟩
      simp only [SavePlan.perform, hdone]
      refine .inl ⟨_, rfl, .writing parts quiet ?_ hquiet rfl rfl (hwriting.append hdone)⟩
      rw [List.append_assoc]
      exact hparts
    | nil =>
      cases quiet with
      | cons first quiet =>
        obtain ⟨rfl, rfl⟩ := List.cons.inj hsteps
        obtain ⟨hfirst, hmore⟩ := List.forall_mem_cons.mp hquiet
        have hperform : plan.perform step w = (.ok (), w) := by
          rcases hfirst with rfl | rfl <;> rfl
        exact .inl ⟨w, hperform, .writing [] quiet hparts hmore rfl rfl hwriting⟩
      | nil =>
        obtain ⟨rfl, rfl⟩ := List.cons.inj hsteps
        simp only [SavePlan.perform]
        cases hdone : w.rename plan.temporary plan.target with
        | ok x =>
          obtain ⟨goal, hreplaced⟩ := hwriting.rename hbeside hdone
          rw [List.flatten_nil, List.append_nil] at hparts
          exact .inl ⟨x, rfl, .replaced rfl (hparts ▸ hreplaced)⟩
        | error e =>
          refine .inr ⟨e, rfl, fun hfree => ?_⟩
          obtain ⟨goal, hgoal, hnode⟩ := hfree.target
          have hgoal' := Volume.resolve_of_keepsDirectories hwriting.keepsDirectories hgoal
          rw [← hwriting.same goal (hbeside.place_ne hgoal' hwriting.leads)] at hnode
          rw [Volume.rename_eq_ok_iff.mpr
            ⟨_, hwriting.leads, goal, hgoal', _, hwriting.holds, hfree.name, hnode, rfl⟩] at hdone
          contradiction
  | replaced hsteps => contradiction

/-- The same where the system may refuse the step of its own accord. -/
theorem Stage.attempt {a : Attempt} (h : plan.Stage u content (a.1 :: rest) created w) (hbeside : plan.IsBeside) :
    (∃ x, plan.attempt a w = (.ok (), x) ∧ plan.Stage u content rest (created || a.1 = .create) x) ∨
      ∃ e, plan.attempt a w = (.error e, w) ∧ (a.2 = none → ¬ plan.Unhindered u) := by
  unfold SavePlan.attempt
  cases a.2 with
  | some e => exact .inr ⟨e, rfl, nofun⟩
  | none =>
    rcases h.perform hbeside with hdone | ⟨e, hrefused, hwhy⟩
    · exact .inl hdone
    · exact .inr ⟨e, hrefused, fun _ => hwhy⟩

variable {as : List Attempt}

/-- A run of some steps gets to where the others are still to be done, or it is refused and leaves nothing. -/
theorem Stage.run (h : plan.Stage u content (as.map Prod.fst ++ rest) created w) (hbeside : plan.IsBeside) :
    (∃ created' x, plan.run created as w = (.ok (), x) ∧ plan.Stage u content rest created' x) ∨
      ∃ e x, plan.run created as w = (.error e, x) ∧ x.node? = u.node? ∧
        ((∀ a ∈ as, a.2 = none) → ¬ plan.Unhindered u) := by
  induction as generalizing created w with
  | nil => exact .inl ⟨created, w, rfl, h⟩
  | cons a as ih =>
    rw [SavePlan.run]
    rcases h.attempt hbeside with ⟨x, hdone, hnext⟩ | ⟨e, hrefused, hwhy⟩
    · rw [hdone]
      rcases ih hnext with hend | ⟨e, y, hrun, hsame, hwhy⟩
      · exact .inl hend
      · exact .inr ⟨e, y, hrun, hsame, fun hnone => hwhy (List.forall_mem_cons.mp hnone).2⟩
    · rw [hrefused]
      exact .inr ⟨e, _, rfl, h.node?_cleaned, fun hnone => hwhy (List.forall_mem_cons.mp hnone).1⟩

/-- Every volume that a run passes through is one of a stage, or nothing is left of the save. -/
theorem Stage.trail (h : plan.Stage u content (as.map Prod.fst ++ rest) created w) (hbeside : plan.IsBeside)
    (hx : x ∈ plan.trail created as w) :
    (∃ steps created', plan.Stage u content (steps ++ rest) created' x) ∨ x.node? = u.node? := by
  induction as generalizing created w with
  | nil =>
    obtain rfl := List.mem_singleton.mp hx
    exact .inl ⟨[], _, h⟩
  | cons a as ih =>
    rw [SavePlan.trail, List.mem_cons] at hx
    rcases hx with rfl | hx
    · exact .inl ⟨_, _, h⟩
    rcases h.attempt hbeside with ⟨y, hdone, hnext⟩ | ⟨e, hrefused, _⟩
    · rw [hdone] at hx
      exact ih hnext hx
    · rw [hrefused] at hx
      simp only [List.mem_cons, List.not_mem_nil, or_false] at hx
      rcases hx with rfl | rfl
      · exact .inl ⟨_, _, h⟩
      · exact .inr h.node?_cleaned

/-- How a run of a save's first steps can end: the directories have not been made, or the save got to the steps
that are left, or nothing is left of it but the directories. The system may be `willing` and refuse nothing of
its own accord. -/
inductive RunEnds (plan : SavePlan) (v : Volume) (content : Bytes) (rest : List SaveStep) (willing : Prop) :
    Except FileError Unit → Volume → Prop
  | unmade {e : FileError} {refusal : Path × FileError} {w : Volume}
    (hmade : v.makeDirectories plan.target.parent = (.error refusal, w)) :
    RunEnds plan v content rest willing (.error e) w
  | unwilling {e : FileError} (hwhy : ¬ willing) : RunEnds plan v content rest willing (.error e) v
  | undone {e : FileError} {u w : Volume} (hmade : v.makeDirectories plan.target.parent = (.ok (), u))
    (hsame : w.node? = u.node?) (hwhy : willing → ¬ plan.Unhindered u) :
    RunEnds plan v content rest willing (.error e) w
  | reached {u w : Volume} {created : Bool} (hmade : v.makeDirectories plan.target.parent = (.ok (), u))
    (hstage : plan.Stage u content rest created w) : RunEnds plan v content rest willing (.ok ()) w

/-- A run that is refused leaves no more than new directories. -/
theorem RunEnds.gains {willing : Prop} {e : FileError}
    (h : plan.RunEnds v content rest willing (.error e) w) : Volume.Gains plan.target.parent v w := by
  cases h with
  | unmade hmade => exact Volume.gains_of_makeDirectories hmade
  | unwilling hwhy => exact .refl _ _
  | undone hmade hsame hwhy => exact (Volume.gains_of_makeDirectories hmade).trans (.of_eq hsame)

/-- A willing system refuses a run only where something is in its way. -/
theorem RunEnds.blocked {willing : Prop} {e : FileError} (h : plan.RunEnds v content rest willing (.error e) w)
    (hwilling : willing) : plan.Blocked v := by
  cases h with
  | unmade hmade => exact .directories hmade
  | unwilling hwhy => exact absurd hwilling hwhy
  | undone hmade hsame hwhy => exact .files hmade (hwhy hwilling)

/-- A run that got through its steps is where the others are still to be done, in a volume with new directories at
most. -/
theorem RunEnds.stage {willing : Prop} (h : plan.RunEnds v content rest willing (.ok ()) w) :
    ∃ u created, Volume.Gains plan.target.parent v u ∧ plan.Stage u content rest created w := by
  cases h with
  | reached hmade hstage => exact ⟨_, _, Volume.gains_of_makeDirectories hmade, hstage⟩

/-- The first step makes the directories, unless they cannot be made or the system refuses it. -/
theorem attempt_makeDirectories (plan : SavePlan) (refusal : Option FileError) (v : Volume) :
    (∃ u, v.makeDirectories plan.target.parent = (.ok (), u) ∧
        plan.attempt (.makeDirectories, refusal) v = (.ok (), u)) ∨
      ∃ e w, plan.attempt (.makeDirectories, refusal) v = (.error e, w) ∧
        (w = v ∧ refusal ≠ none ∨ ∃ cause, v.makeDirectories plan.target.parent = (.error cause, w)) := by
  unfold attempt
  cases refusal with
  | some e => exact .inr ⟨e, v, rfl, .inl ⟨rfl, nofun⟩⟩
  | none =>
    simp only [perform]
    rcases v.makeDirectories plan.target.parent with ⟨cause | u, w⟩
    · exact .inr ⟨cause.2, w, rfl, .inr ⟨cause, rfl⟩⟩
    · exact .inl ⟨w, rfl, rfl⟩

/-- Every run of a save's first steps ends in one of these ways. A refusal leads back to where the save was before the
temporary file, and unless the system refuses a step of its own accord there is one only if something is in the way.
-/
theorem run_ends (hsteps : as.map Prod.fst ++ rest = plan.steps parts) (hfirst : as ≠ [])
    (hparts : parts.flatten = content) (hbeside : plan.IsBeside) (v : Volume) :
    ∃ outcome w, plan.run false as v = (outcome, w) ∧
      plan.RunEnds v content rest (∀ a ∈ as, a.2 = none) outcome w := by
  obtain ⟨⟨step, refusal⟩, as, rfl⟩ := List.exists_cons_of_ne_nil hfirst
  obtain rfl : step = .makeDirectories := (List.cons.inj hsteps).1
  rw [run]
  rcases plan.attempt_makeDirectories refusal v with ⟨u, hmade, hdone⟩ | ⟨e, w, hrefused, hw⟩
  · rw [hdone]
    rcases (stage_made u hsteps hparts).run hbeside with
      ⟨created, w, hrun, hstage⟩ | ⟨e, w, hrun, hsame, hwhy⟩
    · exact ⟨_, w, hrun, .reached hmade hstage⟩
    · exact ⟨_, w, hrun, .undone hmade hsame fun hnone => hwhy (List.forall_mem_cons.mp hnone).2⟩
  · rw [hrefused]
    rcases hw with ⟨rfl, hsome⟩ | ⟨cause, hmade⟩
    · exact ⟨_, _, rfl, .unwilling fun hnone => hsome (List.forall_mem_cons.mp hnone).1⟩
    · exact ⟨_, _, rfl, .unmade hmade⟩

/-- Every volume that a run of a save's first steps passes through has no more than new directories, or is one of a
stage after them. -/
theorem trail_cases (hsteps : as.map Prod.fst ++ rest = plan.steps parts) (hfirst : as ≠ [])
    (hparts : parts.flatten = content) (hbeside : plan.IsBeside) (hx : x ∈ plan.trail false as v) :
    Volume.Gains plan.target.parent v x ∨ ∃ u steps created, Volume.Gains plan.target.parent v u ∧
      plan.Stage u content (steps ++ rest) created x := by
  obtain ⟨⟨step, refusal⟩, as, rfl⟩ := List.exists_cons_of_ne_nil hfirst
  obtain rfl : step = .makeDirectories := (List.cons.inj hsteps).1
  rw [trail, List.mem_cons] at hx
  rcases hx with rfl | hx
  · exact .inl (.refl _ _)
  rcases plan.attempt_makeDirectories refusal v with ⟨u, hmade, hdone⟩ | ⟨e, w, hrefused, hw⟩
  · have hgains := Volume.gains_of_makeDirectories hmade
    rw [hdone] at hx
    rcases (stage_made u hsteps hparts).trail hbeside hx with ⟨steps, created, hstage⟩ | hsame
    · exact .inr ⟨u, steps, created, hgains, hstage⟩
    · exact .inl (hgains.trans (.of_eq hsame))
  · rw [hrefused] at hx
    simp only [Bool.false_eq_true, ↓reduceIte, List.mem_cons, List.not_mem_nil, or_false, or_self] at hx
    subst hx
    rcases hw with ⟨rfl, _⟩ | ⟨cause, hmade⟩
    · exact .inl (.refl _ _)
    · exact .inl (Volume.gains_of_makeDirectories hmade)

end SavePlan

end TableServer
