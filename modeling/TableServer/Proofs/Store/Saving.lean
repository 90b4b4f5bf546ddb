import TableServer.Proofs.Store.Content
import TableServer.Proofs.Store.Naming
import TableServer.Proofs.Store.Steps

namespace TableServer

namespace Volume

/-- Nothing is in the way of a save: a file can be made under the temporary name and moved to the other. -/
structure Clear (v : Volume) (p : Path) (place : Place) (name temporary : String) : Prop where
  temporary_fits : FitsIn p temporary
  temporary_free : v.node? (place ++ [temporary]) = none
  fits : FitsIn p name
  no_directory : v.node? (place ++ [name]) ≠ some .directory

end Volume

namespace SavePlan

variable {directory : Path} {name temporary : String} {sync : Bool} {u : Volume} {place : Place}

/-- The plan of a save in a directory. -/
def inside (directory : Path) (name temporary : String) (sync : Bool) : SavePlan :=
  ⟨directory.child name, directory.child temporary, sync⟩

/-- Attempts that the system does not refuse of its own accord. -/
abbrev attempts (steps : List SaveStep) : List Attempt := steps.map fun step => (step, none)

theorem map_fst_attempts_append {first rest steps : List SaveStep} (h : first ++ rest = steps) :
    (attempts first).map Prod.fst ++ rest = steps := by
  rw [attempts, List.map_map]
  exact (congrArg (· ++ rest) (List.map_id first)).trans h

theorem refusal_of_mem_attempts {steps : List SaveStep} {a : Attempt} (h : a ∈ attempts steps) : a.2 = none := by
  obtain ⟨step, _, rfl⟩ := List.mem_map.mp h
  rfl

theorem parent_target_inside (directory : Path) (name temporary : String) (sync : Bool) :
    (inside directory name temporary sync).target.parent = directory := Path.parent_child directory name

theorem isBeside_inside (directory : Path) (sync : Bool) (htemporary : temporary ≠ "..") (hne : temporary ≠ name) :
    (inside directory name temporary sync).IsBeside := by
  refine ⟨temporary, ?_, htemporary, ?_⟩
  · rw [parent_target_inside]
    rfl
  · rw [inside, Path.name_child]
    exact hne

theorem unhindered_of_clear (sync : Bool) (hleads : u.Leads directory place) (hname : FileStore.IsPlain name)
    (htemporary : temporary ≠ "..") (h : u.Clear directory place name temporary) :
    (inside directory name temporary sync).Unhindered u := by
  refine ⟨⟨_, ?_, h.temporary_free⟩, ⟨_, ?_, h.no_directory⟩, ?_⟩
  · exact (hleads.resolve_child htemporary).trans (if_pos h.temporary_fits)
  · exact (hleads.resolve_child hname.ne_dots).trans (if_pos h.fits)
  · rw [inside, Path.name_child, not_or]
    exact ⟨hname.ne_empty, hname.ne_dots⟩

/-- A save in a directory has replaced the file of the name. -/
theorem Replaced.of_inside {content : Bytes} {w : Volume} {goal : Place}
    (h : (inside directory name temporary sync).Replaced content u w goal) (hleads : u.Leads directory place)
    (hname : name ≠ "..") : Volume.FitsIn directory name ∧ goal = place ++ [name] :=
  (hleads.of_sameBut h.same h.replaceable).of_resolve_child hname h.leads

/-- The temporary file of a save in a directory is there under its name. -/
theorem Writing.of_inside {done : Bytes} {w : Volume} {q : Place}
    (h : (inside directory name temporary sync).Writing done u w q) (hleads : u.Leads directory place)
    (htemporary : temporary ≠ "..") : q = place ++ [temporary] :=
  ((hleads.of_keepsDirectories h.keepsDirectories).of_resolve_child htemporary h.leads).2

end SavePlan

namespace FileStore

variable {s : FileStore} {table name : String} {records : List Record}

/-- What a save can answer, with the volume that it can leave then, and why it fails if it does: it makes the data
directory where there is none, and then either nothing that a load can tell or all that it was asked for. -/
inductive Saving (s : FileStore) (name : String) (records : List Record) :
    Except StoreFailure Unit → Volume → Prop
  | refused {cause : Unexpected}
    (hwhy : s.directory.hasNul = true ∨ ∀ content, TableFile.encode records ≠ .ok content) :
    Saving s name records (.error (.unexpected cause)) s.volume
  | unmade {e : StoreFailure} {refusal : Path × FileError} {w : Volume}
    (hmade : s.volume.makeDirectories s.directory = (.error refusal, w)) : Saving s name records (.error e) w
  | failed {e : StoreFailure} {v w : Volume} {place : Place} (tag : String)
    (hmade : s.volume.makeDirectories s.directory = (.ok (), v)) (hleads : v.Leads s.directory place)
    (hkept : ∀ q, w.node? q = v.node? q ∨
      v.node? q = none ∧ q = place ++ [temporaryName name tag])
    (htag : (s.plan (s.directory.child name)).temporary = s.directory.child (temporaryName name tag))
    (hwhy : ¬ v.Clear s.directory place name (temporaryName name tag) ∨
      (∀ content, TableFile.encode records ≠ .ok content) ∧ ∃ cause, e = .unexpected cause) :
    Saving s name records (.error e) w
  | done {v w : Volume} {place : Place} {content : Bytes}
    (hmade : s.volume.makeDirectories s.directory = (.ok (), v)) (hleads : v.Leads s.directory place)
    (hfits : Volume.FitsIn s.directory name)
    (hgoal : v.node? (place ++ [name]) ≠ some .directory)
    (hencode : TableFile.encode records = .ok content) (hnul : s.directory.hasNul = false)
    (hself : w.node? (place ++ [name]) = some (.file content))
    (hsame : Volume.SameBut (place ++ [name]) v w) : Saving s name records (.ok ()) w

/-- The temporary file is beside the target, whichever number it takes. -/
theorem exists_tag (v : Volume) (p : Path) :
    ∃ tag, freeTemporary v p = p.parent.child (temporaryName p.name tag) := by
  unfold freeTemporary
  dsimp only
  cases hfind : List.find? _ _ with
  | none => exact ⟨_, rfl⟩
  | some t =>
    obtain ⟨n, _, hn⟩ := List.mem_map.mp (List.mem_of_find?_eq_some hfind)
    exact ⟨tag n, hn.symm⟩

theorem plan_eq (s : FileStore) (name : String) :
    ∃ tag, s.plan (s.directory.child name) =
      .inside s.directory name (temporaryName name tag) s.sync := by
  obtain ⟨tag, htag⟩ := exists_tag s.volume (s.directory.child name)
  rw [Path.parent_child, Path.name_child] at htag
  refine ⟨tag, ?_⟩
  rw [plan, htag]
  rfl

theorem hasNul_of_parent {p : Path} (h : p.parent.hasNul = true) : p.hasNul = true := by
  obtain ⟨name, hname, hnul⟩ := List.any_eq_true.mp h
  exact List.any_eq_true.mpr ⟨name, List.dropLast_subset _ hname, hnul⟩

/-- A save is refused at once, or it goes through all its steps, or it breaks off before the temporary file or at
an empty one. -/
theorem script_outcomes (plan : SavePlan) (records : List Record) :
    (∃ cause, script plan records = .error cause ∧
      (cause = .nulInPath ∧ plan.target.hasNul = true ∨ cause = .longNumber ∧ ∃ r ∈ records, ¬ r.IsShort)) ∨
    (∃ content, TableFile.encode records = .ok content ∧ plan.target.hasNul = false ∧
      script plan records = .ok ⟨plan.steps [content], .ok ()⟩) ∨
    (plan.target.parent.hasNul = false ∧ plan.target.hasNul = true ∧
      script plan records = .ok ⟨[.makeDirectories], .error .nulInPath⟩) ∨
    (TableFile.encode records = .error .unpairedSurrogate ∧
      script plan records = .ok ⟨[.makeDirectories, .create], .error .unpairedSurrogate⟩) := by
  unfold script
  cases hencode : TableFile.encode records with
  | ok content =>
    by_cases hparent : plan.target.parent.hasNul = true
    · exact .inl ⟨.nulInPath, by simp [hparent], .inl ⟨rfl, hasNul_of_parent hparent⟩⟩
    · cases htarget : plan.target.hasNul with
      | true => exact .inr (.inr (.inl ⟨Bool.eq_false_iff.mpr hparent, rfl, by simp [hparent]⟩))
      | false => exact .inr (.inl ⟨content, rfl, rfl, by simp [hparent]⟩)
  | error cause =>
    rcases TableFile.encode_eq_error hencode with ⟨rfl, hlong⟩ | ⟨rfl, _⟩
    · exact .inl ⟨.longNumber, rfl, .inr ⟨rfl, hlong⟩⟩
    · by_cases hparent : plan.target.parent.hasNul = true
      · exact .inl ⟨.nulInPath, by simp [hparent], .inl ⟨rfl, hasNul_of_parent hparent⟩⟩
      · cases htarget : plan.target.hasNul with
        | true => exact .inr (.inr (.inl ⟨Bool.eq_false_iff.mpr hparent, rfl, by simp [hparent]⟩))
        | false => exact .inr (.inr (.inr ⟨rfl, by simp [hparent]⟩))

/-- With a plain name a save is refused at once, or it goes through all its steps, or it breaks off at an empty
file. -/
theorem script_cases (directory : Path) (hname : IsPlain name) (tag : String) (sync : Bool)
    (records : List Record) :
    (directory.hasNul = true ∨ ∀ content, TableFile.encode records ≠ .ok content) ∧
      (∃ cause, script (.inside directory name (temporaryName name tag) sync) records = .error cause) ∨
    (∃ content, TableFile.encode records = .ok content ∧ directory.hasNul = false ∧
      script (.inside directory name (temporaryName name tag) sync) records =
        .ok ⟨(SavePlan.inside directory name
          (temporaryName name tag) sync).steps [content], .ok ()⟩) ∨
    (∀ content, TableFile.encode records ≠ .ok content) ∧
      ∃ cause, script (.inside directory name (temporaryName name tag) sync) records =
        .ok ⟨[.makeDirectories, .create], .error cause⟩ := by
  have htarget : (SavePlan.inside directory name (temporaryName name tag) sync).target.hasNul = directory.hasNul :=
    hasNul_child directory hname
  have hparent : (SavePlan.inside directory name (temporaryName name tag) sync).target.parent.hasNul =
      directory.hasNul := congrArg Path.hasNul (Path.parent_child directory name)
  have houtcomes := script_outcomes (.inside directory name (temporaryName name tag) sync) records
  rw [htarget, hparent] at houtcomes
  rcases houtcomes with ⟨cause, hscript, hcause⟩ | hall | ⟨hplain, hnul, _⟩ | ⟨hencode, hscript⟩
  · refine .inl ⟨?_, cause, hscript⟩
    rcases hcause with ⟨_, hnul⟩ | ⟨_, r, hr, hlong⟩
    · exact .inl hnul
    · right
      intro content hencode
      exact hlong ((TableFile.encode_isOk_iff records).mp ⟨content, hencode⟩ r hr).1
  · exact .inr (.inl hall)
  · rw [hplain] at hnul
    contradiction
  · refine .inr (.inr ⟨fun content hok => ?_, _, hscript⟩)
    rw [hencode] at hok
    contradiction

/-- The place where the data directory stands once it has been made. -/
theorem exists_leads_of_made (hslashes : s.directory.slashes ≤ 2) {v : Volume}
    (hmade : s.volume.makeDirectories s.directory = (.ok (), v)) : ∃ place, v.Leads s.directory place :=
  (Volume.isDirectory_iff _).mp (Volume.isDirectory_of_makeDirectories hslashes hmade)

variable {tag : String} {content : Bytes} {rest : List SaveStep} {willing : Prop} {w : Volume}

/-- A run that breaks off although the system is willing leaves no more than the data directory. -/
theorem saving_of_refused (hslashes : s.directory.slashes ≤ 2) (hname : IsPlain name)
    (htag : (s.plan (s.directory.child name)).temporary = s.directory.child (temporaryName name tag))
    {reason : FileError}
    (h : (SavePlan.inside s.directory name (temporaryName name tag) s.sync).RunEnds s.volume content rest willing
      (.error reason) w) (hwilling : willing) (e : StoreFailure) : Saving s name records (.error e) w := by
  cases h with
  | unmade hmade =>
    rw [SavePlan.parent_target_inside] at hmade
    exact .unmade hmade
  | unwilling hwhy => exact absurd hwilling hwhy
  | undone hmade hsame hwhy =>
    rw [SavePlan.parent_target_inside] at hmade
    obtain ⟨place, hplace⟩ := exists_leads_of_made hslashes hmade
    refine .failed tag hmade hplace (fun q => .inl (congrFun hsame q)) htag (.inl fun hclear => hwhy hwilling ?_)
    exact SavePlan.unhindered_of_clear s.sync hplace hname (temporaryName_ne_dots name tag) hclear

/-- A run of all the steps puts the content in place. -/
theorem saving_of_replaced (hslashes : s.directory.slashes ≤ 2) (hname : IsPlain name)
    (hencode : TableFile.encode records = .ok content) (hnul : s.directory.hasNul = false)
    (h : (SavePlan.inside s.directory name (temporaryName name tag) s.sync).RunEnds s.volume content [] willing
      (.ok ()) w) : Saving s name records (.ok ()) w := by
  cases h with
  | reached hmade hstage =>
    rw [SavePlan.parent_target_inside] at hmade
    obtain ⟨place, hplace⟩ := exists_leads_of_made hslashes hmade
    obtain ⟨goal, hreplaced⟩ := hstage.of_nil
    obtain ⟨hfits, rfl⟩ := hreplaced.of_inside hplace hname.ne_dots
    exact .done hmade hplace hfits hreplaced.replaceable hencode hnul hreplaced.holds hreplaced.same

/-- A run that stops where the temporary file has been made leaves it there. -/
theorem saving_of_stranded (hslashes : s.directory.slashes ≤ 2)
    (htag : (s.plan (s.directory.child name)).temporary = s.directory.child (temporaryName name tag))
    (hunwritten : ∀ content, TableFile.encode records ≠ .ok content) (cause : Unexpected)
    (h : (SavePlan.inside s.directory name (temporaryName name tag) s.sync).RunEnds s.volume content
      (.flush :: rest) willing (.ok ()) w) : Saving s name records (.error (.unexpected cause)) w := by
  cases h with
  | reached hmade hstage =>
    rw [SavePlan.parent_target_inside] at hmade
    obtain ⟨place, hplace⟩ := exists_leads_of_made hslashes hmade
    obtain ⟨q, hwriting⟩ := hstage.of_flush
    obtain rfl := hwriting.of_inside hplace (temporaryName_ne_dots name tag)
    refine .failed tag hmade hplace (fun q => ?_) htag (.inr ⟨hunwritten, cause, rfl⟩)
    by_cases hq : q = place ++ [temporaryName name tag]
    · exact .inr ⟨hq ▸ hwriting.free, hq⟩
    · exact .inl (hwriting.same q hq)

/-- All the steps of a save with a content. -/
theorem saving_of_content (hslashes : s.directory.slashes ≤ 2) (hname : IsPlain name)
    (htag : (s.plan (s.directory.child name)).temporary = s.directory.child (temporaryName name tag))
    (hencode : TableFile.encode records = .ok content) (hnul : s.directory.hasNul = false) (table : String)
    {plan : SavePlan} (hplan : plan = .inside s.directory name (temporaryName name tag) s.sync)
    (hbeside : plan.IsBeside) :
    ∃ outcome w, plan.run false (SavePlan.attempts (plan.steps [content])) s.volume = (outcome, w) ∧
      Saving s name records (conclude table plan ⟨plan.steps [content], .ok ()⟩ outcome) w := by
  obtain ⟨outcome, w, hrun, hends⟩ := SavePlan.run_ends
    (SavePlan.map_fst_attempts_append (List.append_nil (plan.steps [content]))) (List.cons_ne_nil _ _)
    List.flatten_singleton hbeside s.volume
  refine ⟨outcome, w, hrun, ?_⟩
  rw [hplan] at hends
  cases outcome with
  | error reason => exact saving_of_refused hslashes hname htag hends (fun _ => SavePlan.refusal_of_mem_attempts) _
  | ok _ => exact saving_of_replaced hslashes hname hencode hnul hends

/-- The steps of a save until the records turn out not to be writable. -/
theorem saving_of_unwritten (hslashes : s.directory.slashes ≤ 2) (hname : IsPlain name)
    (htag : (s.plan (s.directory.child name)).temporary = s.directory.child (temporaryName name tag))
    (hunwritten : ∀ content, TableFile.encode records ≠ .ok content) (cause : Unexpected) (table : String)
    {plan : SavePlan} (hplan : plan = .inside s.directory name (temporaryName name tag) s.sync)
    (hbeside : plan.IsBeside) :
    ∃ outcome w, plan.run false (SavePlan.attempts [.makeDirectories, .create]) s.volume = (outcome, w) ∧
      Saving s name records (conclude table plan ⟨[.makeDirectories, .create], .error cause⟩ outcome) w := by
  have hsteps : (SavePlan.attempts [.makeDirectories, .create]).map Prod.fst ++ plan.quietSteps = plan.steps [] := rfl
  obtain ⟨outcome, w, hrun, hends⟩ := SavePlan.run_ends hsteps (List.cons_ne_nil _ _) List.flatten_nil
    hbeside s.volume
  refine ⟨outcome, w, hrun, ?_⟩
  rw [hplan] at hends
  cases outcome with
  | error reason => exact saving_of_refused hslashes hname htag hends (fun _ => SavePlan.refusal_of_mem_attempts) _
  | ok _ => exact saving_of_stranded hslashes htag hunwritten cause hends

/-- Every save to a plain name in the data directory comes to one of these. -/
theorem replace_saving (hslashes : s.directory.slashes ≤ 2) (hpath : s.path table = .ok (s.directory.child name))
    (hname : IsPlain name) (records : List Record) :
    ∃ result w, s.replace table records = (result, { s with volume := w }) ∧
      Saving s name records result w := by
  obtain ⟨tag, hplan⟩ := plan_eq s name
  have htag : (s.plan (s.directory.child name)).temporary = s.directory.child (temporaryName name tag) :=
    congrArg SavePlan.temporary hplan
  have hbeside := SavePlan.isBeside_inside s.directory s.sync (temporaryName_ne_dots name tag)
    (temporaryName_ne_self name tag)
  unfold replace
  rw [hpath]
  dsimp only
  rw [hplan]
  obtain ⟨hwhy, cause, hscript⟩ | ⟨content, hencode, hnul, hscript⟩ | ⟨hunwritten, cause, hscript⟩ :=
    script_cases s.directory hname tag s.sync records
  all_goals
    rw [hscript]
    dsimp only
  · exact ⟨_, _, rfl, .refused hwhy⟩
  · obtain ⟨outcome, w, hrun, hsaving⟩ := saving_of_content hslashes hname htag hencode hnul table rfl hbeside
    rw [hrun]
    exact ⟨_, _, rfl, hsaving⟩
  · obtain ⟨outcome, w, hrun, hsaving⟩ := saving_of_unwritten hslashes hname htag hunwritten cause table rfl hbeside
    rw [hrun]
    exact ⟨_, _, rfl, hsaving⟩

end FileStore

end TableServer
