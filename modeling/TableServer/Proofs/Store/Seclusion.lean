import TableServer.Execution.Run
import TableServer.Proofs.Store.Opening
import TableServer.Proofs.Store.Unmade

namespace TableServer

namespace FileStore

variable {table other name : String}

/-- The names that loads and saves of a table use in the data directory. -/
def IsOwnName (table name : String) : Prop :=
  name = fileName table ∨ ∃ tag, name = temporaryName (fileName table) tag

theorem IsOwnName.ne_dots (h : IsOwnName table name) : name ≠ ".." := by
  rcases h with rfl | ⟨tag, rfl⟩
  · exact (isPlain_fileName table).ne_dots
  · exact temporaryName_ne_dots _ tag

theorem IsOwnName.ne_fileName (h : IsOwnName table name) (hother : safeName other ≠ "")
    (hne : safeName other ≠ safeName table) : name ≠ fileName other := by
  rcases h with rfl | ⟨tag, rfl⟩
  · exact fun heq => hne (safeName_eq_of_fileName heq).symm
  · exact temporaryName_ne_fileName _ tag hother

/-- The temporary files of other tables are none of the table's, for their names begin with the other name. -/
theorem IsOwnName.ne_temporaryName (h : IsOwnName table name) (htable : safeName table ≠ "")
    (hne : safeName other ≠ safeName table) (tag : String) : name ≠ temporaryName (fileName other) tag := by
  rcases h with rfl | ⟨tag', rfl⟩
  · exact (temporaryName_ne_fileName _ tag htable).symm
  · exact fun heq => hne (safeName_eq_of_temporaryName heq).symm

end FileStore

namespace Volume

variable {v w : Volume} {p : Path} {place : Place} {name other : String}

/-- Each operation on a name in a directory comes to what stands under the name, and whether the name fits. -/
theorem Leads.create_child (h : v.Leads p place) (hname : name ≠ "..") :
    v.create (p.child name) =
      if FitsIn p name then
        match v.node? (place ++ [name]) with
        | some _ => .error .occupied
        | none => .ok (v.put (place ++ [name]) (.file []))
      else .error .nameTooLong := by
  unfold create
  rw [h.resolve_child hname]
  split <;> rfl

theorem Leads.append_child (h : v.Leads p place) (hname : name ≠ "..") (more : Bytes) :
    v.append (p.child name) more =
      if FitsIn p name then
        match v.node? (place ++ [name]) with
        | some (.file content) => .ok (v.put (place ++ [name]) (.file (content ++ more)))
        | some .directory => .error .isDirectory
        | none => .error .notFound
      else .error .nameTooLong := by
  unfold append
  rw [h.resolve_child hname]
  split <;> rfl

theorem Leads.delete_child (h : v.Leads p place) (hname : name ≠ "..") :
    v.delete (p.child name) = if FitsIn p name then v.remove (place ++ [name]) else v := by
  unfold delete
  rw [h.resolve_child hname]
  by_cases hfits : FitsIn p name
  · rw [if_pos hfits, if_pos hfits]
  · rw [if_neg hfits, if_neg hfits]

theorem Leads.rename_child (h : v.Leads p place) (hname : name ≠ "..") (hother : FileStore.IsPlain other) :
    v.rename (p.child name) (p.child other) =
      if FitsIn p name ∧ FitsIn p other then
        match v.node? (place ++ [name]), v.node? (place ++ [other]) with
        | none, _ => .error .notFound
        | some _, some .directory => .error .isDirectory
        | some node, _ => .ok ((v.remove (place ++ [name])).put (place ++ [other]) node)
      else .error .nameTooLong := by
  unfold rename
  rw [h.resolve_child hname, h.resolve_child hother.ne_dots, Path.name_child]
  have hnames : ¬ (other = "" ∨ other = "..") := not_or.mpr ⟨hother.ne_empty, hother.ne_dots⟩
  by_cases hfits : FitsIn p name
  · by_cases hfits' : FitsIn p other
    · simp only [hfits, hfits', and_self, ↓reduceIte, bind, Except.bind, if_neg hnames]
      cases v.node? (place ++ [name]) with
      | none => rfl
      | some node => rcases v.node? (place ++ [other]) with _ | ⟨_ | content⟩ <;> rfl
    · simp [hfits, hfits', bind, Except.bind]
  · simp [hfits, bind, Except.bind]

theorem Leads.unique {q : Place} (h : v.Leads p place) (h' : v.Leads p q) : q = place :=
  Except.ok.inj (h'.resolves.symm.trans h.resolves)

/-- The data directory stands at the same place in both, and the names of a table stand for the same there. A table's
loads and saves meet these names and no others, and saves of other tables leave them alone. -/
structure Alike (directory : Path) (table : String) (place : Place) (v w : Volume) : Prop where
  left : v.Leads directory place
  right : w.Leads directory place
  same {name : String} : FileStore.IsOwnName table name → w.node? (place ++ [name]) = v.node? (place ++ [name])

variable {directory : Path} {table : String}

theorem Alike.refl (h : v.Leads directory place) : Alike directory table place v v := ⟨h, h, fun _ => rfl⟩

theorem sameBut_remove (v : Volume) (q : Place) : SameBut q v (v.remove q) := fun _ hq => node?_remove_of_ne v hq

/-- What happens to a name of the table, the same in both, leaves them alike. -/
theorem Alike.of_sameBut {x y : Volume} (h : Alike directory table place v w)
    (hname : FileStore.IsOwnName table name) (hnode : v.node? (place ++ [name]) ≠ some .directory)
    (hx : SameBut (place ++ [name]) v x) (hy : SameBut (place ++ [name]) w y)
    (hsame : y.node? (place ++ [name]) = x.node? (place ++ [name])) : Alike directory table place x y := by
  refine ⟨h.left.of_sameBut hx hnode, ?_, fun {n} hn => ?_⟩
  · rw [← h.same hname] at hnode
    exact h.right.of_sameBut hy hnode
  · by_cases heq : n = name
    · rw [heq, hsame]
    · rw [hx _ (concat_ne heq), hy _ (concat_ne heq), h.same hn]

theorem Alike.put (h : Alike directory table place v w) (hname : FileStore.IsOwnName table name)
    (hnode : v.node? (place ++ [name]) ≠ some .directory) (node : Node) :
    Alike directory table place (v.put (place ++ [name]) node) (w.put (place ++ [name]) node) := by
  apply h.of_sameBut hname hnode (sameBut_put v _ node) (sameBut_put w _ node)
  rw [node?_put_self _ _ (concat_ne_nil _ _), node?_put_self _ _ (concat_ne_nil _ _)]

theorem Alike.remove (h : Alike directory table place v w) (hname : FileStore.IsOwnName table name)
    (hnode : v.node? (place ++ [name]) ≠ some .directory) :
    Alike directory table place (v.remove (place ++ [name])) (w.remove (place ++ [name])) := by
  apply h.of_sameBut hname hnode (sameBut_remove v _) (sameBut_remove w _)
  rw [node?_remove_self _ (concat_ne_nil _ _), node?_remove_self _ (concat_ne_nil _ _)]

end Volume

namespace SavePlan

/-- A run begins with the directory, which stands then. -/
theorem run_of_made {plan : SavePlan} {u v : Volume} (h : v.makeDirectories plan.target.parent = (.ok (), u))
    (rest : List SaveStep) :
    plan.run false (attempts (.makeDirectories :: rest)) v = plan.run false (attempts rest) u := by
  rw [attempts, List.map_cons, SavePlan.run]
  simp only [SavePlan.attempt, SavePlan.perform, h]
  rfl

theorem run_of_refused {plan : SavePlan} {u v : Volume} {refusal : Path × FileError}
    (h : v.makeDirectories plan.target.parent = (.error refusal, u)) (rest : List SaveStep) :
    plan.run false (attempts (.makeDirectories :: rest)) v = (.error refusal.2, u) := by
  rw [attempts, List.map_cons, SavePlan.run]
  simp only [SavePlan.attempt, SavePlan.perform, h]
  rfl

variable {directory : Path} {table temporary : String} {sync : Bool} {place : Place} {v w : Volume}

/-- Volumes that look alike on the way of a save, with no directory under its temporary name: the path of the data
directory may come by that name and step back, and would lead nowhere without it. -/
structure Abreast (directory : Path) (table temporary : String) (place : Place) (v w : Volume) : Prop where
  alike : Volume.Alike directory table place v w
  no_directory : Volume.FitsIn directory temporary → v.node? (place ++ [temporary]) ≠ some .directory

/-- An outcome with the volume that it leaves, in one volume and in the other. -/
def Abreast.Both (directory : Path) (table temporary : String) (place : Place)
    (x y : Except FileError Unit × Volume) : Prop :=
  x.1 = y.1 ∧ Abreast directory table temporary place x.2 y.2

variable (hown : FileStore.IsOwnName table temporary) (hne : temporary ≠ FileStore.fileName table)
include hown hne

omit hne in
/-- The temporary file written anew. -/
theorem Abreast.written (h : Abreast directory table temporary place v w)
    (hfits : Volume.FitsIn directory temporary) (content : Bytes) :
    Abreast directory table temporary place (v.put (place ++ [temporary]) (.file content))
      (w.put (place ++ [temporary]) (.file content)) := by
  refine ⟨h.alike.put hown (h.no_directory hfits) _, fun _ => ?_⟩
  rw [Volume.node?_put_self _ _ (Volume.concat_ne_nil _ _)]
  nofun

/-- The temporary file moved onto the file of the table. -/
theorem Abreast.moved (h : Abreast directory table temporary place v w)
    (hfits : Volume.FitsIn directory temporary)
    (hgoal : v.node? (place ++ [FileStore.fileName table]) ≠ some .directory) (node : Node) :
    Abreast directory table temporary place
      ((v.remove (place ++ [temporary])).put (place ++ [FileStore.fileName table]) node)
      ((w.remove (place ++ [temporary])).put (place ++ [FileStore.fileName table]) node) := by
  constructor
  · apply (h.alike.remove hown (h.no_directory hfits)).put (.inl rfl)
    rw [Volume.node?_remove_of_ne _ (Volume.concat_ne hne.symm)]
    exact hgoal
  · intro _
    rw [Volume.node?_put_of_ne _ _ (Volume.concat_ne hne), Volume.node?_remove_self _ (Volume.concat_ne_nil _ _)]
    nofun

/-- A step ends the same way in both. -/
theorem Abreast.perform (h : Abreast directory table temporary place v w) (step : SaveStep) :
    Abreast.Both directory table temporary place
      ((inside directory (FileStore.fileName table) temporary sync).perform step v)
      ((inside directory (FileStore.fileName table) temporary sync).perform step w) := by
  have hleft := h.alike.left
  have hright := h.alike.right
  have hplain := FileStore.isPlain_fileName table
  cases step with
  | makeDirectories =>
    simp only [SavePlan.perform, parent_target_inside, Volume.makeDirectories_of_leads hleft,
      Volume.makeDirectories_of_leads hright]
    exact ⟨rfl, h⟩
  | create =>
    simp only [SavePlan.perform, inside, hleft.create_child hown.ne_dots, hright.create_child hown.ne_dots,
      h.alike.same hown]
    by_cases hfits : Volume.FitsIn directory temporary
    · simp only [hfits, ↓reduceIte]
      cases v.node? (place ++ [temporary]) with
      | some node => exact ⟨rfl, h⟩
      | none => exact ⟨rfl, h.written hown hfits []⟩
    · simp only [hfits, ↓reduceIte]
      exact ⟨rfl, h⟩
  | write part =>
    simp only [SavePlan.perform, inside, hleft.append_child hown.ne_dots, hright.append_child hown.ne_dots,
      h.alike.same hown]
    by_cases hfits : Volume.FitsIn directory temporary
    · simp only [hfits, ↓reduceIte]
      rcases v.node? (place ++ [temporary]) with _ | ⟨_ | content⟩
      · exact ⟨rfl, h⟩
      · exact ⟨rfl, h⟩
      · exact ⟨rfl, h.written hown hfits (content ++ part)⟩
    · simp only [hfits, ↓reduceIte]
      exact ⟨rfl, h⟩
  | flush => exact ⟨rfl, h⟩
  | sync => exact ⟨rfl, h⟩
  | replace =>
    simp only [SavePlan.perform, inside, hleft.rename_child hown.ne_dots hplain,
      hright.rename_child hown.ne_dots hplain, h.alike.same hown, h.alike.same (.inl rfl)]
    by_cases hfits : Volume.FitsIn directory temporary ∧ Volume.FitsIn directory (FileStore.fileName table)
    · simp only [hfits, and_self, ↓reduceIte]
      cases v.node? (place ++ [temporary]) with
      | none => exact ⟨rfl, h⟩
      | some node =>
        have hmoved := fun hgoal => h.moved hown hne hfits.1 hgoal node
        rcases hgoal : v.node? (place ++ [FileStore.fileName table]) with _ | ⟨_ | content⟩
        · exact ⟨rfl, hmoved (by simp [hgoal])⟩
        · exact ⟨rfl, h⟩
        · exact ⟨rfl, hmoved (by simp [hgoal])⟩
    · simp only [hfits, ↓reduceIte]
      exact ⟨rfl, h⟩

omit hne in
theorem Abreast.delete (h : Abreast directory table temporary place v w) :
    Abreast directory table temporary place (v.delete (directory.child temporary))
      (w.delete (directory.child temporary)) := by
  rw [h.alike.left.delete_child hown.ne_dots, h.alike.right.delete_child hown.ne_dots]
  split
  · next hfits =>
    refine ⟨h.alike.remove hown (h.no_directory hfits), fun _ => ?_⟩
    rw [Volume.node?_remove_self _ (Volume.concat_ne_nil _ _)]
    nofun
  · exact h

/-- A run ends the same way in both, whatever the system refuses. -/
theorem Abreast.run (h : Abreast directory table temporary place v w) (created : Bool) (as : List Attempt) :
    Abreast.Both directory table temporary place
      ((inside directory (FileStore.fileName table) temporary sync).run created as v)
      ((inside directory (FileStore.fileName table) temporary sync).run created as w) := by
  induction as generalizing created v w with
  | nil => exact ⟨rfl, h⟩
  | cons a as ih =>
    have hattempt : Abreast.Both directory table temporary place
        ((inside directory (FileStore.fileName table) temporary sync).attempt a v)
        ((inside directory (FileStore.fileName table) temporary sync).attempt a w) := by
      unfold SavePlan.attempt
      cases a.2 with
      | some e => exact ⟨rfl, h⟩
      | none => exact h.perform hown hne a.1
    rw [SavePlan.run, SavePlan.run]
    rcases hv : (inside directory (FileStore.fileName table) temporary sync).attempt a v with ⟨outcome, x⟩
    rcases hw : (inside directory (FileStore.fileName table) temporary sync).attempt a w with ⟨outcome', y⟩
    rw [hv, hw] at hattempt
    obtain ⟨rfl, hnext⟩ : outcome = outcome' ∧ Abreast directory table temporary place x y := hattempt
    cases outcome with
    | ok _ => exact ih hnext _
    | error e =>
      refine ⟨rfl, ?_⟩
      cases created with
      | false => exact hnext
      | true => exact hnext.delete hown

end SavePlan

namespace FileStore

variable {s : FileStore} {table other : String} {records : List Record} {u v w x y : Volume} {place : Place}

/-- Both volumes have the same free temporary name. -/
theorem Alike.freeTemporary (h : Volume.Alike s.directory table place v w) :
    FileStore.freeTemporary v (s.directory.child (fileName table)) =
      FileStore.freeTemporary w (s.directory.child (fileName table)) := by
  have hvacant : ∀ n, IsVacant v s.directory place (fileName table) n ↔
      IsVacant w s.directory place (fileName table) n := by
    intro n
    rw [IsVacant, IsVacant, h.same (.inr ⟨_, rfl⟩)]
  obtain ⟨m, hm, hfree, hbefore⟩ := freeTemporary_first h.left (fileName table)
  obtain ⟨n, hn, hfree', hbefore'⟩ := freeTemporary_first h.right (fileName table)
  have hmn : m = n := by
    apply Nat.le_antisymm
    · exact Nat.le_of_not_lt fun hlt => hbefore n hlt ((hvacant n).mpr hfree')
    · exact Nat.le_of_not_lt fun hlt => hbefore' m hlt ((hvacant m).mp hfree)
  rw [hm, hn, hmn]

/-- The plan of a save is the same in both, and finds no directory under its temporary name. -/
theorem exists_plan (h : Volume.Alike s.directory table place v w) :
    ∃ temporary, IsOwnName table temporary ∧ temporary ≠ fileName table ∧
      (s.on v).plan (s.directory.child (fileName table)) = .inside s.directory (fileName table) temporary s.sync ∧
      (s.on w).plan (s.directory.child (fileName table)) = .inside s.directory (fileName table) temporary s.sync ∧
      SavePlan.Abreast s.directory table temporary place v w := by
  obtain ⟨n, hn, hvacant, _⟩ := freeTemporary_first h.left (fileName table)
  have hw := (Alike.freeTemporary h).symm.trans hn
  refine ⟨temporaryName (fileName table) (tag n), .inr ⟨_, rfl⟩, temporaryName_ne_self _ _, ?_, ?_, h, ?_⟩
  · exact congrArg (SavePlan.mk (s.directory.child (fileName table)) · s.sync) hn
  · exact congrArg (SavePlan.mk (s.directory.child (fileName table)) · s.sync) hw
  · intro hfits
    rw [hvacant.resolve_left fun hlong => hlong hfits]
    nofun

theorem replace_on {p : Path} (hpath : s.path table = .ok p) (v : Volume) (records : List Record) :
    (s.on v).replace table records =
      match script ((s.on v).plan p) records with
      | .error cause => (.error (.unexpected cause), s.on v)
      | .ok script =>
        (conclude table ((s.on v).plan p) script
            (((s.on v).plan p).run false (SavePlan.attempts script.steps) v).1,
          s.on (((s.on v).plan p).run false (SavePlan.attempts script.steps) v).2) := by
  have hpath' : (s.on v).path table = .ok p := hpath
  unfold replace
  rw [hpath']
  dsimp only
  cases script ((s.on v).plan p) records <;> rfl

/-- A save of the table answers the same in both, and leaves them alike. -/
theorem replace_alike (hpath : s.path table = .ok (s.directory.child (fileName table)))
    (h : Volume.Alike s.directory table place v w) (records : List Record) :
    ∃ result x y, (s.on v).replace table records = (result, s.on x) ∧
      (s.on w).replace table records = (result, s.on y) ∧ Volume.Alike s.directory table place x y := by
  obtain ⟨temporary, hown, hne, hv, hw, habreast⟩ := exists_plan h
  rw [replace_on hpath, replace_on hpath, hv, hw]
  cases script (.inside s.directory (fileName table) temporary s.sync) records with
  | error cause => exact ⟨_, v, w, rfl, rfl, h⟩
  | ok script =>
    obtain ⟨hsame, hafter⟩ :=
      @SavePlan.Abreast.run _ _ _ s.sync _ _ _ hown hne habreast false (SavePlan.attempts script.steps)
    dsimp only
    rw [hsame]
    exact ⟨_, _, _, rfl, rfl, hafter.alike⟩

/-- The data directory stands in `u`, made from `v` where it did not stand there; neither a load of the table nor the
choice of its temporary file tells the one from the other. -/
structure Shows (s : FileStore) (table : String) (place : Place) (v u : Volume) : Prop where
  made : v.makeDirectories s.directory = (.ok (), u)
  leads : u.Leads s.directory place
  read : (s.on v).read table = (s.on u).read table
  temporary : FileStore.freeTemporary v (s.directory.child (fileName table)) =
    FileStore.freeTemporary u (s.directory.child (fileName table))

theorem shows_self (h : u.Leads s.directory place) : s.Shows table place u u :=
  ⟨Volume.makeDirectories_of_leads h, h, rfl, rfl⟩

/-- A save begins with the directory. -/
theorem script_begins {plan : SavePlan} {sc : Script} (h : script plan records = .ok sc) :
    ∃ rest, sc.steps = .makeDirectories :: rest := by
  obtain ⟨cause, hscript, -⟩ | ⟨content, -, -, hscript⟩ | ⟨-, -, hscript⟩ | ⟨-, hscript⟩ :=
    script_outcomes plan records
  all_goals rw [hscript] at h
  · contradiction
  all_goals
    obtain rfl := Except.ok.inj h
    exact ⟨_, rfl⟩

/-- A save of the table makes the directory first, so that it may as well stand already. -/
theorem Shows.replace (hpath : s.path table = .ok (s.directory.child (fileName table)))
    (h : s.Shows table place v u) (records : List Record) :
    ∃ result x y, (s.on v).replace table records = (result, s.on x) ∧
      (s.on u).replace table records = (result, s.on y) ∧ (x = y ∨ x = v ∧ y = u) := by
  have hplan : (s.on v).plan (s.directory.child (fileName table)) =
      (s.on u).plan (s.directory.child (fileName table)) :=
    congrArg (SavePlan.mk (s.directory.child (fileName table)) · s.sync) h.temporary
  rw [replace_on hpath, replace_on hpath, hplan]
  cases hscript : script ((s.on u).plan (s.directory.child (fileName table))) records with
  | error cause => exact ⟨_, v, u, rfl, rfl, .inr ⟨rfl, rfl⟩⟩
  | ok script =>
    obtain ⟨rest, hsteps⟩ := script_begins hscript
    have hparent : ((s.on u).plan (s.directory.child (fileName table))).target.parent = s.directory :=
      Path.parent_child _ _
    dsimp only
    rw [hsteps, SavePlan.run_of_made (hparent.symm ▸ h.made),
      SavePlan.run_of_made (hparent.symm ▸ Volume.makeDirectories_of_leads h.leads)]
    exact ⟨_, _, _, rfl, rfl, .inl rfl⟩

/-- What a save of another table can leave: nothing is done, or the data directory cannot be made, or it is made and
the names of the table stay as they are. -/
inductive Spares (s : FileStore) (table : String) (records : List Record) (x : Volume) : Prop
  | refused (hwhy : s.directory.hasNul = true ∨ ∀ content, TableFile.encode records ≠ .ok content)
    (hsame : x = s.volume)
  | unmade {refusal : Path × FileError} (hmade : s.volume.makeDirectories s.directory = (.error refusal, x))
  | made {u : Volume} {place : Place} (hmade : s.volume.makeDirectories s.directory = (.ok (), u))
    (halike : Volume.Alike s.directory table place u x)

/-- A save of another table goes through names of its own, however it ends. -/
theorem replace_spares (hslashes : s.directory.slashes ≤ 2)
    (hother : s.path other = .ok (s.directory.child (fileName other))) (htable : safeName table ≠ "")
    (hne : safeName other ≠ safeName table) (records : List Record) :
    ∃ x, (s.replace other records).2 = s.on x ∧ s.Spares table records x := by
  obtain ⟨result, x, hreplace, hsaving⟩ := replace_saving hslashes hother (isPlain_fileName other) records
  refine ⟨x, congrArg Prod.snd hreplace, ?_⟩
  cases hsaving with
  | refused hwhy => exact .refused hwhy rfl
  | unmade hmade => exact .unmade hmade
  | @failed _ u _ place tag hmade hleads hkept _ _ =>
    have hafter := hleads.of_keepsDirectories (Volume.keepsDirectories_of_new hkept)
    refine .made hmade ⟨hleads, hafter, fun hname => ?_⟩
    rcases hkept (place ++ [_]) with hsame | ⟨_, heq⟩
    · exact hsame
    · exact absurd heq (Volume.concat_ne (hname.ne_temporaryName htable hne tag))
  | done hmade hleads hfits hgoal hencode hnul hself hsame =>
    refine .made hmade ⟨hleads, hleads.of_sameBut hsame hgoal, fun hname => ?_⟩
    exact hsame _ (Volume.concat_ne (hname.ne_fileName (safeName_ne_empty_of_path hother) hne))

/-- After a save of another table that can be written, a load tells what it tells of the data directory as made. -/
theorem Spares.read {x : Volume} (hpath : s.path table = .ok (s.directory.child (fileName table)))
    (hnul : s.directory.hasNul = false) (hencode : ∃ content, TableFile.encode records = .ok content)
    (h : s.Spares table records x) :
    (s.on x).read table = (s.on (s.volume.makeDirectories s.directory).2).read table := by
  cases h with
  | refused hwhy =>
    obtain ⟨content, hcontent⟩ := hencode
    rcases hwhy with hnul' | hunwritten
    · rw [hnul] at hnul'
      contradiction
    · exact absurd hcontent (hunwritten content)
  | unmade hmade => rw [hmade]
  | made hmade halike =>
    rw [hmade]
    exact read_on hpath (isPlain_fileName table) halike.left halike.right (halike.same (.inl rfl))

/-- The data directory cannot be made; what comes of the attempt is `u`, which no load of the table tells. -/
structure Halts (s : FileStore) (table : String) (v u : Volume) : Prop where
  refused : ∃ refusal, v.makeDirectories s.directory = (.error refusal, u)
  again : ∃ refusal, u.makeDirectories s.directory = (.error refusal, u)
  read : (s.on v).read table = (s.on u).read table

theorem Halts.self (h : s.Halts table v u) : s.Halts table u u := ⟨h.again, h.again, rfl⟩

/-- Whether a save is refused at once does not depend on the temporary file. -/
theorem script_on {p : Path} (v w : Volume) (records : List Record) :
    script ((s.on v).plan p) records = script ((s.on w).plan p) records := rfl

/-- No save of any table comes further than the directory. -/
theorem replace_of_refused {p : Path} (hpath : s.path other = .ok p) {refusal : Path × FileError}
    (hmade : v.makeDirectories p.parent = (.error refusal, u)) (records : List Record) :
    (∃ cause, script ((s.on v).plan p) records = .error cause ∧
        (s.on v).replace other records = (.error (.unexpected cause), s.on v)) ∨
      (∃ sc, script ((s.on v).plan p) records = .ok sc) ∧
        (s.on v).replace other records = (.error (.reported (.unwritable other p refusal.2)), s.on u) := by
  rw [replace_on hpath]
  cases hscript : script ((s.on v).plan p) records with
  | error cause => exact .inl ⟨cause, rfl, rfl⟩
  | ok script =>
    refine .inr ⟨⟨script, rfl⟩, ?_⟩
    obtain ⟨rest, hsteps⟩ := script_begins hscript
    dsimp only
    rw [hsteps, SavePlan.run_of_refused hmade]
    rfl

/-- Two volumes that those who use the table cannot tell apart: the data directory stands or can be made in both, with
the same names of the table in it, or it can be made in neither. -/
inductive Indistinct (s : FileStore) (table : String) (v w : Volume) : Prop
  | standing {place : Place} {u u' : Volume} (hv : s.Shows table place v u) (hw : s.Shows table place w u')
    (halike : Volume.Alike s.directory table place u u')
  | halted {u : Volume} (hv : s.Halts table v u) (hw : s.Halts table w u)

/-- Saves that a client gets the same answer for. -/
def SameAnswer (a b : Except StoreFailure Unit) : Prop :=
  a.mapError StoreFailure.result = b.mapError StoreFailure.result

theorem Indistinct.read (hpath : s.path table = .ok (s.directory.child (fileName table)))
    (h : s.Indistinct table v w) : (s.on v).read table = (s.on w).read table := by
  cases h with
  | standing hv hw halike =>
    have hsame := read_on hpath (isPlain_fileName table) halike.left halike.right (halike.same (.inl rfl))
    rw [hv.read, ← hsame, hw.read]
  | halted hv hw => rw [hv.read, hw.read]

/-- A save in a volume shows what it comes to in the other. -/
theorem Shows.of_replaced (h : s.Shows table place v u) (hafter : y.Leads s.directory place)
    (hxy : x = y ∨ x = v ∧ y = u) : s.Shows table place x y := by
  rcases hxy with rfl | ⟨rfl, rfl⟩
  · exact shows_self hafter
  · exact h

/-- A save of the table answers the same in both and leaves them indistinct. Where the directory cannot be made the
two can fail for different reasons, of which the answer tells none. -/
theorem Indistinct.replace (hpath : s.path table = .ok (s.directory.child (fileName table)))
    (h : s.Indistinct table v w) (records : List Record) :
    ∃ result result' x y, (s.on v).replace table records = (result, s.on x) ∧
      (s.on w).replace table records = (result', s.on y) ∧ SameAnswer result result' ∧ s.Indistinct table x y := by
  cases h with
  | @standing place u u' hv hw halike =>
    obtain ⟨result, x, z, hx, hz, hxz⟩ := hv.replace hpath records
    obtain ⟨result', y, z', hy, hz', hyz⟩ := hw.replace hpath records
    obtain ⟨told, a, b, ha, hb, hafter⟩ := replace_alike hpath halike records
    obtain ⟨rfl, hza⟩ := Prod.mk.inj (hz.symm.trans ha)
    obtain ⟨rfl, hzb⟩ := Prod.mk.inj (hz'.symm.trans hb)
    obtain rfl : z = a := congrArg FileStore.volume hza
    obtain rfl : z' = b := congrArg FileStore.volume hzb
    exact ⟨_, _, x, y, hx, hy, rfl,
      .standing (hv.of_replaced hafter.left hxz) (hw.of_replaced hafter.right hyz) hafter⟩
  | @halted u hv hw =>
    have hparent : (s.directory.child (fileName table)).parent = s.directory := Path.parent_child _ _
    obtain ⟨refusal, hmade⟩ := hv.refused
    obtain ⟨refusal', hmade'⟩ := hw.refused
    rw [← hparent] at hmade hmade'
    rcases replace_of_refused hpath hmade records with ⟨cause, hscript, hx⟩ | ⟨⟨sc, hscript⟩, hx⟩
    · rcases replace_of_refused hpath hmade' records with ⟨cause', _, hy⟩ | ⟨⟨sc, hscript'⟩, _⟩
      · exact ⟨_, _, v, w, hx, hy, rfl, .halted hv hw⟩
      · exact absurd (hscript.symm.trans ((script_on v w records).trans hscript')) nofun
    · rcases replace_of_refused hpath hmade' records with ⟨cause', hscript', _⟩ | ⟨_, hy⟩
      · exact absurd (hscript'.symm.trans ((script_on w v records).trans hscript)) nofun
      · exact ⟨_, _, u, u, hx, hy, rfl, .halted hv.self hv.self⟩

theorem Indistinct.replace_other (hslashes : s.directory.slashes ≤ 2)
    (hother : s.path other = .ok (s.directory.child (fileName other))) (htable : safeName table ≠ "")
    (hne : safeName other ≠ safeName table) (h : s.Indistinct table v w) (records : List Record) :
    ∃ x, ((s.on v).replace other records).2 = s.on x ∧ s.Indistinct table x w := by
  obtain ⟨x, hx, hspares⟩ := @replace_spares (s.on v) table other hslashes hother htable hne records
  refine ⟨x, hx, ?_⟩
  cases h with
  | @standing place u u' hv hw halike =>
    cases hspares with
    | refused _ hsame => exact hsame ▸ .standing hv hw halike
    | unmade hmade => exact absurd (Prod.mk.inj (hmade.symm.trans hv.made)).1 nofun
    | made hmade hafter =>
      obtain rfl := (Prod.mk.inj (hmade.symm.trans hv.made)).2
      obtain rfl := hv.leads.unique hafter.left
      refine .standing (shows_self hafter.right) hw ⟨hafter.right, halike.right, fun hname => ?_⟩
      rw [halike.same hname, hafter.same hname]
  | @halted u hv hw =>
    obtain ⟨refusal, hrefused⟩ := hv.refused
    cases hspares with
    | refused _ hsame => exact hsame ▸ .halted hv hw
    | unmade hmade =>
      obtain rfl := (Prod.mk.inj (hmade.symm.trans hrefused)).2
      exact .halted hv.self hw
    | made hmade => exact absurd (Prod.mk.inj (hmade.symm.trans hrefused)).1 nofun

/-- Making the data directory changes nothing that a load of the table tells. -/
def Undisturbed (s : FileStore) (table : String) : Prop :=
  (s.on (s.volume.makeDirectories s.directory).2).read table = s.read table

/-- The data directory stands, or no temporary file of the table is in it when it has been made. -/
def Unlittered (s : FileStore) (table : String) : Prop :=
  s.volume.isDirectory s.directory = true ∨ ∀ v place, s.volume.makeDirectories s.directory = (.ok (), v) →
    v.Leads s.directory place → v.node? (place ++ [temporaryName (fileName table) (tag 0)]) = none

/-- The attempt to make the data directory makes nothing, or it makes all of it in a tree, by a path that does not step
back. -/
def MakesCleanly (s : FileStore) : Prop :=
  (s.volume.makeDirectories s.directory).2 = s.volume ∨
    s.volume.IsTree ∧ ".." ∉ s.directory.names ∧ ∃ v, s.volume.makeDirectories s.directory = (.ok (), v)

/-- A table is disturbed only where something is made, and where its path can be looked up. -/
theorem of_not_undisturbed (hpath : s.path table = .ok (s.directory.child (fileName table)))
    (h : ¬ s.Undisturbed table) : (s.volume.makeDirectories s.directory).2 ≠ s.volume ∧
      s.directory.hasNul = false ∧ (s.directory.child (fileName table)).toString.utf8ByteSize ≤ Volume.pathLimit := by
  have hplain := isPlain_fileName table
  unfold Undisturbed at h
  rw [read_eq hpath hplain, read_on_eq hpath hplain] at h
  refine ⟨?_, ?_, ?_⟩
  · intro hsame
    rw [hsame] at h
    exact h rfl
  · cases hnul : s.directory.hasNul with
    | false => rfl
    | true =>
      rw [hnul] at h
      exact absurd rfl h
  · apply Nat.le_of_not_lt
    intro hlong
    rw [Volume.read_tooLong _ hlong, Volume.read_tooLong _ hlong] at h
    exact h rfl

/-- Where there is nothing in the way of the first number, the save takes it before and after. -/
theorem Unlittered.freeTemporary (h : s.Unlittered table)
    (hmade : s.volume.makeDirectories s.directory = (.ok (), v)) (hleads : v.Leads s.directory place) :
    FileStore.freeTemporary s.volume (s.directory.child (fileName table)) =
      FileStore.freeTemporary v (s.directory.child (fileName table)) := by
  cases hstands : s.volume.isDirectory s.directory with
  | true =>
    have hsame := (Volume.makeDirectories_of_isDirectory hstands).symm.trans hmade
    rw [(Prod.mk.inj hsame).2]
  | false =>
    have hsize := (Volume.resolve_eq_ok hleads.resolves).1
    obtain ⟨e, he⟩ := Volume.status_child_of_not_isDirectory hsize hstands (temporaryName (fileName table) (tag 0))
    have hnone : v.node? (place ++ [temporaryName (fileName table) (tag 0)]) = none := by
      rcases h with hstands' | hnone
      · rw [hstands] at hstands'
        contradiction
      · exact hnone v place hmade hleads
    obtain ⟨n, hn, _, hbefore⟩ := freeTemporary_first hleads (fileName table)
    have hzero : n = 0 := Nat.eq_zero_of_not_pos fun hpos => hbefore 0 hpos (.inr hnone)
    rw [freeTemporary_zero he, hn, hzero]

/-- A volume in which the table is not disturbed is not told from itself, also when the directory is made on one side
only. -/
theorem indistinct_self (hslashes : s.directory.slashes ≤ 2) (hundisturbed : s.Undisturbed table)
    (hunlittered : s.Unlittered table) : s.Indistinct table s.volume s.volume := by
  unfold Undisturbed at hundisturbed
  rcases hmade : s.volume.makeDirectories s.directory with ⟨refusal | _, v⟩
  all_goals rw [hmade] at hundisturbed
  · have hhalts : s.Halts table s.volume v :=
      ⟨⟨refusal, hmade⟩, Volume.makeDirectories_again hmade, hundisturbed.symm⟩
    exact .halted hhalts hhalts
  · obtain ⟨place, hleads⟩ := exists_leads_of_made hslashes hmade
    have hshows : s.Shows table place s.volume v :=
      ⟨hmade, hleads, hundisturbed.symm, hunlittered.freeTemporary hmade hleads⟩
    exact .standing hshows hshows (.refl hleads)

theorem MakesCleanly.unlittered (h : s.MakesCleanly) (hslashes : s.directory.slashes ≤ 2) : s.Unlittered table := by
  cases hstands : s.volume.isDirectory s.directory with
  | true => exact .inl hstands
  | false =>
    refine .inr fun v place hmade hleads => ?_
    rcases h with hsame | ⟨htree, hdots, _⟩
    · rw [hmade] at hsame
      obtain rfl : v = s.volume := hsame
      rw [Volume.isDirectory_of_makeDirectories hslashes hmade] at hstands
      contradiction
    · exact htree.empty_of_made hdots hstands hmade hleads _

/-- A directory that is made cleanly is empty, and was not there before: a load finds no file in either case. -/
theorem MakesCleanly.undisturbed (h : s.MakesCleanly) (hslashes : s.directory.slashes ≤ 2)
    (hpath : s.path table = .ok (s.directory.child (fileName table)))
    (hsize : (fileName table).utf8ByteSize ≤ Volume.nameLimit) : s.Undisturbed table := by
  unfold Undisturbed
  rcases h with hsame | ⟨htree, hdots, v, hmade⟩
  · rw [hsame]
    rfl
  · obtain ⟨place, hleads⟩ := exists_leads_of_made hslashes hmade
    have hplain := isPlain_fileName table
    rw [hmade, read_eq hpath hplain, read_on_eq hpath hplain,
      htree.read_made hdots hmade hleads hplain.ne_dots hsize]

end FileStore

end TableServer
