import TableServer.Proofs.Outcomes
import TableServer.Store.Save

namespace TableServer

/-- A name behind a path. -/
def Path.child (p : Path) (name : String) : Path := { p with names := p.names ++ [name] }

theorem Path.parent_child (p : Path) (name : String) : (p.child name).parent = p := by
  simp [Path.child, Path.parent]

theorem Path.name_child (p : Path) (name : String) : (p.child name).name = name := by
  simp [Path.child, Path.name]

namespace Volume

variable {v w : Volume}

/-- Every directory of one volume is one of the other. -/
def KeepsDirectories (v w : Volume) : Prop := ∀ q, v.node? q = some .directory → w.node? q = some .directory

/-- Names in a row are followed one after another, each from where the one before it has led. -/
theorem walk_append (v : Volume) (place : Place) (xs ys : List String) :
    v.walk place (xs ++ ys) = v.walk place xs >>= fun q => v.walk q ys := by
  induction xs generalizing place with
  | nil => rfl
  | cons x xs ih =>
    rw [List.cons_append, walk, walk]
    split
    · rfl
    · rfl
    · split
      · rfl
      · exact ih _

/-- A name is followed in a directory, and only if it is not too long. -/
theorem walk_cons_eq_ok_iff {place goal : Place} {name : String} {names : List String} :
    v.walk place (name :: names) = .ok goal ↔ v.node? place = some .directory ∧ name.utf8ByteSize ≤ nameLimit ∧
      v.walk (if name = ".." then place.dropLast else place ++ [name]) names = .ok goal := by
  rw [walk]
  by_cases hlong : nameLimit < name.utf8ByteSize
  · rcases v.node? place with _ | _ | content <;> simp [hlong, Nat.not_le.mpr hlong]
  · rcases v.node? place with _ | _ | content <;> simp [hlong, Nat.le_of_not_lt hlong]

theorem walk_child_eq_ok_iff {p : Path} {name : String} {goal : Place} :
    v.walk [] (p.child name).names = .ok goal ↔ ∃ place, v.walk [] p.names = .ok place ∧
      v.node? place = some .directory ∧ name.utf8ByteSize ≤ nameLimit ∧
      goal = if name = ".." then place.dropLast else place ++ [name] := by
  rw [Path.child, walk_append, bind_ok]
  refine exists_congr fun place => and_congr_right fun _ => ?_
  rw [walk_cons_eq_ok_iff, walk, Except.ok.injEq]
  exact and_congr_right fun _ => and_congr_right fun _ => eq_comm

/-- A path that leads to a place goes through directories only, so that it does so as long as those stand. -/
theorem walk_of_keepsDirectories (h : v.KeepsDirectories w) {place goal : Place} {names : List String}
    (hwalk : v.walk place names = .ok goal) : w.walk place names = .ok goal := by
  induction names generalizing place with
  | nil => exact hwalk
  | cons name names ih =>
    obtain ⟨hstands, hsize, hmore⟩ := walk_cons_eq_ok_iff.mp hwalk
    exact walk_cons_eq_ok_iff.mpr ⟨h place hstands, hsize, ih hmore⟩

theorem resolve_eq_ok {p : Path} {place : Place} (h : v.resolve p = .ok place) :
    p.toString.utf8ByteSize ≤ pathLimit ∧ v.walk [] p.names = .ok place := by
  unfold resolve at h
  split at h
  · contradiction
  · next hlimit => exact ⟨Nat.le_of_not_lt hlimit, h⟩

theorem resolve_of_keepsDirectories (h : v.KeepsDirectories w) {p : Path} {place : Place}
    (hp : v.resolve p = .ok place) : w.resolve p = .ok place := by
  obtain ⟨hlimit, hwalk⟩ := resolve_eq_ok hp
  rw [resolve, if_neg (Nat.not_lt.mpr hlimit)]
  exact walk_of_keepsDirectories h hwalk

/-- A path to a directory that stands there. -/
structure Leads (v : Volume) (p : Path) (place : Place) : Prop where
  resolves : v.resolve p = .ok place
  stands : v.node? place = some .directory

theorem isDirectory_iff (p : Path) : v.isDirectory p = true ↔ ∃ place, v.Leads p place := by
  unfold isDirectory status
  cases hp : v.resolve p with
  | error e => exact ⟨fun h => by contradiction, fun ⟨_, h, _⟩ => by rw [hp] at h; contradiction⟩
  | ok place =>
    constructor
    · intro h
      refine ⟨place, hp, ?_⟩
      cases hn : v.node? place with
      | none => simp [hn, bind, Except.bind] at h
      | some node =>
        cases node with
        | directory => rfl
        | file content => simp [hn, bind, Except.bind] at h
    · rintro ⟨place', hp', hn⟩
      rw [hp] at hp'
      obtain rfl := Except.ok.inj hp'
      simp [hn, bind, Except.bind]

theorem Leads.of_keepsDirectories {p : Path} {place : Place} (h : v.Leads p place)
    (hkeeps : v.KeepsDirectories w) : w.Leads p place :=
  ⟨resolve_of_keepsDirectories hkeeps h.resolves, hkeeps place h.stands⟩

/-- Whether a name behind a path is neither too long itself nor makes the path too long. -/
def FitsIn (p : Path) (name : String) : Prop :=
  (p.child name).toString.utf8ByteSize ≤ pathLimit ∧ name.utf8ByteSize ≤ nameLimit

instance (p : Path) (name : String) : Decidable (FitsIn p name) := inferInstanceAs (Decidable (_ ∧ _))

theorem Leads.resolve_child {p : Path} {place : Place} (h : v.Leads p place) {name : String}
    (hname : name ≠ "..") :
    v.resolve (p.child name) = if FitsIn p name then .ok (place ++ [name]) else .error .nameTooLong := by
  obtain ⟨_, hwalk⟩ := resolve_eq_ok h.resolves
  unfold resolve
  have hchild : v.walk [] (p.child name).names =
      if nameLimit < name.utf8ByteSize then .error .nameTooLong else .ok (place ++ [name]) := by
    rw [Path.child, walk_append, hwalk]
    change v.walk place [name] = _
    rw [walk, h.stands]
    simp only [hname, ↓reduceIte, walk]
  rw [hchild]
  by_cases hpath : pathLimit < (p.child name).toString.utf8ByteSize
  · rw [if_pos hpath, if_neg fun hfits : FitsIn p name => Nat.not_lt.mpr hfits.1 hpath]
  · rw [if_neg hpath]
    by_cases hlong : nameLimit < name.utf8ByteSize
    · rw [if_pos hlong, if_neg fun hfits : FitsIn p name => Nat.not_lt.mpr hfits.2 hlong]
    · have hfits : FitsIn p name := ⟨Nat.le_of_not_lt hpath, Nat.le_of_not_lt hlong⟩
      rw [if_neg hlong, if_pos hfits]

theorem Leads.of_resolve_child {p : Path} {place q : Place} (h : v.Leads p place) {name : String}
    (hname : name ≠ "..") (hq : v.resolve (p.child name) = .ok q) : FitsIn p name ∧ q = place ++ [name] := by
  rw [h.resolve_child hname] at hq
  split at hq
  · next hfits => exact ⟨hfits, (Except.ok.inj hq).symm⟩
  · contradiction

theorem Leads.status_child {p : Path} {place : Place} (h : v.Leads p place) {name : String}
    (hname : name ≠ "..") : v.status (p.child name) =
      if FitsIn p name then
        match v.node? (place ++ [name]) with
        | none => .error .notFound
        | some node => .ok node
      else .error .nameTooLong := by
  unfold status
  rw [h.resolve_child hname]
  split <;> rfl

/-- What is read in a directory depends on what stands under the name. -/
theorem Leads.read_child {p : Path} {place : Place} (h : v.Leads p place) (h' : w.Leads p place) {name : String}
    (hname : name ≠ "..") (hnode : w.node? (place ++ [name]) = v.node? (place ++ [name])) :
    w.read (p.child name) = v.read (p.child name) := by
  unfold read
  rw [h.status_child hname, h'.status_child hname, hnode]

theorem Leads.read_child_file {p : Path} {place : Place} (h : v.Leads p place) {name : String}
    (hname : name ≠ "..") (hfits : FitsIn p name) {content : Bytes}
    (hnode : v.node? (place ++ [name]) = some (.file content)) : v.read (p.child name) = .ok content := by
  unfold read
  rw [h.status_child hname, if_pos hfits, hnode]
  rfl

/-- Two volumes with the same nodes at all places but one. -/
def SameBut (place : Place) (v w : Volume) : Prop := ∀ q, q ≠ place → w.node? q = v.node? q

theorem sameBut_put (v : Volume) (place : Place) (node : Node) : SameBut place v (v.put place node) :=
  fun _ hq => node?_put_of_ne v node hq

theorem SameBut.trans {u : Volume} {place : Place} (h : SameBut place u v) (h' : SameBut place v w) :
    SameBut place u w :=
  fun q hq => (h' q hq).trans (h q hq)

theorem SameBut.keepsDirectories {place : Place} (h : SameBut place v w)
    (hnode : v.node? place ≠ some .directory) : v.KeepsDirectories w := by
  intro q hq
  rw [h q, hq]
  rintro rfl
  exact hnode hq

/-- Something new at a place that was free. -/
theorem keepsDirectories_of_new {goal : Place}
    (h : ∀ q, w.node? q = v.node? q ∨ v.node? q = none ∧ q = goal) : v.KeepsDirectories w := by
  intro q hq
  rcases h q with hsame | ⟨hnone, _⟩
  · rw [hsame, hq]
  · rw [hq] at hnone
    contradiction

/-- A change at one place takes no directory away unless one stood there. -/
theorem Leads.of_sameBut {p : Path} {place goal : Place} (h : v.Leads p place) (hsame : SameBut goal v w)
    (hgoal : v.node? goal ≠ some .directory) : w.Leads p place :=
  h.of_keepsDirectories (hsame.keepsDirectories hgoal)

theorem SameBut.node?_remove {goal : Place} (h : SameBut goal v w) (hgoal : goal ≠ [])
    (hfree : v.node? goal = none) : (w.remove goal).node? = v.node? := by
  funext q
  by_cases hq : q = goal
  · rw [hq, hfree, node?_remove_self w hgoal]
  · rw [node?_remove_of_ne w hq, h q hq]

theorem concat_ne_nil (place : Place) (name : String) : place ++ [name] ≠ [] := by simp

theorem concat_ne {place : Place} {name other : String} (h : name ≠ other) : place ++ [name] ≠ place ++ [other] :=
  fun heq => h (List.cons.inj (List.append_cancel_left heq)).1

theorem ne_nil_of_node?_eq_none {place : Place} (h : v.node? place = none) : place ≠ [] := by
  rintro rfl
  simp [node?] at h

/-- A directory is made where nothing stands, and nothing else is changed. -/
theorem makeDirectory_eq_ok_iff {p : Path} :
    v.makeDirectory p = .ok w ↔ ∃ q, v.resolve p = .ok q ∧ v.node? q = none ∧ w = v.put q .directory := by
  rw [makeDirectory, bind_ok]
  refine exists_congr fun q => and_congr_right fun _ => ?_
  cases v.node? q <;> simp [eq_comm]

/-- A new node, found by the path that was free. -/
theorem resolve_put_of_free {p : Path} {q : Place} (hp : v.resolve p = .ok q) (hfree : v.node? q = none) (node : Node) :
    (v.put q node).resolve p = .ok q :=
  resolve_of_keepsDirectories ((sameBut_put v q node).keepsDirectories (by simp [hfree])) hp

theorem isDirectory_of_makeDirectory {p : Path} (h : v.makeDirectory p = .ok w) : w.isDirectory p = true := by
  obtain ⟨q, hp, hfree, rfl⟩ := makeDirectory_eq_ok_iff.mp h
  refine (isDirectory_iff p).mpr ⟨q, resolve_put_of_free hp hfree _, ?_⟩
  exact node?_put_self v .directory (ne_nil_of_node?_eq_none hfree)

theorem makeDirectory_of_isDirectory {p : Path} (h : v.isDirectory p = true) :
    v.makeDirectory p = .error .occupied := by
  obtain ⟨place, hplace, hstands⟩ := (isDirectory_iff p).mp h
  unfold makeDirectory
  rw [hplace]
  simp [hstands, bind, Except.bind]

/-- A directory that stands already is not made again. -/
theorem makeDirectories_of_isDirectory {p : Path} (h : v.isDirectory p = true) :
    v.makeDirectories p = (.ok (), v) := by
  unfold makeDirectories
  cases hnames : p.names.reverse with
  | nil => rfl
  | cons name above =>
    have hp : (⟨p.slashes, (name :: above).reverse⟩ : Path) = p := by
      rw [← hnames, List.reverse_reverse]
    rw [makeDirectoriesFrom, hp, makeDirectory_of_isDirectory h]
    simp only [h, ↓reduceIte]

theorem isDirectory_of_makeDirectoriesFrom {slashes : Nat} {name : String} {above : List String}
    (h : makeDirectoriesFrom slashes (name :: above) v = (.ok (), w)) :
    w.isDirectory ⟨slashes, (name :: above).reverse⟩ = true := by
  rw [makeDirectoriesFrom] at h
  dsimp only at h
  split at h
  case' h_1 =>
    split at h
    case h_2 => exact absurd (Prod.mk.inj h).1 nofun
  all_goals
    split at h
    · obtain rfl := (Prod.mk.inj h).2
      exact isDirectory_of_makeDirectory ‹_›
    · split at h
      · obtain rfl := (Prod.mk.inj h).2
        assumption
      · exact absurd (Prod.mk.inj h).1 nofun

/-- Where the making has ended well the directory stands. A path without names is the root, which always does if the
path is not too long, as it could be only with more slashes than a path has. -/
theorem isDirectory_of_makeDirectories {p : Path} (hslashes : p.slashes ≤ 2)
    (h : v.makeDirectories p = (.ok (), w)) : w.isDirectory p = true := by
  unfold makeDirectories at h
  cases hnames : p.names.reverse with
  | nil =>
    obtain ⟨slashes, names⟩ := p
    obtain rfl : names = [] := List.reverse_eq_nil_iff.mp hnames
    have hsize : (Path.toString ⟨slashes, []⟩).utf8ByteSize ≤ pathLimit := by
      have hsmall : ∀ n ≤ 2, (Path.toString ⟨n, []⟩).utf8ByteSize ≤ pathLimit := by decide
      exact hsmall slashes hslashes
    refine (isDirectory_iff _).mpr ⟨[], ?_, rfl⟩
    rw [resolve, if_neg (Nat.not_lt.mpr hsize)]
    rfl
  | cons name above =>
    have hp : (⟨p.slashes, (name :: above).reverse⟩ : Path) = p := by
      rw [← hnames, List.reverse_reverse]
    rw [hnames] at h
    exact hp ▸ isDirectory_of_makeDirectoriesFrom h

end Volume

end TableServer
