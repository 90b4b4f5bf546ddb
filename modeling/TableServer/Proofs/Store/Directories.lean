import TableServer.Proofs.Store.Places

namespace TableServer.Volume

variable {u v w : Volume} {p : Path} {q : Place}

/-- The places that a path comes by, its end included. -/
def LiesOn (w : Volume) (p : Path) (q : Place) : Prop :=
  ∃ names, names <+: p.names ∧ w.resolve ⟨p.slashes, names⟩ = .ok q

/-- The second volume has maybe more directories than the first, all of them on the way of a path, and is the same
otherwise. This is what making directories does, also where the last of them could not be made. -/
def Gains (p : Path) (v w : Volume) : Prop :=
  ∀ q, w.node? q = v.node? q ∨ v.node? q = none ∧ w.node? q = some .directory ∧ w.LiesOn p q

theorem Gains.of_eq (h : w.node? = v.node?) : Gains p v w :=
  fun q => .inl (congrFun h q)

theorem Gains.refl (p : Path) (v : Volume) : Gains p v v := .of_eq rfl

theorem Gains.keepsDirectories (h : Gains p v w) : v.KeepsDirectories w := by
  intro q hq
  rcases h q with hsame | ⟨hfree, _, _⟩
  · rw [hsame, hq]
  · rw [hq] at hfree
    contradiction

theorem LiesOn.of_keepsDirectories (h : v.LiesOn p q) (hkeeps : v.KeepsDirectories w) : w.LiesOn p q := by
  obtain ⟨names, hnames, hresolve⟩ := h
  exact ⟨names, hnames, resolve_of_keepsDirectories hkeeps hresolve⟩

theorem Gains.trans (h : Gains p u v) (h' : Gains p v w) : Gains p u w := by
  intro q
  rcases h' q with hsame | ⟨hfree, hmade, hon⟩
  · rcases h q with hsame' | ⟨hfree, hmade, hon⟩
    · exact .inl (hsame.trans hsame')
    · exact .inr ⟨hfree, hsame.trans hmade, hon.of_keepsDirectories h'.keepsDirectories⟩
  · rcases h q with hsame' | ⟨_, hmade', _⟩
    · exact .inr ⟨hsame'.symm.trans hfree, hmade, hon⟩
    · rw [hfree] at hmade'
      contradiction

theorem Gains.of_makeDirectory {names : List String} (hnames : names <+: p.names)
    (h : v.makeDirectory ⟨p.slashes, names⟩ = .ok w) : Gains p v w := by
  obtain ⟨place, hresolve, hfree, rfl⟩ := makeDirectory_eq_ok_iff.mp h
  intro q
  by_cases hq : q = place
  · subst hq
    refine .inr ⟨hfree, node?_put_self v _ (ne_nil_of_node?_eq_none hfree), ?_⟩
    exact ⟨names, hnames, resolve_put_of_free hresolve hfree _⟩
  · exact .inl (sameBut_put v place .directory q hq)

/-- The names come from the last to the first, so that those above are the rest of the list. -/
theorem gains_makeDirectoriesFrom (v : Volume) {names : List String} (hnames : names.reverse <+: p.names) :
    Gains p v (makeDirectoriesFrom p.slashes names v).2 := by
  induction names generalizing v with
  | nil => exact .refl p v
  | cons name above ih =>
    have habove : above.reverse <+: p.names := by
      refine .trans ?_ hnames
      rw [List.reverse_cons]
      exact List.prefix_append _ _
    rw [makeDirectoriesFrom]
    dsimp only
    split
    · have hfirst := ih v habove
      rcases hrest : makeDirectoriesFrom p.slashes above v with ⟨_ | _, u⟩
      · rw [hrest] at hfirst
        exact hfirst
      · -- The last directory is made where those above stand.
        rw [hrest] at hfirst
        have hgains : Gains p v u := hfirst
        dsimp only
        cases hmade : u.makeDirectory ⟨p.slashes, (name :: above).reverse⟩ with
        | ok w => exact hgains.trans (.of_makeDirectory hnames hmade)
        | error e =>
          dsimp only
          split <;> exact hgains
    · cases hmade : v.makeDirectory ⟨p.slashes, (name :: above).reverse⟩ with
      | ok w => exact .of_makeDirectory hnames hmade
      | error e =>
        dsimp only
        split <;> exact .refl p v

theorem gains_of_makeDirectories {result : Except (Path × FileError) Unit}
    (h : v.makeDirectories p = (result, w)) : Gains p v w := by
  have hnames : p.names.reverse.reverse <+: p.names := ⟨[], by simp⟩
  have hgains := gains_makeDirectoriesFrom v hnames
  rw [← makeDirectories, h] at hgains
  exact hgains

/-- On the way to a directory that stands there are directories only. -/
theorem LiesOn.stands (h : w.LiesOn p q) (hkeeps : v.KeepsDirectories w) (hp : v.isDirectory p = true) :
    v.node? q = some .directory := by
  obtain ⟨place, hleads⟩ := (isDirectory_iff p).mp hp
  have hwalk := (resolve_eq_ok hleads.resolves).2
  obtain ⟨names, ⟨more, hmore⟩, hresolve⟩ := h
  rw [← hmore, walk_append] at hwalk
  obtain ⟨r, hbefore, hwalk⟩ := bind_ok.mp hwalk
  have hafter := walk_of_keepsDirectories hkeeps hbefore
  obtain rfl := Except.ok.inj (hafter.symm.trans (resolve_eq_ok hresolve).2)
  cases more with
  | nil =>
    obtain rfl := Except.ok.inj hwalk
    exact hleads.stands
  | cons name more => exact (walk_cons_eq_ok_iff.mp hwalk).1

/-- Names without steps back lead down, each one place further. -/
theorem walk_of_no_dots {place : Place} {names : List String} (hdots : ".." ∉ names)
    (h : v.walk place names = .ok q) : q = place ++ names := by
  induction names generalizing place with
  | nil =>
    rw [List.append_nil]
    exact (Except.ok.inj h).symm
  | cons name names ih =>
    rw [List.mem_cons, not_or] at hdots
    obtain ⟨_, _, hmore⟩ := walk_cons_eq_ok_iff.mp h
    rw [if_neg (Ne.symm hdots.1)] at hmore
    rw [List.append_cons]
    exact ih hdots.2 hmore

/-- Without steps back a path leads to the place of its names. -/
theorem resolve_of_no_dots (hdots : ".." ∉ p.names) (h : v.resolve p = .ok q) : q = p.names :=
  walk_of_no_dots hdots (resolve_eq_ok h).2

/-- Without steps back a path does not come by where a name behind it leads to. -/
theorem LiesOn.resolve_child_ne (h : w.LiesOn p q) {name : String} (hdots : ".." ∉ (p.child name).names) :
    w.resolve (p.child name) ≠ .ok q := by
  intro hq
  obtain ⟨names, hnames, hresolve⟩ := h
  have hdots' : ".." ∉ names := by
    intro hmem
    exact hdots (List.mem_append_left _ (hnames.subset hmem))
  have hends : names = p.names ++ [name] :=
    (resolve_of_no_dots hdots' hresolve).symm.trans (resolve_of_no_dots hdots hq)
  have hlength := hnames.length_le
  rw [hends, List.length_append] at hlength
  exact absurd hlength (by simp)

end TableServer.Volume
