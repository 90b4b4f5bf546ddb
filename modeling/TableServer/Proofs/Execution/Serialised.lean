import TableServer.Proofs.Execution.Ledger
import TableServer.Proofs.Store.Backends

namespace TableServer.Inserts

section Invariant

variable {σ : Type} [TableStore σ] {served : String → Prop} {c : Contract σ served} {store : σ}
  {insertions : List Insertion} {events : List Event} {m : Inserts σ}

/-- No two inserts into one table are between their load and the end of their save, whatever the store. -/
theorem run_alone (h : (start store insertions).run events = some m) (honce : (cancellations events).Nodup) {i j : Nat}
    {t u : Task} (ht : m.tasks[i]? = some t) (hu : m.tasks[j]? = some u) (htw : t.isWorking = true)
    (huw : u.isWorking = true) (htable : t.table = u.table) : i = j := by
  have hfits := run_fits h honce
  exact (run_locked h).alone i j t u ht hu ((hfits i t ht).isInside_of_isWorking htw)
    ((hfits j u hu).isInside_of_isWorking huw) htable

omit [TableStore σ] in
theorem isSaved_iff {i : Nat} : m.isSaved i = true ↔ ∃ t, m.tasks[i]? = some t ∧ t.isSaved = true := by
  simp [isSaved, Option.any_eq_true]

/-- Everyone who has saved is in the ledger of the table. -/
theorem Serial.mem_savers_iff (h : Serial c store insertions events m) {i : Nat} {table : String} :
    i ∈ m.savers insertions events table ↔
      m.isSaved i = true ∧ ∃ a, insertions[i]? = some a ∧ a.table = table := by
  rw [savers, List.mem_filter]
  constructor
  · rintro ⟨hturn, hsaved⟩
    obtain ⟨t, ht, _⟩ := isSaved_iff.mp hsaved
    have ha := h.given i t ht
    exact ⟨hsaved, _, ha, ((mem_turns_iff ha).mp hturn).2⟩
  · rintro ⟨hsaved, a, ha, htable⟩
    obtain ⟨t, ht, hs⟩ := isSaved_iff.mp hsaved
    exact ⟨(mem_turns_iff ha).mpr ⟨h.turned i t ht hs, htable⟩, hsaved⟩

/-- An insert that has stored a record and was not cancelled answers with it. -/
theorem Serial.answer (h : Serial c store insertions events m) {i : Nat} {t : Task} {r : Record}
    (ht : m.tasks[i]? = some t) (hr : t.Stored r) {outcome : Outcome} (hend : t.outcome? = some outcome)
    (hc : i ∉ cancellations events) : outcome = .answered (.inserted r) := by
  obtain ⟨result, rfl, _⟩ := (h.fits i t ht).told hc hend
  unfold Task.outcome? at hend
  obtain hp | hp | hp | hp := hr.told
  · simp [hp] at hend
  · simp [hp] at hend
  · simp [hp] at hend
  · rw [hp] at hend
    exact (Option.some.inj hend).symm

end Invariant

variable {store : Store} {insertions : List Insertion} {events : List Event} {m : Inserts Store} {table : String}

/-- What a table holds is accounted for by those who have saved to it: they are in the order in which they got its lock,
and behind what the table held at first their records have the next ids. -/
structure Accounts (store : Store) (insertions : List Insertion) (events : List Event) (m : Inserts Store)
    (table : String) : Prop where
  once : (m.savers insertions events table).Nodup
  savers (i : Nat) : i ∈ m.savers insertions events table ↔
    m.isSaved i = true ∧ ∃ a, insertions[i]? = some a ∧ a.table = table
  unread (e : StoreFailure) : store.contents table = .error e →
    m.store.contents table = .error e ∧ m.savers insertions events table = []
  grown (records : List Record) : store.contents table = .ok records →
    ∃ added, m.store.contents table = .ok (records ++ added) ∧
      added.map Record.id = List.range' (nextId records) added.length ∧
      List.Forall₂ (fun i r => ∃ a t, insertions[i]? = some a ∧ a.record r.id = .ok r ∧ m.tasks[i]? = some t ∧
        ∀ outcome, t.outcome? = some outcome → i ∉ cancellations events → outcome = .answered (.inserted r))
        (m.savers insertions events table) added

/-- Whatever a table has gained was made by inserts into it, and by no others. -/
theorem Accounts.made (h : Accounts store insertions events m table) {records added : List Record}
    (hheld : store.contents table = .ok records) (hnow : m.store.contents table = .ok (records ++ added)) {r : Record}
    (hr : r ∈ added) : ∃ a ∈ insertions, a.table = table ∧ a.record r.id = .ok r := by
  obtain ⟨added', hnow', _, hall⟩ := h.grown records hheld
  obtain rfl : added' = added := List.append_cancel_left (Except.ok.inj (hnow'.symm.trans hnow))
  obtain ⟨k, hk, rfl⟩ := List.getElem_of_mem hr
  obtain ⟨hlength, hget⟩ := List.forall₂_iff_get.mp hall
  obtain ⟨a, _, ha, hmade, _⟩ := hget k (hlength ▸ hk) hk
  obtain ⟨_, b, hb, htable⟩ := (h.savers _).mp (List.get_mem _ ⟨k, hlength ▸ hk⟩)
  obtain rfl := Option.some.inj (ha.symm.trans hb)
  exact ⟨a, List.mem_of_getElem? ha, htable, hmade⟩

theorem Serial.accounts {served : String → Prop} (h : Serial (Store.contract served) store insertions events m)
    (hserved : served table) : Accounts store insertions events m table := by
  have hledger : m.Ledger (store.contents table) (m.store.contents table) (m.savers insertions events table) :=
    h.ledger table hserved
  refine ⟨(turns_nodup h.once table).filter _, fun i => h.mem_savers_iff, ?_, ?_⟩
  · intro e hunread
    rw [hunread] at hledger
    exact hledger.of_error
  · intro records hheld
    rw [hheld] at hledger
    obtain ⟨added, hnow, hids, hstored⟩ := hledger.of_ok
    refine ⟨added, hnow, hids, hstored.imp ?_⟩
    rintro i r ⟨t, ht, hr⟩
    exact ⟨t.insertion, t, h.given i t ht, hr.made, ht, fun outcome hend hc => h.answer ht hr hend hc⟩

/-- Where inserts that run at the same time have come: they are alone at their table, and those that have ended without
being cancelled tell whether they were saved. That what the tables hold is accounted for takes more than the locks, which
go by names: the tables need files of their own, and the data directory must be none that shows in them once it is
made. -/
structure Serialised (store : Store) (insertions : List Insertion) (events : List Event) (m : Inserts Store) :
    Prop where
  alone (i j : Nat) (t u : Task) : m.tasks[i]? = some t → m.tasks[j]? = some u → t.isWorking = true →
    u.isWorking = true → t.table = u.table → i = j
  told (i : Nat) (t : Task) (outcome : Outcome) : m.tasks[i]? = some t → t.outcome? = some outcome →
    i ∉ cancellations events →
      ∃ result, outcome = .answered result ∧ ((∃ r, result = .inserted r) ↔ t.isSaved = true)
  accounts (served : String → Prop) : store.Sound served → (∀ a ∈ insertions, served a.table) →
    ∀ table, served table → Accounts store insertions events m table

/-- Inserts at the same time are serialised after any events, with loads and saves refused at will, if none is cancelled
twice. -/
theorem run_serialised (hrun : (start store insertions).run events = some m) (honce : (cancellations events).Nodup) :
    Serialised store insertions events m where
  alone _ _ _ _ ht hu := run_alone hrun honce ht hu
  told i t _ ht hend hc := (run_fits hrun honce i t ht).told hc hend
  accounts served hstore hserved _ htable :=
    (run_serial (c := Store.contract served) hstore hserved hrun honce).accounts htable

/-- Two inserts into one table. -/
def paired : List Insertion := [⟨"t", [("name", "a")]⟩, ⟨"t", [("name", "b")]⟩]

/-- The first of them is cancelled while it saves. -/
def cancelling : List Event :=
  [.arrive 0, .arrive 1, .acquire 0, .load 0 none, .build 0, .cancel 0, .land 0 none, .resume 0, .acquire 1,
    .load 1 none, .build 1, .land 1 none, .resume 1]

/-- Both records are stored in the new table, and the second insert answers with the second. -/
theorem run_serialised_cancelled : ∃ m, (start (Store.memory .empty) paired).run cancelling = some m ∧
    m.store.contents "t" = .ok [⟨1, .ofString "a", []⟩, ⟨2, .ofString "b", []⟩] ∧
    m.tasks.map Task.outcome? = [some .cancelled, some (.answered (.inserted ⟨2, .ofString "b", []⟩))] := by
  refine ⟨_, rfl, ?_, rfl⟩
  have hserialised : Serialised (Store.memory .empty) paired cancelling _ := run_serialised rfl (by decide)
  obtain ⟨added, hnow, hids, hall⟩ :=
    (hserialised.accounts (fun _ => True) trivial (fun _ _ => trivial) "t" trivial).grown [] rfl
  replace hall : List.Forall₂ _ [0, 1] added := hall
  rcases hall with _ | @⟨_, r, _, _, ⟨a, _, ha, hr, _⟩, _ | @⟨_, s, _, _, ⟨b, _, hb, hs, _⟩, _ | _⟩⟩
  replace hids : [r.id, s.id] = [1, 2] := hids
  obtain ⟨hrid, hsid⟩ : r.id = 1 ∧ s.id = 2 := by simpa using hids
  obtain rfl := Option.some.inj ha
  obtain rfl := Option.some.inj hb
  rw [hrid] at hr
  rw [hsid] at hs
  obtain rfl := Except.ok.inj hr
  obtain rfl := Except.ok.inj hs
  exact hnow

/-- Two inserts that load before either saves, since they go by two names and have a lock each. -/
def crossing : List Event :=
  [.arrive 0, .arrive 1, .acquire 0, .acquire 1, .load 0 none, .load 1 none, .build 0, .build 1, .land 0 none,
    .land 1 none, .resume 0, .resume 1]

/-- Both names are those of one file. -/
def crossed : List Insertion := [⟨"a-b", [("name", "x")]⟩, ⟨"ab", [("name", "y")]⟩]

/-- Both inserts are told that their record is stored, with the same id, and the second one has replaced the first. -/
theorem run_crossing : ∃ m, (start (Store.files Store.unmade) crossed).run crossing = some m ∧
    (m.tasks.map fun t => (t.table, t.outcome?)) =
      [("a-b", some (.answered (.inserted ⟨1, .ofString "x", []⟩))),
        ("ab", some (.answered (.inserted ⟨1, .ofString "y", []⟩)))] ∧
      m.store.contents "a-b" = .ok [⟨1, .ofString "y", []⟩] := by
  have hran : ((start (Store.files Store.unmade) crossed).run crossing).any (fun m =>
      (m.tasks.map fun t => (t.table, t.outcome?)) =
        [("a-b", some (.answered (.inserted ⟨1, .ofString "x", []⟩))),
          ("ab", some (.answered (.inserted ⟨1, .ofString "y", []⟩)))] &&
        m.store.contents "a-b" = .ok [⟨1, .ofString "y", []⟩]) = true := by
    decide +kernel
  rcases hrun : (start (Store.files Store.unmade) crossed).run crossing with _ | m
  · simp [hrun] at hran
  · simp only [hrun, Option.any_some, Bool.and_eq_true, decide_eq_true_eq] at hran
    exact ⟨m, rfl, hran⟩

/-- Two inserts into files, neither cancelled nor refused, of which both are told that their record is stored: the table of
the first had no records, and has not got the one of its insert. -/
theorem run_unserialised : ∃ m, (start (Store.files Store.unmade) crossed).run crossing = some m ∧
    cancellations crossing = [] ∧ (∀ t ∈ m.tasks, ∃ r, t.outcome? = some (.answered (.inserted r))) ∧
      (Store.files Store.unmade).contents "a-b" = .ok [] ∧
        ¬ Accounts (Store.files Store.unmade) crossed crossing m "a-b" := by
  obtain ⟨m, hrun, htold, hnow⟩ := run_crossing
  have hempty : (Store.files Store.unmade).contents "a-b" = .ok [] := by decide +kernel
  refine ⟨m, hrun, rfl, ?_, hempty, ?_⟩
  · intro t ht
    have hmem := List.mem_map_of_mem (f := fun t : Task => (t.table, t.outcome?)) ht
    rw [htold] at hmem
    simp only [List.mem_cons, List.not_mem_nil, or_false, Prod.mk.injEq] at hmem
    obtain ⟨_, ht⟩ | ⟨_, ht⟩ := hmem
    · exact ⟨_, ht⟩
    · exact ⟨_, ht⟩
  · intro haccounts
    have hnew : m.store.contents "a-b" = .ok ([] ++ [⟨1, .ofString "y", []⟩]) := hnow
    obtain ⟨a, ha, htable, hr⟩ := haccounts.made hempty hnew List.mem_cons_self
    simp only [crossed, List.mem_cons, List.not_mem_nil, or_false] at ha
    obtain rfl | rfl := ha
    · have hname : Text.ofString "x" = Text.ofString "y" := congrArg Record.name (Except.ok.inj hr)
      exact absurd hname (by decide)
    · exact absurd htable (by decide)

end TableServer.Inserts
