import TableServer.Proofs.Execution.Turns
import TableServer.Store.Choice

namespace TableServer

/-- Whether the save of an insert has been started and has not ended. -/
def Task.isPending (t : Task) : Bool :=
  match t.write with
  | .pending _ => true
  | _ => false

/-- Whether an insert has been cancelled and waits for its save. -/
def Task.awaitsSave (t : Task) : Bool :=
  match t.phase with
  | .settling => t.isPending
  | _ => false

/-- Whether an insert loads its table or has loaded it, and has not started to save. -/
def Task.isReading (t : Task) : Bool :=
  match t.phase with
  | .loading => true
  | .loaded _ => true
  | _ => false

/-- An insert saves only once it has built its record. -/
inductive Task.Orderly : Task → Prop
  | unsaved {a : Insertion} {p : Phase} : Orderly ⟨a, p, .unstarted⟩
  | saving {a : Insertion} {r : Record} {w : Write} : Orderly ⟨a, .saving r, w⟩
  | settling {a : Insertion} {w : Write} : Orderly ⟨a, .settling, w⟩
  | finished {a : Insertion} {outcome : Outcome} {w : Write} : Orderly ⟨a, .finished outcome, w⟩

/-- An insert that gives up its lock while its save is under way. -/
structure Task.Drops (t t' : Task) : Prop where
  before : t.isInside = true
  after : t'.isInside = false
  pending : t'.isPending = true

theorem Task.Orderly.not_isPending_of_isReading {t : Task} (h : t.Orderly) (hreading : t.isReading = true) :
    t.isPending = false := by
  cases h with
  | unsaved => rfl
  | _ => contradiction

theorem Task.isInside_of_isReading {t : Task} (h : t.isReading = true) : t.isInside = true := by
  obtain ⟨a, p, w⟩ := t
  cases p <;> first | rfl | contradiction

namespace Inserts

variable {σ : Type}

/-- Every save that is under way has its insert inside, and the lock of its table is held. -/
def Guarded (m : Inserts σ) : Prop :=
  ∀ (i : Nat) (t : Task), m.tasks[i]? = some t → t.isPending = true → t.isInside = true ∧ t.table ∈ m.held

/-- An event that cancels an insert which has been cancelled before, and waits for its save. -/
def Abandons (m : Inserts σ) (e : Event) : Prop :=
  ∃ (i : Nat) (t : Task), e = .cancel i ∧ m.tasks[i]? = some t ∧ t.awaitsSave = true

/-- Some insert gives up its lock while its save is under way. -/
def Drops (m m' : Inserts σ) : Prop :=
  ∃ (i : Nat) (t t' : Task), m.tasks[i]? = some t ∧ m'.tasks[i]? = some t' ∧ t.Drops t'

variable {m m' : Inserts σ} {e : Event}

/-- An insert that waits for its save no longer has its save under the lock once it is cancelled again. -/
theorem not_guarded_of_drops (h : m.Drops m') : ¬ m'.Guarded := by
  obtain ⟨i, t, t', _, ht', hdrops⟩ := h
  intro hguarded
  have hinside := (hguarded i t' ht' hdrops.pending).1
  rw [hdrops.after] at hinside
  contradiction

/-- Where the saves under way are guarded, nobody reads a table before the save to it has ended. -/
theorem Guarded.not_isReading (h : m.Guarded) (hlocked : m.Locked)
    (horderly : ∀ (i : Nat) (t : Task), m.tasks[i]? = some t → t.Orderly) {i j : Nat} {t u : Task}
    (ht : m.tasks[i]? = some t) (hu : m.tasks[j]? = some u) (hpending : t.isPending = true)
    (hreading : u.isReading = true) : t.table ≠ u.table := by
  intro htable
  have hinside := (h i t ht hpending).1
  have hi := hlocked.alone i j t u ht hu hinside (Task.isInside_of_isReading hreading) htable
  subst hi
  obtain rfl := Option.some.inj (ht.symm.trans hu)
  have hidle := (horderly _ _ ht).not_isPending_of_isReading hreading
  rw [hpending] at hidle
  contradiction

variable [TableStore σ] {t t' : Task} {held : List String} {queue : List Nat} {store : σ}
  {insertions : List Insertion} {events : List Event}

theorem Moves.orderly (h : Moves m e t t' held queue store) (ht : t.Orderly) : t'.Orderly := by
  cases h with
  | arrive =>
    cases ht
    exact .unsaved
  | acquire =>
    cases ht
    exact .unsaved
  | load =>
    cases ht
    exact .unsaved
  | land =>
    cases ht with
    | saving => exact .saving
    | settling => exact .settling
    | finished => exact .finished
  | build => exact .saving
  | cancelSaving => exact .settling
  | _ => exact .finished

/-- Of all that can happen to an insert inside, only one thing takes the lock away before its save has ended. -/
theorem Moves.drops_iff (h : Moves m e t t' held queue store) (ht : t.Orderly) :
    t.Drops t' ↔ (∃ i, e = .cancel i) ∧ t.awaitsSave = true := by
  constructor
  · rintro ⟨hbefore, hafter, hpending⟩
    cases h with
    | fail =>
      cases ht
      contradiction
    | reject =>
      cases ht
      contradiction
    | cancelLoading =>
      cases ht
      contradiction
    | cancelLoaded =>
      cases ht
      contradiction
    | cancelSettling => exact ⟨⟨_, rfl⟩, hpending⟩
    | _ => contradiction
  · rintro ⟨⟨i, rfl⟩, hawaits⟩
    cases h with
    | cancelSettling => exact ⟨rfl, rfl, hawaits⟩
    | _ => contradiction

/-- A save that gets under way does so inside. -/
theorem Moves.isPending (h : Moves m e t t' held queue store) (hpending : t'.isPending = true) :
    t.isPending = true ∨ t'.isInside = true := by
  cases h with
  | build => exact .inr rfl
  | land => contradiction
  | _ => exact .inl hpending

/-- Only a cancellation makes an insert wait for its save, apart from its record. -/
theorem Moves.awaitsSave (h : Moves m e t t' held queue store) (hawaits : t'.awaitsSave = true) :
    t.awaitsSave = true ∨ ∃ i, e = .cancel i := by
  cases h with
  | cancelSaving => exact .inr ⟨_, rfl⟩
  | @land _ _ p => cases p <;> contradiction
  | _ => contradiction

/-- Whoever waits for its save can be cancelled once more. -/
theorem step_of_abandons (h : m.Abandons e) : ∃ m', m.step e = some m' := by
  obtain ⟨i, ⟨a, p, w⟩, rfl, ht, hawaits⟩ := h
  cases p with
  | settling => exact ⟨_, by rw [step]; simp only [Event.task, ht]; rfl⟩
  | _ => contradiction

/-- The event that makes an insert give up its lock too early is a second cancellation. -/
theorem drops_iff (hstep : m.step e = some m')
    (horderly : ∀ (i : Nat) (t : Task), m.tasks[i]? = some t → t.Orderly) : m.Drops m' ↔ m.Abandons e := by
  obtain ⟨t, t', ht, htasks, hm⟩ := step_moves hstep
  have hself : m'.tasks[e.task]? = some t' := htasks ▸ getElem?_set_self ht
  constructor
  · rintro ⟨i, u, u', hu, hu', hdrops⟩
    by_cases hi : i = e.task
    · subst hi
      obtain rfl := Option.some.inj (ht.symm.trans hu)
      obtain rfl := Option.some.inj (hself.symm.trans hu')
      obtain ⟨⟨j, rfl⟩, hawaits⟩ := (hm.drops_iff (horderly _ _ ht)).mp hdrops
      exact ⟨j, t, rfl, ht, hawaits⟩
    · rw [htasks, getElem?_set_other hi, hu] at hu'
      obtain rfl := Option.some.inj hu'
      exact absurd (hdrops.before.symm.trans hdrops.after) Bool.noConfusion
  · rintro ⟨i, u, rfl, hu, hawaits⟩
    obtain rfl := Option.some.inj (ht.symm.trans hu)
    exact ⟨i, t, t', ht, hself, (hm.drops_iff (horderly _ _ ht)).mpr ⟨⟨i, rfl⟩, hawaits⟩⟩

/-- An event keeps the saves guarded unless it drops one. -/
theorem Guarded.step (h : m.Guarded) (hlocked : m'.Locked) (hstep : m.step e = some m') (hdrops : ¬ m.Drops m') :
    m'.Guarded := by
  obtain ⟨t, t', ht, htasks, hm⟩ := step_moves hstep
  intro i u hu hpending
  have hinside : u.isInside = true := by
    by_cases hi : i = e.task
    · subst hi
      have hself : m'.tasks[e.task]? = some t' := htasks ▸ getElem?_set_self ht
      obtain rfl := Option.some.inj (hself.symm.trans hu)
      rcases hm.isPending hpending with hbefore | hinside
      · cases hafter : t'.isInside with
        | true => rfl
        | false => exact absurd ⟨e.task, t, t', ht, hu, (h _ t ht hbefore).1, hafter, hpending⟩ hdrops
      · exact hinside
    · rw [htasks, getElem?_set_other hi] at hu
      exact (h i u hu hpending).1
  exact ⟨hinside, hlocked.held i u hu hinside⟩

theorem run_orderly (h : (start store insertions).run events = some m) :
    ∀ (i : Nat) (t : Task), m.tasks[i]? = some t → t.Orderly := by
  apply run_induction (P := fun _ n => ∀ (i : Nat) (t : Task), n.tasks[i]? = some t → t.Orderly) _ _ h
  · intro i t ht
    obtain ⟨a, _, rfl⟩ := start_phase ht
    exact .unsaved
  · intro _ n e n' hn hstep i u hu
    obtain ⟨t, t', ht, htasks, hm⟩ := step_moves hstep
    rw [htasks] at hu
    obtain ⟨rfl, rfl⟩ | ⟨_, hu⟩ := getElem?_set_cases hu
    · exact hm.orderly (hn _ t ht)
    · exact hn i u hu

omit [TableStore σ] in
theorem start_guarded (store : σ) (insertions : List Insertion) : (start store insertions).Guarded := by
  intro i t ht hpending
  obtain ⟨a, _, rfl⟩ := start_phase ht
  contradiction

theorem run_concat {n n' : Inserts σ} {before : List Event} (hbefore : m.run before = some n)
    (hstep : n.step e = some n') : m.run (before ++ [e]) = some n' := by
  rw [run_append, hbefore]
  simpa [run] using hstep

/-- No event of a run cancels an insert that waits for its save. -/
def Patient (m : Inserts σ) (events : List Event) : Prop :=
  ∀ before e n, before ++ [e] <+: events → m.run before = some n → ¬ n.Abandons e

theorem Patient.before {before : List Event} (h : m.Patient events) (hbefore : before <+: events) :
    m.Patient before := by
  intro first e n hfirst
  exact h first e n (hfirst.trans hbefore)

/-- Nothing is dropped in a patient run, so that its saves are guarded to the end. -/
theorem guarded_of_patient (hrun : (start store insertions).run events = some m)
    (hpatient : (start store insertions).Patient events) : m.Guarded := by
  have h : (start store insertions).run events = some m ∧
      ((start store insertions).Patient events → m.Guarded) := by
    apply run_induction (P := fun done n => (start store insertions).run done = some n ∧
      ((start store insertions).Patient done → n.Guarded)) _ _ hrun
    · exact ⟨rfl, fun _ => start_guarded store insertions⟩
    · intro done n e n' ⟨hdone, hn⟩ hstep
      have hnext := run_concat hdone hstep
      refine ⟨hnext, fun hpatient => ?_⟩
      have hguarded := hn (hpatient.before (List.prefix_append done [e]))
      apply hguarded.step (run_locked hnext) hstep
      rw [drops_iff hstep (run_orderly hdone)]
      exact hpatient done e n List.prefix_rfl hdone
  exact h.2 hpatient

/-- Who waits for its save has been cancelled. -/
theorem run_cancelled (h : (start store insertions).run events = some m) :
    ∀ (i : Nat) (t : Task), m.tasks[i]? = some t → t.awaitsSave = true → i ∈ cancellations events := by
  apply run_induction (P := fun done n => ∀ (i : Nat) (t : Task), n.tasks[i]? = some t →
    t.awaitsSave = true → i ∈ cancellations done) _ _ h
  · intro i t ht hawaits
    obtain ⟨a, _, rfl⟩ := start_phase ht
    contradiction
  · intro done n e n' hn hstep i u hu hawaits
    obtain ⟨t, t', ht, htasks, hm⟩ := step_moves hstep
    rw [cancellations_append, List.mem_append]
    rw [htasks] at hu
    obtain ⟨rfl, rfl⟩ | ⟨_, hu⟩ := getElem?_set_cases hu
    · rcases hm.awaitsSave hawaits with hbefore | ⟨j, rfl⟩
      · exact .inl (hn _ t ht hbefore)
      · exact .inr List.mem_cons_self
    · exact .inl (hn i u hu hawaits)

theorem patient_of_nodup (h : (cancellations events).Nodup) : (start store insertions).Patient events := by
  rintro before e n ⟨rest, rfl⟩ hrun ⟨i, t, rfl, ht, hawaits⟩
  have hbefore := run_cancelled hrun i t ht hawaits
  rw [cancellations_append, cancellations_append, List.append_assoc] at h
  exact (List.nodup_append.mp h).2.2 i hbefore i List.mem_cons_self rfl

/-- How long the lock of a table is held, in the run of some events. -/
structure Outlasting (store : σ) (insertions : List Insertion) (events : List Event) : Prop where
  /-- Wherever a run has come, the next event takes the lock away from a save exactly if it cancels an insert
  that was cancelled before and waits for its save. -/
  released : ∀ before n e n', (start store insertions).run before = some n → n.step e = some n' →
    (n.Drops n' ↔ n.Abandons e)
  /-- All the time every save has its lock exactly if no such event happens. -/
  held : (∀ before n, before <+: events → (start store insertions).run before = some n → n.Guarded) ↔
    (start store insertions).Patient events
  /-- A table is then not read while a save of it is under way. -/
  unread : ∀ m, (start store insertions).run events = some m → (start store insertions).Patient events →
    ∀ (i j : Nat) (t u : Task), m.tasks[i]? = some t → m.tasks[j]? = some u → t.isPending = true →
      u.isReading = true → t.table ≠ u.table
  /-- It takes a second cancellation of one insert. -/
  twice : (cancellations events).Nodup → (start store insertions).Patient events

/-- A started save outlives every cancellation of its insert but one that comes while the insert waits for it: then,
and only then, the lock is given up before the save has ended. An insert that is cancelled while it saves waits once,
and is not kept from being cancelled again while it does. -/
theorem saves_outlast (store : σ) (insertions : List Insertion) (events : List Event) :
    Outlasting store insertions events where
  released _ _ _ _ hrun hstep := drops_iff hstep (run_orderly hrun)
  held := by
    constructor
    · intro hguarded before e n hbefore hrun habandons
      obtain ⟨n', hstep⟩ := step_of_abandons habandons
      have hdrops := (drops_iff hstep (run_orderly hrun)).mpr habandons
      exact not_guarded_of_drops hdrops (hguarded _ n' hbefore (run_concat hrun hstep))
    · intro hpatient before n hbefore hrun
      exact guarded_of_patient hrun (hpatient.before hbefore)
  unread m hrun hpatient i j t u ht hu hpending hreading :=
    (guarded_of_patient hrun hpatient).not_isReading (run_locked hrun) (run_orderly hrun) ht hu hpending hreading
  twice := patient_of_nodup

/-- Two inserts into a new table, of which the first is cancelled twice while it saves: its lock is free with
the save under way, the second insert reads the table before the save has landed and answers with the same
id, and the save lands upon the record of the second. -/
theorem save_outlived : ∃ m m' : Inserts Store,
    (start (Store.memory .empty) [⟨"t", [("name", "a")]⟩, ⟨"t", [("name", "b")]⟩]).run
      [.arrive 0, .arrive 1, .acquire 0, .load 0 none, .build 0, .cancel 0, .cancel 0] = some m ∧
    (∃ t, m.tasks[0]? = some t ∧ t.table = "t" ∧ t.isPending = true) ∧ "t" ∉ m.held ∧
    m.run [.acquire 1, .load 1 none, .build 1, .land 1 none, .resume 1, .land 0 none] = some m' ∧
    (∃ t, m'.tasks[1]? = some t ∧ t.outcome? = some (.answered (.inserted ⟨1, .ofString "b", []⟩))) ∧
    (TableStore.load m'.store "t").1 = .ok [⟨1, .ofString "a", []⟩] :=
  ⟨_, _, rfl, ⟨_, rfl, rfl, rfl⟩, List.not_mem_nil, rfl, ⟨_, rfl, rfl⟩, rfl⟩

end Inserts

end TableServer
