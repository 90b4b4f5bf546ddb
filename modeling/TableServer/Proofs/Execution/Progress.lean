import TableServer.Proofs.Execution.Turns
import TableServer.Store.Choice

namespace TableServer

/-- Whether an insert waits for its lock. -/
def Task.isQueued (t : Task) : Bool :=
  match t.phase with
  | .queued => true
  | _ => false

/-- Whether an insert waits for a save that has not been started. -/
def Task.isStranded (t : Task) : Bool :=
  match t.phase, t.write with
  | .saving _, .unstarted => true
  | .settling, .unstarted => true
  | _, _ => false

/-- How much can happen to an insert that has come so far, counted by the phases that are left. -/
def Phase.remaining : Phase → Nat
  | idle => 6
  | queued => 5
  | loading => 4
  | loaded _ => 3
  | saving _ => 2
  | settling => 1
  | finished _ => 0

def Write.remaining : Write → Nat
  | unstarted => 0
  | pending _ => 1
  | landed _ => 0

/-- A bound on the events that are left for an insert. A phase counts twice, since the save that starts with one is
counted too. -/
def Task.remaining (t : Task) : Nat := 2 * t.phase.remaining + t.write.remaining

theorem Task.outcome?_of_isInside {t : Task} (h : t.isInside = true) : t.outcome? = none := by
  obtain ⟨a, p, w⟩ := t
  cases p with
  | finished outcome => contradiction
  | _ => rfl

theorem Task.isQueued_of_isInside {t : Task} (h : t.isInside = true) : t.isQueued = false := by
  obtain ⟨a, p, w⟩ := t
  cases p with
  | queued => contradiction
  | _ => rfl

namespace Inserts

variable {σ : Type} {m m' : Inserts σ}

/-- The queue has those who wait for a lock, each once. -/
structure Queues (m : Inserts σ) : Prop where
  mem_iff : ∀ i, i ∈ m.queue ↔ ∃ t, m.tasks[i]? = some t ∧ t.isQueued = true
  once : m.queue.Nodup

/-- Where somebody waits for the lock of a table, it is somebody's turn. -/
theorem Queues.exists_next (h : m.Queues) {i : Nat} {t : Task} (ht : m.tasks[i]? = some t)
    (hqueued : t.isQueued = true) : ∃ j u, m.nextWaiter t.table = some j ∧ m.tasks[j]? = some u ∧
      u.isQueued = true ∧ u.table = t.table := by
  cases hnext : m.nextWaiter t.table with
  | none =>
    have hnobody := List.find?_eq_none.mp hnext i ((h.mem_iff i).mpr ⟨t, ht, hqueued⟩)
    simp [ht] at hnobody
  | some j =>
    obtain ⟨u, hu, huq⟩ := (h.mem_iff j).mp (List.mem_of_find?_eq_some hnext)
    have htable := List.find?_some hnext
    simp only [hu, Option.any_some, decide_eq_true_eq] at htable
    exact ⟨j, u, rfl, hu, huq, htable⟩

/-- What an event does to the queue. -/
inductive Shift (queue : List Nat) (i : Nat) (t t' : Task) : List Nat → Prop
  | stays (h : t'.isQueued = t.isQueued) : Shift queue i t t' queue
  | joins (ht : t.isQueued = false) (ht' : t'.isQueued = true) : Shift queue i t t' (queue ++ [i])
  | leaves (ht' : t'.isQueued = false) : Shift queue i t t' (queue.erase i)

theorem Queues.shift (h : m.Queues) {i : Nat} {t t' : Task} (ht : m.tasks[i]? = some t)
    (htasks : m'.tasks = m.tasks.set i t') (hshift : Shift m.queue i t t' m'.queue) : m'.Queues := by
  have hself : m'.tasks[i]? = some t' := htasks ▸ getElem?_set_self ht
  have hother : ∀ j, j ≠ i → m'.tasks[j]? = m.tasks[j]? := by
    intro j hj
    rw [htasks, getElem?_set_other hj]
  generalize hqueue : m'.queue = queue at hshift
  cases hshift with
  | stays hsame =>
    refine ⟨fun j => ?_, hqueue ▸ h.once⟩
    rw [hqueue, h.mem_iff]
    by_cases hj : j = i
    · simp [hj, hself, ht, hsame]
    · rw [hother j hj]
  | joins hbefore hafter =>
    have hnot : i ∉ m.queue := by
      rw [h.mem_iff]
      simp [ht, hbefore]
    refine ⟨fun j => ?_, ?_⟩
    · rw [hqueue, List.mem_append, List.mem_singleton, h.mem_iff]
      by_cases hj : j = i
      · simp [hj, hself, hafter]
      · simp [hj, hother j hj]
    · rw [hqueue]
      apply List.nodup_append.mpr
      refine ⟨h.once, by simp, ?_⟩
      intro a ha b hb hab
      rw [hab, List.mem_singleton.mp hb] at ha
      exact hnot ha
  | leaves hafter =>
    refine ⟨fun j => ?_, hqueue ▸ h.once.erase i⟩
    rw [hqueue, h.once.mem_erase_iff, h.mem_iff]
    by_cases hj : j = i
    · simp [hj, hself, hafter]
    · simp [hj, hother j hj]

/-- What all inserts keep to, whatever is cancelled and refused. -/
structure Regular (m : Inserts σ) : Prop where
  locked : m.Locked
  queues : m.Queues
  started : ∀ (i : Nat) (t : Task), m.tasks[i]? = some t → t.isStranded = false

theorem start_regular (store : σ) (insertions : List Insertion) : (start store insertions).Regular := by
  refine ⟨start_locked store insertions, ⟨fun i => ?_, List.nodup_nil⟩, fun i t ht => ?_⟩
  · constructor
    · intro hmem
      contradiction
    · intro hqueued
      obtain ⟨t, ht, hqueued⟩ := hqueued
      obtain ⟨a, _, rfl⟩ := start_phase ht
      contradiction
  · obtain ⟨a, _, rfl⟩ := start_phase ht
    rfl

/-- An insert into a table that is inside and has not ended. -/
def IsInsideAt (m : Inserts σ) (table : String) (i : Nat) : Prop :=
  ∃ t, m.tasks[i]? = some t ∧ t.table = table ∧ t.outcome? = none ∧ t.isInside = true

def HaveEnded (m : Inserts σ) : Prop := ∀ (i : Nat) (t : Task), m.tasks[i]? = some t → t.outcome? ≠ none

/-- A lock is held exactly by one that is inside and can still end. -/
theorem Regular.isLocked_iff (h : m.Regular) (table : String) :
    m.isLocked table = true ↔ ∃! i, m.IsInsideAt table i := by
  rw [isLocked, List.contains_iff_mem]
  constructor
  · intro hheld
    obtain ⟨i, t, ht, hinside, htable⟩ := h.locked.owner table hheld
    refine ⟨i, ⟨t, ht, htable, Task.outcome?_of_isInside hinside, hinside⟩, fun j hj => ?_⟩
    obtain ⟨u, hu, htable', _, hinside'⟩ := hj
    exact h.locked.alone j i u t hu ht hinside' hinside (htable'.trans htable.symm)
  · intro hone
    obtain ⟨i, ⟨t, ht, htable, _, hinside⟩, _⟩ := hone
    exact htable ▸ h.locked.held i t ht hinside

theorem Regular.isLocked_of_haveEnded (h : m.Regular) (hended : m.HaveEnded) (table : String) :
    m.isLocked table = false := by
  apply Bool.eq_false_iff.mpr
  intro hlocked
  obtain ⟨i, ⟨t, ht, _, hgoes, _⟩, _⟩ := (h.isLocked_iff table).mp hlocked
  exact hended i t ht hgoes

theorem exists_unfinished (h : ¬ m.HaveEnded) : ∃ (i : Nat) (t : Task), m.tasks[i]? = some t ∧ t.outcome? = none := by
  simpa [HaveEnded] using h

/-- A bound on the events that are left for some inserts. -/
def remainingOf (tasks : List Task) : Nat := tasks.foldr (fun t n => t.remaining + n) 0

def remaining (m : Inserts σ) : Nat := remainingOf m.tasks

theorem remainingOf_set {tasks : List Task} {i : Nat} {t t' : Task} (ht : tasks[i]? = some t)
    (hless : t'.remaining < t.remaining) : remainingOf (tasks.set i t') < remainingOf tasks := by
  induction tasks generalizing i with
  | nil => contradiction
  | cons u tasks ih =>
    cases i with
    | zero =>
      obtain rfl := Option.some.inj ht
      simpa [remainingOf] using hless
    | succ i => simpa [remainingOf] using ih ht

variable [TableStore σ]

/-- An insert can go on, by an event that does not cancel it. -/
def CanMove (m : Inserts σ) (i : Nat) : Prop :=
  ∃ e m', e.task = i ∧ e.cancelled? = none ∧ m.step e = some m'

/-- Who does not wait for a lock and has not ended can go on by itself. -/
theorem canMove_of_not_isQueued {i : Nat} {t : Task} (ht : m.tasks[i]? = some t) (hgoes : t.outcome? = none)
    (hqueued : t.isQueued = false) (hstranded : t.isStranded = false) : m.CanMove i := by
  obtain ⟨a, p, w⟩ := t
  cases p with
  | idle => exact ⟨.arrive i, _, rfl, rfl, by simp only [step, Event.task, ht]; rfl⟩
  | queued => contradiction
  | loading => exact ⟨.load i none, _, rfl, rfl, by simp only [step, Event.task, ht]; rfl⟩
  | loaded outcome => exact ⟨.build i, _, rfl, rfl, by simp only [step, Event.task, ht]; rfl⟩
  | saving _ | settling =>
    cases w with
    | unstarted => contradiction
    | pending records => exact ⟨.land i none, _, rfl, rfl, by simp only [step, Event.task, ht]; rfl⟩
    | landed outcome => exact ⟨.resume i, _, rfl, rfl, by simp only [step, Event.task, ht]; rfl⟩
  | finished outcome => contradiction

/-- Whose turn it is can take a lock that is free. -/
theorem exists_step_acquire {j : Nat} {u : Task} (hu : m.tasks[j]? = some u) (hqueued : u.isQueued = true)
    (hnext : m.nextWaiter u.table = some j) (hfree : u.table ∉ m.held) : ∃ m', m.step (.acquire j) = some m' := by
  obtain ⟨a, p, w⟩ := u
  cases p with
  | queued =>
    have hlocked : m.isLocked (Task.table ⟨a, .queued, w⟩) = false := by simp [isLocked, hfree]
    simp [step, Event.task, hu, hlocked, hnext]
  | _ => contradiction

variable {e : Event} {t t' : Task} {held : List String} {queue : List Nat} {store : σ}

/-- An insert is in the queue just while it waits for its lock, by every event. -/
theorem Moves.shift (h : Moves m e t t' held queue store) : Shift m.queue e.task t t' queue := by
  cases h with
  | arrive => exact .joins rfl rfl
  | acquire => exact .leaves rfl
  | cancelQueued => exact .leaves rfl
  | _ => exact .stays rfl

/-- A save is started with its record. -/
theorem Moves.isStranded (h : Moves m e t t' held queue store) (ht : t.isStranded = false) :
    t'.isStranded = false := by
  cases h with
  | @land _ _ p => cases p <;> rfl
  | @cancelSaving _ _ w =>
    cases w with
    | unstarted => contradiction
    | _ => rfl
  | _ => rfl

/-- Every event, a cancellation too, leaves less to happen. -/
theorem Moves.remaining_lt (h : Moves m e t t' held queue store) : t'.remaining < t.remaining := by
  cases h with
  | cancelSettling => simp [Task.remaining, Phase.remaining]
  | _ => simp only [Task.remaining, Phase.remaining, Write.remaining]; omega

/-- An event changes the locks by a handover and the queue by a shift, and strands nobody. -/
theorem Regular.step (h : m.Regular) (hstep : m.step e = some m') : m'.Regular := by
  obtain ⟨t, t', ht, htasks, hm⟩ := step_moves hstep
  refine ⟨h.locked.step hstep, h.queues.shift ht htasks hm.shift, fun i u hu => ?_⟩
  rw [htasks] at hu
  obtain ⟨rfl, rfl⟩ | ⟨_, hu⟩ := getElem?_set_cases hu
  · exact hm.isStranded (h.started _ t ht)
  · exact h.started i u hu

theorem Regular.run {events : List Event} (h : m.Regular) (hrun : m.run events = some m') : m'.Regular :=
  run_induction (P := fun _ n => n.Regular) h (fun _ _ _ _ hn hstep => hn.step hstep) hrun

theorem remaining_step (hstep : m.step e = some m') : m'.remaining < m.remaining := by
  obtain ⟨t, t', ht, htasks, hm⟩ := step_moves hstep
  rw [remaining, remaining, htasks]
  exact remainingOf_set ht hm.remaining_lt

/-- Every event takes at least one from what is left, so that no run is longer than that. -/
theorem run_length_le {events : List Event} (hrun : m.run events = some m') :
    events.length + m'.remaining ≤ m.remaining := by
  apply run_induction (P := fun done n => done.length + n.remaining ≤ m.remaining) _ _ hrun
  · simp
  · intro done n e n' hn hstep
    have hless := remaining_step hstep
    simp only [List.length_append, List.length_singleton]
    omega

/-- How it goes on with an insert that has not ended: by an event of its own, of the insert that holds the lock of its
table, or of the one whose turn it is to take that lock. -/
inductive Onward (m : Inserts σ) (i : Nat) (t : Task) : Prop
  | moves (hqueued : t.isQueued = false) (hmove : m.CanMove i)
  | held {j : Nat} (hqueued : t.isQueued = true) (hinside : m.IsInsideAt t.table j) (hmove : m.CanMove j)
  | free {j : Nat} {u : Task} {m' : Inserts σ} (hqueued : t.isQueued = true)
    (hfree : m.isLocked t.table = false) (hu : m.tasks[j]? = some u) (htable : u.table = t.table)
    (hstep : m.step (.acquire j) = some m')

/-- Whoever has not ended can go on by itself, or waits for a lock: then the one inside can go on, or the lock is free
and the turn is somebody's. -/
theorem Regular.onward (h : m.Regular) {i : Nat} (ht : m.tasks[i]? = some t) (hgoes : t.outcome? = none) :
    m.Onward i t := by
  cases hqueued : t.isQueued with
  | false => exact .moves hqueued (canMove_of_not_isQueued ht hgoes hqueued (h.started i t ht))
  | true =>
    by_cases hheld : t.table ∈ m.held
    · obtain ⟨j, u, hu, hinside, htable⟩ := h.locked.owner _ hheld
      have hgoes' := Task.outcome?_of_isInside hinside
      have hmove := canMove_of_not_isQueued hu hgoes' (Task.isQueued_of_isInside hinside) (h.started j u hu)
      exact .held hqueued ⟨u, hu, htable, hgoes', hinside⟩ hmove
    · obtain ⟨j, u, hnext, hu, huq, htable⟩ := h.queues.exists_next ht hqueued
      rw [← htable] at hnext hheld
      obtain ⟨m', hstep⟩ := exists_step_acquire hu huq hnext hheld
      exact .free hqueued (by simpa [isLocked, ← htable] using hheld) hu htable hstep

/-- Whoever goes on does so by an event that is no cancellation. -/
theorem Onward.exists_step {i : Nat} (h : m.Onward i t) : ∃ e m', e.cancelled? = none ∧ m.step e = some m' := by
  cases h with
  | moves _ hmove =>
    obtain ⟨e, m', _, he, hstep⟩ := hmove
    exact ⟨e, m', he, hstep⟩
  | held _ _ hmove =>
    obtain ⟨e, m', _, he, hstep⟩ := hmove
    exact ⟨e, m', he, hstep⟩
  | free _ _ _ _ hstep => exact ⟨_, _, rfl, hstep⟩

/-- All inserts come to an end, with no cancellation that has not been there before. -/
theorem Regular.exists_end (h : m.Regular) : ∃ events m', (∀ e ∈ events, e.cancelled? = none) ∧
    m.run events = some m' ∧ m'.HaveEnded := by
  induction hleft : m.remaining using Nat.strongRecOn generalizing m with
  | ind left ih =>
    by_cases hended : m.HaveEnded
    · exact ⟨[], m, by simp, rfl, hended⟩
    · obtain ⟨i, t, ht, hgoes⟩ := exists_unfinished hended
      obtain ⟨e, n, he, hstep⟩ := (h.onward ht hgoes).exists_step
      obtain ⟨events, m', hnone, hrun, hended'⟩ := ih _ (hleft ▸ remaining_step hstep) (h.step hstep) rfl
      refine ⟨e :: events, m', by simpa [he] using hnone, ?_, hended'⟩
      rw [Inserts.run, List.foldlM_cons, hstep]
      exact hrun

/-- What inserts and locks keep to at every moment. -/
structure Unblocked (m : Inserts σ) : Prop where
  /-- A lock is held exactly if one insert that has not ended is inside, and no other. -/
  isLocked_iff : ∀ table, m.isLocked table = true ↔ ∃! i, m.IsInsideAt table i
  /-- There is something to happen for every insert that has not ended, on its own table. -/
  onward : ∀ (i : Nat) (t : Task), m.tasks[i]? = some t → t.outcome? = none → m.Onward i t
  /-- Where all have ended every lock is free. -/
  free : m.HaveEnded → ∀ table, m.isLocked table = false
  /-- They can all end without being cancelled. -/
  ends : ∃ events m', (∀ e ∈ events, e.cancelled? = none) ∧ m.run events = some m' ∧ m'.HaveEnded ∧
    ∀ table, m'.isLocked table = false
  /-- They do not go on forever. -/
  finite : ∀ events m', m.run events = some m' → events.length ≤ m.remaining

/-- Whatever has happened, however often inserts were cancelled, refused or rejected: no lock is held without somebody
inside, and nobody waits without somebody to wait for. -/
theorem run_unblocked {insertions : List Insertion} {events : List Event}
    (hrun : (start store insertions).run events = some m) : m.Unblocked := by
  have h := (start_regular store insertions).run hrun
  obtain ⟨more, m', hnone, hmore, hended⟩ := h.exists_end
  exact {
    isLocked_iff := h.isLocked_iff
    onward := fun _ _ => h.onward
    free := h.isLocked_of_haveEnded
    ends := ⟨more, m', hnone, hmore, hended, (h.run hmore).isLocked_of_haveEnded hended⟩
    finite := fun _ _ hfurther => Nat.le_of_add_right_le (run_length_le hfurther) }

/-- Three inserts into one table and one into another: the first fails to load, the second is cancelled twice while it
saves, the third is cancelled in the queue. The lock is free then, and the last insert holds the other one. -/
theorem run_unblocked_cancelled :
    ∃ m, (start (Store.memory .empty) [⟨"t", [("name", "a")]⟩, ⟨"t", [("name", "b")]⟩, ⟨"t", [("name", "c")]⟩,
        ⟨"u", [("name", "d")]⟩]).run
      [.arrive 0, .arrive 1, .arrive 2, .arrive 3, .acquire 0, .acquire 3,
        .load 0 (some (.reported (.simulated "no disk"))), .build 0, .acquire 1, .load 1 none, .build 1, .cancel 2,
        .cancel 1, .cancel 1] = some m ∧
      m.isLocked "t" = false ∧ (∃! i, m.IsInsideAt "u" i) ∧ ∀ events m', m.run events = some m' → events.length ≤ 9 := by
  obtain ⟨m, hrun, hfree, hheld, hleft⟩ : ∃ m, (start (Store.memory .empty) [⟨"t", [("name", "a")]⟩,
      ⟨"t", [("name", "b")]⟩, ⟨"t", [("name", "c")]⟩, ⟨"u", [("name", "d")]⟩]).run
    [.arrive 0, .arrive 1, .arrive 2, .arrive 3, .acquire 0, .acquire 3,
      .load 0 (some (.reported (.simulated "no disk"))), .build 0, .acquire 1, .load 1 none, .build 1, .cancel 2,
      .cancel 1, .cancel 1] = some m ∧ m.isLocked "t" = false ∧ m.isLocked "u" = true ∧ m.remaining = 9 :=
    ⟨_, rfl, rfl, rfl, rfl⟩
  have h := run_unblocked hrun
  exact ⟨m, hrun, hfree, (h.isLocked_iff "u").mp hheld, fun events m' hmore => hleft ▸ h.finite events m' hmore⟩

end Inserts

end TableServer
