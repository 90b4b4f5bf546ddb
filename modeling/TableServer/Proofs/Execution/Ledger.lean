import TableServer.Proofs.Execution.Serial

namespace TableServer.Inserts

variable {σ : Type} {m m' : Inserts σ}

/-- Whether the save of an insert, given by its number, has been done. -/
def isSaved (m : Inserts σ) (i : Nat) : Bool := m.tasks[i]?.any Task.isSaved

/-- The inserts into a table that were saved, in the order in which they got its lock. -/
def savers (m : Inserts σ) (insertions : List Insertion) (events : List Event) (table : String) : List Nat :=
  (turns insertions events table).filter m.isSaved

/-- What a table holds now, by what it held at first and who has saved to it since: a ledger of the records that were
saved, in the order in which their inserts got the lock. -/
inductive Ledger (m : Inserts σ) :
    Except StoreFailure (List Record) → Except StoreFailure (List Record) → List Nat → Prop
  | unread {e : StoreFailure} : Ledger m (.error e) (.error e) []
  | grown {records added : List Record} {savers : List Nat}
    (hids : added.map Record.id = List.range' (nextId records) added.length)
    (hstored : List.Forall₂ (fun i r => ∃ t, m.tasks[i]? = some t ∧ t.Stored r) savers added) :
    Ledger m (.ok records) (.ok (records ++ added)) savers

theorem isSaved_set_self {i : Nat} {t t' : Task} (ht : m.tasks[i]? = some t)
    (htasks : m'.tasks = m.tasks.set i t') : m'.isSaved i = t'.isSaved := by
  simp [isSaved, htasks, getElem?_set_self ht]

theorem isSaved_set_other {i j : Nat} {t' : Task} (htasks : m'.tasks = m.tasks.set i t') (h : j ≠ i) :
    m'.isSaved j = m.isSaved j := by
  simp [isSaved, htasks, getElem?_set_other h]

theorem isSaved_set {i : Nat} {t t' : Task} (ht : m.tasks[i]? = some t)
    (htasks : m'.tasks = m.tasks.set i t') (h : t'.isSaved = t.isSaved) : m'.isSaved = m.isSaved := by
  funext j
  by_cases hj : j = i
  · subst hj
    rw [isSaved_set_self ht htasks, h]
    simp [isSaved, ht]
  · exact isSaved_set_other htasks hj

/-- The insert whose turn was the last comes behind those who have saved before. -/
theorem filter_isSaved_set {i : Nat} {t t' : Task} {line : List Nat} (ht : m.tasks[i]? = some t)
    (htasks : m'.tasks = m.tasks.set i t') (hbefore : t.isSaved = false) (hafter : t'.isSaved = true)
    (honce : line.Nodup) (hlast : line.getLast? = some i) :
    line.filter m'.isSaved = line.filter m.isSaved ++ [i] := by
  obtain ⟨front, rfl⟩ := List.getLast?_eq_some_iff.mp hlast
  have hfront : ∀ j ∈ front, j ≠ i := by
    rintro j hj rfl
    exact (List.nodup_append.mp honce).2.2 j hj j (List.mem_singleton.mpr rfl) rfl
  have hself : m.isSaved i = false := by simpa [isSaved, ht] using hbefore
  rw [List.filter_append, List.filter_append,
    List.filter_congr fun j hj => isSaved_set_other htasks (hfront j hj)]
  simp [isSaved_set_self ht htasks, hself, hafter]

namespace Ledger

variable {initial current : Except StoreFailure (List Record)} {savers : List Nat} {i : Nat} {t t' : Task}

theorem of_error {e : StoreFailure} (h : Ledger m (.error e) current savers) :
    current = .error e ∧ savers = [] := by
  cases h
  exact ⟨rfl, rfl⟩

/-- A table that could be read at first holds its records still, with those of the ledger behind them. -/
theorem of_ok {records : List Record} (h : Ledger m (.ok records) current savers) :
    ∃ added, current = .ok (records ++ added) ∧
      added.map Record.id = List.range' (nextId records) added.length ∧
      List.Forall₂ (fun i r => ∃ t, m.tasks[i]? = some t ∧ t.Stored r) savers added := by
  cases h with
  | grown hids hstored => exact ⟨_, rfl, hids, hstored⟩

/-- An insert that keeps what it has stored changes no ledger. -/
theorem change (h : Ledger m initial current savers) (ht : m.tasks[i]? = some t)
    (htasks : m'.tasks = m.tasks.set i t') (hstored : ∀ r, t.Stored r → t'.Stored r) :
    Ledger m' initial current savers := by
  cases h with
  | unread => exact .unread
  | grown hids hall =>
    refine .grown hids (hall.imp ?_)
    rintro j r ⟨u, hu, hr⟩
    by_cases hj : j = i
    · subst hj
      obtain rfl := Option.some.inj (ht.symm.trans hu)
      exact ⟨t', htasks ▸ getElem?_set_self ht, hstored r hr⟩
    · exact ⟨u, by rw [htasks, getElem?_set_other hj, hu], hr⟩

/-- A save adds the record that its insert has stored. -/
theorem grow {before : List Record} {r : Record} (h : Ledger m initial (.ok before) savers)
    (ht : m.tasks[i]? = some t) (hid : r.id = nextId before) (hr : t.Stored r) :
    Ledger m initial (.ok (before ++ [r])) (savers ++ [i]) := by
  cases h with
  | @grown records added _ hids hall =>
    rw [List.append_assoc]
    refine .grown ?_ (List.rel_append hall (.cons ⟨t, ht, hr⟩ .nil))
    rw [nextId_append hids] at hid
    rw [List.map_append, hids, List.length_append, List.map_singleton, hid, List.length_singleton,
      List.range'_concat, Nat.one_mul]

end Ledger

variable [TableStore σ] {served : String → Prop}

/-- What every reachable state of inserts into served tables keeps to, if none is cancelled twice. -/
structure Serial (c : Contract σ served) (store₀ : σ) (insertions : List Insertion) (events : List Event)
    (m : Inserts σ) : Prop where
  sound : c.Sound m.store
  locked : m.Locked
  given : ∀ (i : Nat) (t : Task), m.tasks[i]? = some t → insertions[i]? = some t.insertion
  once : (acquisitions events).Nodup
  waiting : ∀ (i : Nat) (t : Task), m.tasks[i]? = some t → t.isWaiting = true → i ∉ acquisitions events
  turned : ∀ (i : Nat) (t : Task), m.tasks[i]? = some t → t.isSaved = true → i ∈ acquisitions events
  last : ∀ (i : Nat) (t : Task), m.tasks[i]? = some t → t.isInside = true →
    (turns insertions events t.table).getLast? = some i
  fits : ∀ (i : Nat) (t : Task), m.tasks[i]? = some t →
    t.Fits (fun records => c.contents m.store t.table = .ok records) (i ∈ cancellations events)
  ledger : ∀ table, served table →
    m.Ledger (c.contents store₀ table) (c.contents m.store table) (m.savers insertions events table)

variable {c : Contract σ served} {store₀ : σ} {insertions : List Insertion} {events : List Event}

theorem start_serial (hs : c.Sound store₀) : Serial c store₀ insertions [] (start store₀ insertions) where
  sound := hs
  locked := start_locked store₀ insertions
  given i t ht := by
    obtain ⟨a, ha, rfl⟩ := start_phase ht
    exact ha
  once := List.nodup_nil
  waiting _ _ _ _ := List.not_mem_nil
  turned i t ht hsaved := by
    obtain ⟨a, _, rfl⟩ := start_phase ht
    contradiction
  last i t ht hin := by
    obtain ⟨a, _, rfl⟩ := start_phase ht
    contradiction
  fits i t ht := by
    obtain ⟨a, _, rfl⟩ := start_phase ht
    exact .idle
  ledger table _ := by
    cases h : c.contents store₀ table with
    | error e =>
      change Ledger _ _ (c.contents store₀ table) []
      rw [h]
      exact .unread
    | ok records =>
      change Ledger _ _ (c.contents store₀ table) []
      rw [h]
      have hgrown : (start store₀ insertions).Ledger (.ok records) (.ok (records ++ [])) [] := .grown rfl .nil
      rwa [List.append_nil] at hgrown

section Step

variable {e : Event} {t t' : Task} {held : List String} {queue : List Nat} {store : σ}

theorem Serial.given_step (h : Serial c store₀ insertions events m) (ht : m.tasks[e.task]? = some t)
    (htasks : m'.tasks = m.tasks.set e.task t') (hm : Moves m e t t' held queue store) {i : Nat} {u : Task}
    (hu : m'.tasks[i]? = some u) : insertions[i]? = some u.insertion := by
  rw [htasks] at hu
  obtain ⟨rfl, rfl⟩ | ⟨_, hu⟩ := getElem?_set_cases hu
  · rw [hm.insertion]
    exact h.given _ t ht
  · exact h.given i u hu

theorem Serial.once_step (h : Serial c store₀ insertions events m) (ht : m.tasks[e.task]? = some t)
    (hm : Moves m e t t' held queue store) : (acquisitions (events ++ [e])).Nodup := by
  cases hm.turn with
  | none he =>
    rw [acquisitions_of_none he]
    exact h.once
  | @some i hwait =>
    rw [acquisitions_append]
    refine List.nodup_append.mpr ⟨h.once, List.nodup_cons.mpr ⟨List.not_mem_nil, List.nodup_nil⟩, ?_⟩
    rintro j hj k hk rfl
    obtain rfl := List.mem_singleton.mp hk
    exact h.waiting _ t ht hwait hj

theorem Serial.waiting_step (h : Serial c store₀ insertions events m) (ht : m.tasks[e.task]? = some t)
    (htasks : m'.tasks = m.tasks.set e.task t') (hm : Moves m e t t' held queue store) {i : Nat} {u : Task}
    (hu : m'.tasks[i]? = some u) (hwaiting : u.isWaiting = true) : i ∉ acquisitions (events ++ [e]) := by
  rw [htasks] at hu
  cases hm.turn with
  | none he hwait =>
    rw [acquisitions_of_none he]
    obtain ⟨rfl, rfl⟩ | ⟨_, hu⟩ := getElem?_set_cases hu
    · exact h.waiting _ t ht (hwait hwaiting)
    · exact h.waiting i u hu hwaiting
  | some _ hwait' =>
    rw [acquisitions_append, List.mem_append]
    obtain ⟨rfl, rfl⟩ | ⟨hi, hu⟩ := getElem?_set_cases hu
    · rw [hwait'] at hwaiting
      contradiction
    · exact not_or.mpr ⟨h.waiting i u hu hwaiting, fun hm => hi (List.mem_singleton.mp hm)⟩

/-- Who is inside had the last turn at its table: while it is, nobody else gets one. -/
theorem Serial.last_step (h : Serial c store₀ insertions events m) (ht : m.tasks[e.task]? = some t)
    (htasks : m'.tasks = m.tasks.set e.task t') (hm : Moves m e t t' held queue store) {i : Nat} {u : Task}
    (hu : m'.tasks[i]? = some u) (hinside : u.isInside = true) :
    (turns insertions (events ++ [e]) u.table).getLast? = some i := by
  rw [htasks] at hu
  cases hm.turn with
  | none he _ hin =>
    rw [turns_of_none he]
    obtain ⟨rfl, rfl⟩ | ⟨_, hu⟩ := getElem?_set_cases hu
    · rw [hm.table]
      exact h.last _ t ht (hin hinside)
    · exact h.last i u hu hinside
  | @some k _ _ _ hfree =>
    have hgiven : insertions[k]? = some t.insertion := h.given k t ht
    rw [turns_append]
    obtain ⟨rfl, rfl⟩ | ⟨_, hu⟩ := getElem?_set_cases hu
    · rw [hm.table]
      change (_ ++ turns insertions [_] t.insertion.table).getLast? = _
      rw [turns_acquire hgiven, List.getLast?_concat]
    · -- Nobody else is inside where a lock is free.
      have hne : t.table ≠ u.table := fun htu => hfree (htu ▸ h.locked.held i u hu hinside)
      rw [turns_acquire_of_ne hgiven hne, List.append_nil]
      exact h.last i u hu hinside

theorem Serial.acquired_of_isInside (h : Serial c store₀ insertions events m) {i : Nat} {u : Task}
    (hu : m.tasks[i]? = some u) (hinside : u.isInside = true) : i ∈ acquisitions events :=
  ((mem_turns_iff (h.given i u hu)).mp (List.mem_of_getLast? (h.last i u hu hinside))).1

theorem Serial.turned_step (h : Serial c store₀ insertions events m) (ht : m.tasks[e.task]? = some t)
    (htasks : m'.tasks = m.tasks.set e.task t') (heffect : Effect c m.store t t' store) {i : Nat} {u : Task}
    (hu : m'.tasks[i]? = some u) (hsaved : u.isSaved = true) : i ∈ acquisitions (events ++ [e]) := by
  rw [acquisitions_append, List.mem_append]
  rw [htasks] at hu
  obtain ⟨rfl, rfl⟩ | ⟨_, hu⟩ := getElem?_set_cases hu
  · cases heffect with
    | quiet hquiet => exact .inl (h.turned _ t ht (hquiet ▸ hsaved))
    | stores a p records hpending =>
      have hinside := (h.fits _ t ht).isInside_of_isWorking (by simp [hpending, Task.isWorking])
      exact .inl (h.acquired_of_isInside ht hinside)
  · exact .inl (h.turned i u hu hsaved)

theorem mem_cancellations_append {i : Nat} (h : i ∈ cancellations events) (e : Event) :
    i ∈ cancellations (events ++ [e]) :=
  cancellations_append events [e] ▸ List.mem_append_left _ h

/-- An event that cancels its insert for the first time. -/
theorem cancels_once (honce : (cancellations (events ++ [e])).Nodup) (he : e.cancelled?.isSome = true) :
    e.task ∉ cancellations events ∧ e.task ∈ cancellations (events ++ [e]) := by
  rw [cancellations_append] at honce ⊢
  cases e with
  | cancel i =>
    have hi : i ∈ cancellations [.cancel i] := List.mem_singleton.mpr rfl
    exact ⟨fun hm => (List.nodup_append.mp honce).2.2 i hm i hi rfl, List.mem_append_right _ hi⟩
  | _ => contradiction

/-- Inserts go on fitting. For the one of the event this is its own move; for another one that is inside, its table is
not the one that has been saved. -/
theorem Serial.fits_step (h : Serial c store₀ insertions events m) (ht : m.tasks[e.task]? = some t)
    (htasks : m'.tasks = m.tasks.set e.task t') (hm : Moves m e t t' held queue store)
    (heffect : Effect c m.store t t' store) (hserved : ∀ a ∈ insertions, served a.table)
    (honce : (cancellations (events ++ [e])).Nodup) {i : Nat} {u : Task} (hu : m'.tasks[i]? = some u) :
    u.Fits (fun records => c.contents store u.table = .ok records) (i ∈ cancellations (events ++ [e])) := by
  have hnamed : ∀ (j : Nat) (v : Task), m.tasks[j]? = some v → served v.table := fun j v hv =>
    hserved _ (List.mem_of_getElem? (h.given j v hv))
  rw [htasks] at hu
  obtain ⟨rfl, rfl⟩ | ⟨hi, hu⟩ := getElem?_set_cases hu
  · rw [hm.table]
    refine hm.fits (h.fits _ t ht) ?_ ?_ (fun hc => mem_cancellations_append hc e) (cancels_once honce)
    · intro hloading records hloaded
      obtain ⟨refusal, hload⟩ := hm.loaded hloading hloaded
      obtain ⟨_, hkeeps, hholds⟩ := load_refused c h.sound (hnamed _ t ht) hload
      exact (hkeeps _ (hnamed _ t ht)).trans (hholds records rfl)
    · intro hunsaved records hholds
      cases heffect with
      | quiet _ hkeeps => exact (hkeeps _ (hnamed _ t ht)).trans hholds
      | stores a p before _ hlanded =>
        rw [hlanded] at hunsaved
        contradiction
  · refine (h.fits i u hu).change (fun hinside records hholds => ?_) (fun hc => mem_cancellations_append hc e)
    rw [← hholds]
    cases heffect with
    | quiet _ hkeeps => exact hkeeps _ (hnamed i u hu)
    | stores a p before hpending _ _ hkeeps =>
      -- Two inserts into one table are not inside together.
      have htin := (h.fits _ t ht).isInside_of_isWorking (by simp [hpending, Task.isWorking])
      refine hkeeps _ (hnamed i u hu) (fun htable => hi ?_)
      exact h.locked.alone i _ u t hu ht hinside htin (htable.trans (by rw [hpending]; rfl))

theorem Serial.savers_quiet (h : Serial c store₀ insertions events m) (ht : m.tasks[e.task]? = some t)
    (htasks : m'.tasks = m.tasks.set e.task t') (hm : Moves m e t t' held queue store)
    (hquiet : t'.isSaved = t.isSaved) (table : String) :
    m'.savers insertions (events ++ [e]) table = m.savers insertions events table := by
  unfold savers
  rw [isSaved_set ht htasks hquiet]
  cases hm.turn with
  | none he => rw [turns_of_none he]
  | @some i hwait =>
    have hi : m.tasks[i]? = some t := ht
    have hunsaved : m.isSaved i = false := by
      rw [isSaved, hi]
      exact Bool.eq_false_iff.mpr fun hs => h.waiting i t hi hwait (h.turned i t hi hs)
    rw [turns_append, List.filter_append]
    have hnone : (turns insertions [.acquire i] table).filter m.isSaved = [] := by
      refine List.filter_eq_nil_iff.mpr fun j hj => ?_
      obtain rfl : j = i := by
        have hmem := List.mem_filter.mp hj
        exact List.mem_singleton.mp hmem.1
      simp [hunsaved]
    rw [hnone, List.append_nil]

/-- A ledger grows by the save of an event, in its own table, and no event does anything else to it. -/
theorem Serial.ledger_step (h : Serial c store₀ insertions events m) (ht : m.tasks[e.task]? = some t)
    (htasks : m'.tasks = m.tasks.set e.task t') (hm : Moves m e t t' held queue store)
    (heffect : Effect c m.store t t' store) {table : String} (hserved : served table) :
    m'.Ledger (c.contents store₀ table) (c.contents store table)
      (m'.savers insertions (events ++ [e]) table) := by
  have hledger := h.ledger table hserved
  have hkept : m'.Ledger (c.contents store₀ table) (c.contents m.store table)
      (m.savers insertions events table) := hledger.change ht htasks fun r => hm.stored
  cases heffect with
  | quiet hquiet hkeeps =>
    rw [h.savers_quiet ht htasks hm hquiet, hkeeps table hserved]
    exact hkept
  | stores a p records hpending hlanded hself hkeeps =>
    subst hpending hlanded
    have he : e.acquirer? = none := by
      cases hm with
      | land => rfl
    have hunsaved : Task.isSaved ⟨a, p, .pending records⟩ = false := rfl
    have hsaved : Task.isSaved ⟨a, p, .landed (.ok ())⟩ = true := rfl
    have hfits := h.fits _ _ ht
    unfold savers
    rw [turns_of_none he]
    by_cases htable : table = a.table
    · subst htable
      obtain ⟨before, r, rfl, hbefore, hid, hstored⟩ := hfits.pending
      have hinside := hfits.isInside_of_isWorking (by simp [Task.isWorking])
      have hlast : (turns insertions events a.table).getLast? = some e.task := h.last _ _ ht hinside
      rw [filter_isSaved_set ht htasks hunsaved hsaved (turns_nodup h.once _) hlast, hself]
      change c.contents m.store a.table = _ at hbefore
      rw [hbefore] at hkept
      exact hkept.grow (htasks ▸ getElem?_set_self ht) hid hstored
    · rw [hkeeps table hserved htable]
      have hsame : (turns insertions events table).filter m'.isSaved =
          (turns insertions events table).filter m.isSaved := by
        refine List.filter_congr fun j hj => isSaved_set_other htasks ?_
        rintro rfl
        exact htable ((mem_turns_iff (h.given _ _ ht)).mp hj).2.symm
      rw [hsame]
      exact hkept

theorem Serial.step (h : Serial c store₀ insertions events m) (hserved : ∀ a ∈ insertions, served a.table)
    (hstep : m.step e = some m') (honce : (cancellations (events ++ [e])).Nodup) :
    Serial c store₀ insertions (events ++ [e]) m' := by
  obtain ⟨t, t', ht, htasks, hm⟩ := step_moves hstep
  have hnamed : served t.table := hserved _ (List.mem_of_getElem? (h.given _ t ht))
  obtain ⟨hsound, heffect⟩ := hm.effect h.sound hnamed (h.fits _ t ht)
  exact {
    sound := hsound
    locked := h.locked.step hstep
    given := fun _ _ => h.given_step ht htasks hm
    once := h.once_step ht hm
    waiting := fun _ _ => h.waiting_step ht htasks hm
    turned := fun _ _ => h.turned_step ht htasks heffect
    last := fun _ _ => h.last_step ht htasks hm
    fits := fun _ _ => h.fits_step ht htasks hm heffect hserved honce
    ledger := fun _ => h.ledger_step ht htasks hm heffect }

end Step

theorem run_fits (h : (start store₀ insertions).run events = some m) (honce : (cancellations events).Nodup) :
    ∀ (i : Nat) (t : Task), m.tasks[i]? = some t → t.Fits (fun _ => True) (i ∈ cancellations events) := by
  refine run_induction (P := fun done n => (cancellations done).Nodup → ∀ (i : Nat) (t : Task), n.tasks[i]? = some t →
    t.Fits (fun _ => True) (i ∈ cancellations done)) ?_ ?_ h honce
  · intro _ i t ht
    obtain ⟨a, _, rfl⟩ := start_phase ht
    exact .idle
  · intro done n e n' hn hstep hnodup i u hu
    obtain ⟨t, t', ht, htasks, hm⟩ := step_moves hstep
    have hbefore : (cancellations done).Nodup := by
      rw [cancellations_append] at hnodup
      exact (List.nodup_append.mp hnodup).1
    rw [htasks] at hu
    obtain ⟨rfl, rfl⟩ | ⟨_, hu⟩ := getElem?_set_cases hu
    · exact hm.fits (hn hbefore _ t ht) (fun _ _ _ => trivial) (fun _ _ _ => trivial)
        (fun hc => mem_cancellations_append hc e) (cancels_once hnodup)
    · exact (hn hbefore i u hu).change (fun _ _ _ => trivial) (fun hc => mem_cancellations_append hc e)

/-- Every run into served tables keeps to the invariant if no insert is cancelled twice. -/
theorem run_serial (hs : c.Sound store₀) (hserved : ∀ a ∈ insertions, served a.table)
    (h : (start store₀ insertions).run events = some m) (honce : (cancellations events).Nodup) :
    Serial c store₀ insertions events m := by
  refine run_induction (P := fun done n => (cancellations done).Nodup → Serial c store₀ insertions done n)
    (fun _ => start_serial hs) ?_ h honce
  intro done n e n' hn hstep hnodup
  rw [cancellations_append] at hnodup
  refine (hn (List.nodup_append.mp hnodup).1).step hserved hstep ?_
  rwa [cancellations_append]

end TableServer.Inserts
