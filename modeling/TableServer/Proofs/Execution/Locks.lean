import Mathlib.Data.List.Induction
import TableServer.Proofs.Execution.Moves

namespace TableServer

/-- An insert is inside from when it gets its lock until it ends. -/
def Phase.isInside : Phase → Bool
  | loading => true
  | loaded _ => true
  | saving _ => true
  | settling => true
  | idle => false
  | queued => false
  | finished _ => false

def Task.isInside (t : Task) : Bool := t.phase.isInside

namespace Inserts

variable {σ : Type} {m m' : Inserts σ}

/-- A task after a change of one. -/
theorem getElem?_set_cases {tasks : List Task} {i j : Nat} {t u : Task} (h : (tasks.set i t)[j]? = some u) :
    (j = i ∧ u = t) ∨ (j ≠ i ∧ tasks[j]? = some u) := by
  rw [List.getElem?_set] at h
  split at h
  · next hij =>
    split at h
    · exact .inl ⟨hij.symm, (Option.some.inj h).symm⟩
    · contradiction
  · next hij => exact .inr ⟨Ne.symm hij, h⟩

theorem getElem?_set_self {tasks : List Task} {i : Nat} {t t' : Task} (h : tasks[i]? = some t) :
    (tasks.set i t')[i]? = some t' := by
  obtain ⟨hi, _⟩ := List.getElem?_eq_some_iff.mp h
  simp [hi]

theorem getElem?_set_other {tasks : List Task} {i j : Nat} {t' : Task} (h : j ≠ i) :
    (tasks.set i t')[j]? = tasks[j]? :=
  List.getElem?_set_ne (Ne.symm h)

/-- Who holds the lock of a table: of the inserts into it exactly the one that is inside. This is so after any events,
however often an insert is cancelled. -/
structure Locked (m : Inserts σ) : Prop where
  once : m.held.Nodup
  owner : ∀ table ∈ m.held, ∃ (i : Nat) (t : Task), m.tasks[i]? = some t ∧ t.isInside = true ∧ t.table = table
  held : ∀ (i : Nat) (t : Task), m.tasks[i]? = some t → t.isInside = true → t.table ∈ m.held
  alone : ∀ (i j : Nat) (t u : Task), m.tasks[i]? = some t → m.tasks[j]? = some u → t.isInside = true →
    u.isInside = true → t.table = u.table → i = j

theorem start_phase {store : σ} {insertions : List Insertion} {i : Nat} {t : Task}
    (h : (start store insertions).tasks[i]? = some t) :
    ∃ a, insertions[i]? = some a ∧ t = .ofInsertion a := by
  simp only [start, List.getElem?_map, Option.map_eq_some_iff] at h
  obtain ⟨a, ha, rfl⟩ := h
  exact ⟨a, ha, rfl⟩

theorem start_locked (store : σ) (insertions : List Insertion) : (start store insertions).Locked := by
  have hout : ∀ (i : Nat) (t : Task), (start store insertions).tasks[i]? = some t → t.isInside = true → False := by
    intro i t ht hin
    obtain ⟨a, _, rfl⟩ := start_phase ht
    contradiction
  exact ⟨List.nodup_nil, fun table h => absurd h List.not_mem_nil,
    fun i t ht hin => (hout i t ht hin).elim, fun i j t u ht _ hin => (hout i t ht hin).elim⟩

/-- An event that takes its insert neither in nor out leaves the locks as they are. -/
theorem Locked.stays (h : m.Locked) {i : Nat} {t t' : Task} (ht : m.tasks[i]? = some t)
    (htable : t'.table = t.table) (hin : t'.isInside = t.isInside)
    (htasks : m'.tasks = m.tasks.set i t') (hheld : m'.held = m.held) : m'.Locked := by
  have hback : ∀ (j : Nat) (u : Task), m'.tasks[j]? = some u → u.isInside = true →
      ∃ v : Task, m.tasks[j]? = some v ∧ v.isInside = true ∧ v.table = u.table := by
    intro j u hu hinside
    rw [htasks] at hu
    obtain ⟨rfl, rfl⟩ | ⟨_, hu⟩ := getElem?_set_cases hu
    · exact ⟨t, ht, hin ▸ hinside, htable.symm⟩
    · exact ⟨u, hu, hinside, rfl⟩
  refine ⟨hheld ▸ h.once, ?_, ?_, ?_⟩
  · intro table hmem
    obtain ⟨j, u, hu, hinside, hut⟩ := h.owner table (hheld ▸ hmem)
    by_cases hj : j = i
    · subst hj
      obtain rfl := Option.some.inj (ht.symm.trans hu)
      exact ⟨j, t', htasks ▸ getElem?_set_self ht, hin.trans hinside, htable.trans hut⟩
    · exact ⟨j, u, by rw [htasks, getElem?_set_other hj, hu], hinside, hut⟩
  · intro j u hu hinside
    obtain ⟨v, hv, hvin, hvt⟩ := hback j u hu hinside
    exact hheld ▸ hvt ▸ h.held j v hv hvin
  · intro j k u v hu hv huin hvin huv
    obtain ⟨u₀, hu₀, hu₀in, hu₀t⟩ := hback j u hu huin
    obtain ⟨v₀, hv₀, hv₀in, hv₀t⟩ := hback k v hv hvin
    exact h.alone j k u₀ v₀ hu₀ hv₀ hu₀in hv₀in (hu₀t.trans (huv.trans hv₀t.symm))

theorem Locked.enters (h : m.Locked) {i : Nat} {t t' : Task} (ht : m.tasks[i]? = some t)
    (htable : t'.table = t.table) (hin : t'.isInside = true) (hfree : t.table ∉ m.held)
    (htasks : m'.tasks = m.tasks.set i t')
    (hheld : m'.held = t.table :: m.held) : m'.Locked := by
  -- No other insert into this table is inside, for its lock is free.
  have hother : ∀ (j : Nat) (u : Task), m'.tasks[j]? = some u → u.isInside = true → u.table = t.table → j = i := by
    intro j u hu hinside hut
    rw [htasks] at hu
    obtain ⟨rfl, _⟩ | ⟨_, hu⟩ := getElem?_set_cases hu
    · rfl
    · exact absurd (hut ▸ h.held j u hu hinside) hfree
  refine ⟨hheld ▸ List.nodup_cons.mpr ⟨hfree, h.once⟩, ?_, ?_, ?_⟩
  · intro table hmem
    rw [hheld] at hmem
    rcases List.mem_cons.mp hmem with rfl | hmem
    · exact ⟨i, t', htasks ▸ getElem?_set_self ht, hin, htable⟩
    · obtain ⟨j, u, hu, hinside, hut⟩ := h.owner table hmem
      have hj : j ≠ i := by
        rintro rfl
        obtain rfl := Option.some.inj (ht.symm.trans hu)
        exact absurd (hut ▸ hmem) hfree
      exact ⟨j, u, by rw [htasks, getElem?_set_other hj, hu], hinside, hut⟩
  · intro j u hu hinside
    rw [htasks] at hu
    rw [hheld]
    obtain ⟨_, rfl⟩ | ⟨_, hu⟩ := getElem?_set_cases hu
    · exact htable ▸ List.mem_cons_self
    · exact .tail _ (h.held j u hu hinside)
  · intro j k u v hu hv huin hvin huv
    by_cases hut : u.table = t.table
    · rw [hother j u hu huin hut, hother k v hv hvin (huv ▸ hut)]
    · have hold : ∀ (l : Nat) (w : Task), m'.tasks[l]? = some w → w.table ≠ t.table → m.tasks[l]? = some w := by
        intro l w hw hne
        rw [htasks] at hw
        obtain ⟨_, rfl⟩ | ⟨_, hw⟩ := getElem?_set_cases hw
        · exact absurd htable hne
        · exact hw
      exact h.alone j k u v (hold j u hu hut) (hold k v hv (huv ▸ hut)) huin hvin huv

theorem Locked.leaves (h : m.Locked) {i : Nat} {t t' : Task} (ht : m.tasks[i]? = some t)
    (hin : t.isInside = true) (hout : t'.isInside = false) (htasks : m'.tasks = m.tasks.set i t')
    (hheld : m'.held = m.held.erase t.table) : m'.Locked := by
  have hback : ∀ (j : Nat) (u : Task), m'.tasks[j]? = some u → u.isInside = true → j ≠ i ∧ m.tasks[j]? = some u := by
    intro j u hu hinside
    rw [htasks] at hu
    obtain ⟨_, rfl⟩ | hu := getElem?_set_cases hu
    · rw [hout] at hinside
      contradiction
    · exact hu
  refine ⟨hheld ▸ h.once.erase _, ?_, ?_, ?_⟩
  · intro table hmem
    rw [hheld, h.once.mem_erase_iff] at hmem
    obtain ⟨j, u, hu, hinside, hut⟩ := h.owner table hmem.2
    have hj : j ≠ i := by
      rintro rfl
      obtain rfl := Option.some.inj (ht.symm.trans hu)
      exact hmem.1 hut.symm
    exact ⟨j, u, by rw [htasks, getElem?_set_other hj, hu], hinside, hut⟩
  · intro j u hu hinside
    obtain ⟨hj, hu⟩ := hback j u hu hinside
    have hne : u.table ≠ t.table := fun hut => hj (h.alone j i u t hu ht hinside hin hut)
    rw [hheld]
    exact (List.mem_erase_of_ne hne).mpr (h.held j u hu hinside)
  · intro j k u v hu hv huin hvin huv
    exact h.alone j k u v (hback j u hu huin).2 (hback k v hv hvin).2 huin hvin huv

variable [TableStore σ]

theorem run_append (m : Inserts σ) (es fs : List Event) :
    m.run (es ++ fs) = (m.run es).bind fun m => m.run fs := by
  simp [run, List.foldlM_append]

/-- What holds at the start and is kept by each event that can happen holds after a run. -/
theorem run_induction {P : List Event → Inserts σ → Prop} (hstart : P [] m)
    (hstep : ∀ done n e n', P done n → n.step e = some n' → P (done ++ [e]) n') {events : List Event}
    (h : m.run events = some m') : P events m' := by
  induction events using List.reverseRecOn generalizing m' with
  | nil =>
    obtain rfl := Option.some.inj h
    exact hstart
  | append_singleton done e ih =>
    rw [run_append] at h
    obtain ⟨n, hn, hlast⟩ := Option.bind_eq_some_iff.mp h
    have he : n.step e = some m' := by simpa [run] using hlast
    exact hstep done n e m' (ih hn) he

theorem Moves.insertion {e : Event} {t t' : Task} {held : List String} {queue : List Nat} {store : σ}
    (h : Moves m e t t' held queue store) : t'.insertion = t.insertion := by
  cases h <;> rfl

theorem Moves.table {e : Event} {t t' : Task} {held : List String} {queue : List Nat} {store : σ}
    (h : Moves m e t t' held queue store) : t'.table = t.table :=
  congrArg Insertion.table h.insertion

/-- What an event does to the locks. -/
inductive Handover (held : List String) (t t' : Task) : List String → Prop
  | stays (h : t'.isInside = t.isInside) : Handover held t t' held
  | enters (ht : t.isInside = false) (ht' : t'.isInside = true) (hfree : t.table ∉ held) :
    Handover held t t' (t.table :: held)
  | leaves (ht : t.isInside = true) (ht' : t'.isInside = false) :
    Handover held t t' (held.erase t.table)

theorem Moves.handover {e : Event} {t t' : Task} {held : List String} {queue : List Nat} {store : σ}
    (h : Moves m e t t' held queue store) : Handover m.held t t' held := by
  cases h with
  | acquire hfree => exact .enters rfl rfl hfree
  | fail => exact .leaves rfl rfl
  | reject => exact .leaves rfl rfl
  | resume => exact .leaves rfl rfl
  | settle => exact .leaves rfl rfl
  | cancelLoading => exact .leaves rfl rfl
  | cancelLoaded => exact .leaves rfl rfl
  | cancelSettling => exact .leaves rfl rfl
  | _ => exact .stays rfl

theorem Locked.step (h : m.Locked) {e : Event} (hstep : m.step e = some m') : m'.Locked := by
  obtain ⟨t, t', ht, htasks, hm⟩ := step_moves hstep
  generalize hheld : m'.held = held at hm
  cases hm.handover with
  | stays hin => exact h.stays ht hm.table hin htasks hheld
  | enters _ hin hfree => exact h.enters ht hm.table hin hfree htasks hheld
  | leaves hin hout => exact h.leaves ht hin hout htasks hheld

/-- The locks are right after any run from the start. -/
theorem run_locked {store : σ} {insertions : List Insertion} {events : List Event}
    (h : (start store insertions).run events = some m) : m.Locked :=
  run_induction (P := fun _ n => n.Locked) (start_locked store insertions)
    (fun _ _ _ _ hn hstep => hn.step hstep) h

end Inserts

end TableServer
