import TableServer.Execution.Inserts

namespace TableServer.Inserts

variable {σ : Type} [TableStore σ]

/-- How an event changes its insert, and what the tables whose lock is held, the queue and the store are then: one
case for each thing that can happen. All that is shown of events is shown by these cases. -/
inductive Moves (m : Inserts σ) : Event → Task → Task → List String → List Nat → σ → Prop
  | arrive {i : Nat} {a : Insertion} {w : Write} :
    Moves m (.arrive i) ⟨a, .idle, w⟩ ⟨a, .queued, w⟩ m.held (m.queue ++ [i]) m.store
  | acquire {i : Nat} {a : Insertion} {w : Write} (hfree : a.table ∉ m.held)
    (hturn : m.nextWaiter a.table = some i) :
    Moves m (.acquire i) ⟨a, .queued, w⟩ ⟨a, .loading, w⟩ (a.table :: m.held) (m.queue.erase i) m.store
  | load {i : Nat} {a : Insertion} {w : Write} {refusal : Option StoreFailure}
    {outcome : Except StoreFailure (List Record)} {store : σ}
    (h : refusedOr refusal (TableStore.load · a.table) m.store = (outcome, store)) :
    Moves m (.load i refusal) ⟨a, .loading, w⟩ ⟨a, .loaded outcome, w⟩ m.held m.queue store
  | fail {i : Nat} {a : Insertion} {w : Write} {e : StoreFailure} :
    Moves m (.build i) ⟨a, .loaded (.error e), w⟩ ⟨a, .finished (.answered e.result), w⟩
      (m.held.erase a.table) m.queue m.store
  | reject {i : Nat} {a : Insertion} {w : Write} {records : List Record} {fault : ColumnFault}
    (h : a.record (nextId records) = .error fault) :
    Moves m (.build i) ⟨a, .loaded (.ok records), w⟩
      ⟨a, .finished (.answered (.executionFailure fault.message)), w⟩ (m.held.erase a.table) m.queue m.store
  | build {i : Nat} {a : Insertion} {w : Write} {records : List Record} {r : Record}
    (h : a.record (nextId records) = .ok r) :
    Moves m (.build i) ⟨a, .loaded (.ok records), w⟩ ⟨a, .saving r, .pending (records ++ [r])⟩
      m.held m.queue m.store
  | land {i : Nat} {a : Insertion} {p : Phase} {records : List Record} {refusal : Option StoreFailure}
    {outcome : Except StoreFailure Unit} {store : σ}
    (h : refusedOr refusal (TableStore.save · a.table records) m.store = (outcome, store)) :
    Moves m (.land i refusal) ⟨a, p, .pending records⟩ ⟨a, p, .landed outcome⟩ m.held m.queue store
  | resume {i : Nat} {a : Insertion} {r : Record} {outcome : Except StoreFailure Unit} :
    Moves m (.resume i) ⟨a, .saving r, .landed outcome⟩
      ⟨a, .finished (.answered (saved r outcome)), .landed outcome⟩ (m.held.erase a.table) m.queue m.store
  | settle {i : Nat} {a : Insertion} {outcome : Except StoreFailure Unit} :
    Moves m (.resume i) ⟨a, .settling, .landed outcome⟩ ⟨a, .finished .cancelled, .landed outcome⟩
      (m.held.erase a.table) m.queue m.store
  | cancelIdle {i : Nat} {a : Insertion} {w : Write} :
    Moves m (.cancel i) ⟨a, .idle, w⟩ ⟨a, .finished .cancelled, w⟩ m.held m.queue m.store
  | cancelQueued {i : Nat} {a : Insertion} {w : Write} :
    Moves m (.cancel i) ⟨a, .queued, w⟩ ⟨a, .finished .cancelled, w⟩ m.held (m.queue.erase i) m.store
  | cancelLoading {i : Nat} {a : Insertion} {w : Write} :
    Moves m (.cancel i) ⟨a, .loading, w⟩ ⟨a, .finished .cancelled, w⟩ (m.held.erase a.table) m.queue m.store
  | cancelLoaded {i : Nat} {a : Insertion} {w : Write} {outcome : Except StoreFailure (List Record)} :
    Moves m (.cancel i) ⟨a, .loaded outcome, w⟩ ⟨a, .finished .cancelled, w⟩
      (m.held.erase a.table) m.queue m.store
  | cancelSaving {i : Nat} {a : Insertion} {w : Write} {r : Record} :
    Moves m (.cancel i) ⟨a, .saving r, w⟩ ⟨a, .settling, w⟩ m.held m.queue m.store
  | cancelSettling {i : Nat} {a : Insertion} {w : Write} :
    Moves m (.cancel i) ⟨a, .settling, w⟩ ⟨a, .finished .cancelled, w⟩
      (m.held.erase a.table) m.queue m.store

variable {m m' : Inserts σ}

theorem stepBuild_moves (m : Inserts σ) (i : Nat) (a : Insertion) (w : Write)
    (loaded : Except StoreFailure (List Record)) :
    ∃ t', (m.stepBuild i ⟨a, .loaded loaded, w⟩ loaded).tasks = m.tasks.set i t' ∧
      Moves m (.build i) ⟨a, .loaded loaded, w⟩ t' (m.stepBuild i ⟨a, .loaded loaded, w⟩ loaded).held
        (m.stepBuild i ⟨a, .loaded loaded, w⟩ loaded).queue
        (m.stepBuild i ⟨a, .loaded loaded, w⟩ loaded).store := by
  unfold stepBuild
  cases loaded with
  | error e => exact ⟨_, rfl, .fail⟩
  | ok records =>
    cases hr : a.record (nextId records) with
    | error fault => simpa only [hr] using ⟨_, rfl, .reject hr⟩
    | ok r => simpa only [hr] using ⟨_, rfl, .build hr⟩

theorem stepCancel_moves {i : Nat} {t : Task} (h : m.stepCancel i t = some m') :
    ∃ t', m'.tasks = m.tasks.set i t' ∧ Moves m (.cancel i) t t' m'.held m'.queue m'.store := by
  obtain ⟨a, p, w⟩ := t
  cases p with
  | idle =>
    obtain rfl := Option.some.inj h
    exact ⟨_, rfl, .cancelIdle⟩
  | queued =>
    obtain rfl := Option.some.inj h
    exact ⟨_, rfl, .cancelQueued⟩
  | loading =>
    obtain rfl := Option.some.inj h
    exact ⟨_, rfl, .cancelLoading⟩
  | loaded outcome =>
    obtain rfl := Option.some.inj h
    exact ⟨_, rfl, .cancelLoaded⟩
  | saving r =>
    obtain rfl := Option.some.inj h
    exact ⟨_, rfl, .cancelSaving⟩
  | settling =>
    obtain rfl := Option.some.inj h
    exact ⟨_, rfl, .cancelSettling⟩
  | finished outcome => contradiction

/-- An event that can happen changes one insert, the lock of its table, the queue and the store, by one of the cases.
-/
theorem step_moves {e : Event} (h : m.step e = some m') :
    ∃ t t', m.tasks[e.task]? = some t ∧ m'.tasks = m.tasks.set e.task t' ∧
      Moves m e t t' m'.held m'.queue m'.store := by
  unfold step at h
  obtain ⟨⟨a, p, w⟩, ht, h⟩ := Option.bind_eq_some_iff.mp h
  refine ⟨⟨a, p, w⟩, ?_⟩
  dsimp only at h
  split at h
  · obtain rfl := Option.some.inj h
    exact ⟨_, ht, rfl, .arrive⟩
  · split at h
    · contradiction
    · next hguard =>
      obtain rfl := Option.some.inj h
      simp only [isLocked, Bool.or_eq_true, List.contains_iff_mem, bne_iff_ne, ne_eq, not_or,
        Decidable.not_not] at hguard
      exact ⟨_, ht, rfl, .acquire hguard.1 hguard.2⟩
  · obtain rfl := Option.some.inj h
    exact ⟨_, ht, rfl, .load rfl⟩
  · obtain rfl := Option.some.inj h
    obtain ⟨t', hset, hm⟩ := stepBuild_moves m _ a w _
    exact ⟨t', ht, hset, hm⟩
  · obtain rfl := Option.some.inj h
    exact ⟨_, ht, rfl, .land rfl⟩
  · obtain rfl := Option.some.inj h
    exact ⟨_, ht, rfl, .resume⟩
  · obtain rfl := Option.some.inj h
    exact ⟨_, ht, rfl, .settle⟩
  · obtain ⟨t', hset, hm⟩ := stepCancel_moves h
    exact ⟨t', ht, hset, hm⟩
  · contradiction

end TableServer.Inserts
