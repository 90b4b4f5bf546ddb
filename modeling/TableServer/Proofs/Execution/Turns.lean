import TableServer.Proofs.Execution.Locks

namespace TableServer

theorem Insertion.record_id {a : Insertion} {id : Nat} {r : Record} (h : a.record id = .ok r) : r.id = id := by
  unfold Insertion.record at h
  split at h
  · contradiction
  · split at h
    · obtain rfl := Except.ok.inj h
      rfl
    · contradiction

theorem foldl_max_append_range {greatest : Nat} {added : List Record}
    (h : added.map Record.id = List.range' (greatest + 1) added.length) :
    added.foldl (fun greatest r => max greatest r.id) greatest = greatest + added.length := by
  induction added generalizing greatest with
  | nil => rfl
  | cons r added ih =>
    simp only [List.map_cons, List.length_cons, List.range'_succ, List.cons.injEq] at h
    obtain ⟨hr, hrest⟩ := h
    rw [List.foldl_cons, hr, Nat.max_eq_right (Nat.le_succ greatest), ih hrest, List.length_cons]
    omega

/-- Records with the next ids leave the id behind them as the next. -/
theorem nextId_append {records added : List Record}
    (h : added.map Record.id = List.range' (nextId records) added.length) :
    nextId (records ++ added) = nextId records + added.length := by
  unfold nextId at h ⊢
  rw [List.foldl_append, foldl_max_append_range h]
  omega

theorem le_foldl_max (records : List Record) (greatest : Nat) :
    greatest ≤ records.foldl (fun greatest r => max greatest r.id) greatest := by
  induction records generalizing greatest with
  | nil => exact Nat.le_refl greatest
  | cons r records ih => exact Nat.le_trans (Nat.le_max_left greatest r.id) (ih _)

theorem id_lt_nextId {records : List Record} {r : Record} (h : r ∈ records) : r.id < nextId records := by
  obtain ⟨before, after, rfl⟩ := List.append_of_mem h
  unfold nextId
  rw [List.foldl_append, List.foldl_cons]
  have := le_foldl_max after (max (before.foldl (fun greatest r => max greatest r.id) 0) r.id)
  omega

def Event.acquirer? : Event → Option Nat
  | acquire i => some i
  | _ => none

def Event.cancelled? : Event → Option Nat
  | cancel i => some i
  | _ => none

/-- The inserts that got their lock, in that order. -/
def acquisitions (events : List Event) : List Nat := events.filterMap Event.acquirer?

/-- The inserts that were cancelled, once for each time. -/
def cancellations (events : List Event) : List Nat := events.filterMap Event.cancelled?

/-- The inserts into a table that got its lock, in that order. -/
def turns (insertions : List Insertion) (events : List Event) (table : String) : List Nat :=
  (acquisitions events).filter fun i => insertions[i]?.any fun a => a.table = table

theorem acquisitions_append (events more : List Event) :
    acquisitions (events ++ more) = acquisitions events ++ acquisitions more :=
  List.filterMap_append

theorem cancellations_append (events more : List Event) :
    cancellations (events ++ more) = cancellations events ++ cancellations more :=
  List.filterMap_append

theorem turns_append (insertions : List Insertion) (events more : List Event) (table : String) :
    turns insertions (events ++ more) table = turns insertions events table ++ turns insertions more table := by
  simp [turns, acquisitions_append]

theorem acquisitions_of_none {e : Event} (h : e.acquirer? = none) (events : List Event) :
    acquisitions (events ++ [e]) = acquisitions events := by
  simp [acquisitions, h]

theorem turns_of_none {e : Event} (h : e.acquirer? = none) (insertions : List Insertion)
    (events : List Event) (table : String) :
    turns insertions (events ++ [e]) table = turns insertions events table := by
  rw [turns, acquisitions_of_none h, turns]

theorem turns_acquire {insertions : List Insertion} {i : Nat} {a : Insertion} (ha : insertions[i]? = some a) :
    turns insertions [.acquire i] a.table = [i] := by
  simp [turns, acquisitions, Event.acquirer?, ha]

theorem turns_acquire_of_ne {insertions : List Insertion} {i : Nat} {a : Insertion} {table : String}
    (ha : insertions[i]? = some a) (h : a.table ≠ table) : turns insertions [.acquire i] table = [] := by
  simp [turns, acquisitions, Event.acquirer?, ha, h]

theorem mem_turns_iff {insertions : List Insertion} {events : List Event} {i : Nat} {a : Insertion}
    {table : String} (ha : insertions[i]? = some a) :
    i ∈ turns insertions events table ↔ i ∈ acquisitions events ∧ a.table = table := by
  simp [turns, ha]

/-- An insert gets its lock once at most, and so has one turn. -/
theorem turns_nodup {insertions : List Insertion} {events : List Event} (h : (acquisitions events).Nodup)
    (table : String) : (turns insertions events table).Nodup :=
  h.filter _

end TableServer
