import TableServer.Connection.Wire
import TableServer.Proofs.Statement.Written
import TableServer.Proofs.Store.Contract

namespace TableServer

theorem StoreFailure.isError_result (e : StoreFailure) : e.result.isError = true := by
  cases e with
  | reported e => rfl
  | unexpected cause => rfl

theorem insert_eq_inserted {σ : Type} [TableStore σ] {s : σ} {a : Insertion} (h : (insert s a).1.isError = false) :
    ∃ records r, (TableStore.load s a.table).1 = .ok records ∧ a.record (nextId records) = .ok r ∧
      (TableStore.save (TableStore.load s a.table).2 a.table (records ++ [r])).1 = .ok () ∧
      insert s a = (.inserted r, (TableStore.save (TableStore.load s a.table).2 a.table (records ++ [r])).2) := by
  unfold insert at h ⊢
  rcases hl : TableStore.load s a.table with ⟨e | records, s₁⟩
  · rw [hl] at h
    exact absurd h (by simp [e.isError_result])
  · rw [hl] at h
    dsimp only at h ⊢
    cases hr : a.record (nextId records) with
    | error fault => simp [hr, Result.isError] at h
    | ok r =>
      rw [hr] at h
      dsimp only at h ⊢
      rcases hs : TableStore.save s₁ a.table (records ++ [r]) with ⟨e | u, s₂⟩
      · rw [hs] at h
        exact absurd h (by simp [e.isError_result])
      · exact ⟨records, r, rfl, hr, by rw [hs], by rw [hs]⟩

/-- An insertion loads its table, and may then save it. -/
theorem insert_snd {σ : Type} [TableStore σ] (s : σ) (a : Insertion) :
    (insert s a).2 = (TableStore.load s a.table).2 ∨
      ∃ records, (insert s a).2 = (TableStore.save (TableStore.load s a.table).2 a.table records).2 := by
  unfold insert
  rcases TableStore.load s a.table with ⟨e | records, s₁⟩
  · exact .inl rfl
  · dsimp only
    cases a.record (nextId records) with
    | error fault => exact .inl rfl
    | ok r =>
      refine .inr ⟨records ++ [r], ?_⟩
      dsimp only
      rcases TableStore.save s₁ a.table (records ++ [r]) with ⟨e | u, s₂⟩ <;> rfl

variable {σ : Type} [TableStore σ] {served : String → Prop} (c : Contract σ served) {s s' s'' : σ}

namespace Contract

/-- A sound store after which every table holds what it held before, and maybe more behind it. Whatever is asked of a
store, its tables only grow. -/
structure Grows (s s' : σ) : Prop where
  sound : c.Sound s'
  keeps (table : String) (records : List Record) : served table → c.contents s table = .ok records →
    ∃ more, c.contents s' table = .ok (records ++ more)

variable {c}

theorem Grows.refl (hs : c.Sound s) : c.Grows s s :=
  ⟨hs, fun _ records _ h => ⟨[], by rw [List.append_nil, h]⟩⟩

theorem Grows.trans (h : c.Grows s s') (h' : c.Grows s' s'') : c.Grows s s'' := by
  refine ⟨h'.sound, fun table records hserved hheld => ?_⟩
  obtain ⟨more, hmore⟩ := h.keeps table records hserved hheld
  obtain ⟨rest, hrest⟩ := h'.keeps table _ hserved hmore
  exact ⟨more ++ rest, by rw [hrest, List.append_assoc]⟩

theorem grows_load (hs : c.Sound s) {table : String} (htable : served table) :
    c.Grows s (TableStore.load s table).2 := by
  refine ⟨c.load_sound hs htable, fun other records hother hheld => ⟨[], ?_⟩⟩
  rw [c.load_keeps hs htable hother, hheld, List.append_nil]

/-- A save of what the table holds with more behind it. -/
theorem grows_save (hs : c.Sound s) {table : String} (htable : served table) {records : List Record}
    (hheld : c.contents s table = .ok records) (r : Record) :
    c.Grows s (TableStore.save s table (records ++ [r])).2 := by
  refine ⟨c.save_sound hs htable, fun other held hother hothers => ?_⟩
  by_cases hdone : (TableStore.save s table (records ++ [r])).1 = .ok () ∧ other = table
  · obtain ⟨hok, rfl⟩ := hdone
    obtain rfl := Except.ok.inj (hheld.symm.trans hothers)
    exact ⟨[r], c.saved hs htable hok⟩
  · refine ⟨[], ?_⟩
    rw [c.save_keeps hs htable hother fun hok he => hdone ⟨hok, he⟩, hothers, List.append_nil]

theorem grows_insert (hs : c.Sound s) {a : Insertion} (ha : served a.table) : c.Grows s (insert s a).2 := by
  have hload := grows_load hs ha
  unfold insert
  rcases hl : TableStore.load s a.table with ⟨e | records, s₁⟩
  · rw [hl] at hload
    exact hload
  · rw [hl] at hload
    have hheld : c.contents s₁ a.table = .ok records := by
      have hkeeps := c.load_keeps hs ha ha
      rw [hl] at hkeeps
      exact hkeeps.trans (c.loaded hs ha (by rw [hl]))
    dsimp only
    cases hr : a.record (nextId records) with
    | error fault => exact hload
    | ok r =>
      have hsave := hload.trans (grows_save hload.sound ha hheld r)
      dsimp only
      rcases hs' : TableStore.save s₁ a.table (records ++ [r]) with ⟨e | u, s₂⟩
      · rw [hs'] at hsave
        exact hsave
      · rw [hs'] at hsave
        exact hsave

theorem execute_snd_of_select {cmd : Command} (h : ∀ a, cmd ≠ .insert a) :
    (execute s cmd).2 = (TableStore.load s cmd.table).2 := by
  cases cmd with
  | selectAll table =>
    simp only [execute, selectAll, Command.table]
    rcases TableStore.load s table with ⟨_ | _, _⟩ <;> rfl
  | selectById table id =>
    simp only [execute, selectById, Command.table]
    rcases TableStore.load s table with ⟨_ | records, _⟩
    · rfl
    · dsimp only
      split <;> rfl
  | insert a => exact absurd rfl (h a)

theorem grows_execute (hs : c.Sound s) {cmd : Command} (hcmd : served cmd.table) :
    c.Grows s (execute s cmd).2 := by
  cases cmd with
  | insert a => exact grows_insert hs hcmd
  | selectAll table =>
    rw [execute_snd_of_select (by simp)]
    exact grows_load hs hcmd
  | selectById table id =>
    rw [execute_snd_of_select (by simp)]
    exact grows_load hs hcmd

variable (hnamed : ∀ table, Grammar.IsWord table.toList → served table)
include hnamed

theorem grows_executeStatement (hs : c.Sound s) (text : String) : c.Grows s (executeStatement s text).2 := by
  unfold executeStatement
  cases hparse : parse statementDigits text with
  | error rejection => exact .refl hs
  | ok cmd => exact grows_execute hs (hnamed _ (isWord_of_parse hparse))

theorem grows_handleChunk (hs : c.Sound s) (chunk : Bytes) : c.Grows s (handleChunk s chunk).2 := by
  unfold handleChunk
  cases Wire.decode chunk with
  | error result => exact .refl hs
  | ok text => exact grows_executeStatement hnamed hs text

end Contract

/-- The store after some chunks. -/
def afterChunks (s : σ) (chunks : List Bytes) : σ := chunks.foldl (fun s chunk => (handleChunk s chunk).2) s

/-- However many chunks come, no record is lost or changed. -/
theorem Contract.grows_afterChunks {c : Contract σ served}
    (hnamed : ∀ table, Grammar.IsWord table.toList → served table) (hs : c.Sound s) (chunks : List Bytes) :
    c.Grows s (afterChunks s chunks) := by
  induction chunks generalizing s with
  | nil => exact .refl hs
  | cons chunk chunks ih =>
    have hfirst := grows_handleChunk hnamed hs chunk
    exact hfirst.trans (ih hfirst.sound)

end TableServer
