import TableServer.Proofs.Execution.Turns
import TableServer.Proofs.Record
import TableServer.Proofs.Statement.Written

namespace TableServer

/-- The records of each table, without a store. What lists of records give for the results of statements is what a
store that loads and saves as the lists say gives. -/
abbrev Tables := String → List Record

namespace Tables

def put (t : Tables) (table : String) (records : List Record) : Tables :=
  fun other => if other = table then records else t other

/-- One more than the greatest id, and one in an empty table. -/
def newId (records : List Record) : Nat := (records.map Record.id).max?.elim 1 (· + 1)

/-- The result of a command, and the tables after it. -/
def execute (t : Tables) : Command → Result × Tables
  | .selectAll table => (.rows (t table), t)
  | .selectById table id =>
    match (t table).find? fun r => (r.id : Int) = id with
    | some r => (.rows [r], t)
    | none => (.notFound, t)
  | .insert a =>
    match a.record (newId (t a.table)) with
    | .ok r => (.inserted r, t.put a.table (t a.table ++ [r]))
    | .error fault => (.executionFailure fault.message, t)

def executeStatement (t : Tables) (text : String) : Result × Tables :=
  match parse statementDigits text with
  | .ok c => t.execute c
  | .error rejection => (.parseFailure rejection.message, t)

def executeAll (t : Tables) : List String → List Result × Tables
  | [] => ([], t)
  | text :: rest =>
    let (result, t) := t.executeStatement text
    let (results, t) := executeAll t rest
    (result :: results, t)

theorem put_self (t : Tables) (table : String) (records : List Record) : t.put table records table = records := by
  simp [put]

theorem put_other (t : Tables) {table other : String} (records : List Record) (h : other ≠ table) :
    t.put table records other = t other := by
  simp [put, h]

/-- The greatest id is found by going through the records once, as a server does it. -/
theorem newId_eq (records : List Record) : newId records = nextId records := by
  cases records with
  | nil => rfl
  | cons r records =>
    rw [newId, nextId, List.map_cons, List.max?_cons', List.foldl_map, List.foldl_cons, Nat.zero_max]
    rfl

theorem executeAll_append (t : Tables) (texts more : List String) :
    t.executeAll (texts ++ more) =
      ((t.executeAll texts).1 ++ ((t.executeAll texts).2.executeAll more).1,
        ((t.executeAll texts).2.executeAll more).2) := by
  induction texts generalizing t with
  | nil => rfl
  | cons text texts ih => simp [executeAll, ih]

end Tables

namespace Insertion

/-- Whether an insertion makes a record; the id that it gets is no matter. -/
def IsAccepted (a : Insertion) : Prop := ∃ r, a.record 1 = .ok r

theorem isAccepted_iff {a : Insertion} (id : Nat) : a.IsAccepted ↔ ∃ r, a.record id = .ok r := by
  unfold IsAccepted record
  split
  · simp
  · split <;> simp

/-- What a statement stores can be written to a file. -/
theorem record_isChars {a : Insertion} {id : Nat} {r : Record} (h : a.record id = .ok r) : r.IsChars := by
  unfold record at h
  split at h
  · contradiction
  · split at h
    · obtain rfl := Except.ok.inj h
      exact ⟨Record.isChars_ofString _, Record.isChars_ofString _⟩
    · contradiction

end Insertion

namespace Tables

variable {t : Tables} {table : String} {r : Record}

/-- A command leaves a table as it is, or appends a record that can be written. -/
theorem execute_snd (t : Tables) (c : Command) (table : String) :
    (t.execute c).2 table = t table ∨ ∃ a r, c = .insert a ∧ a.table = table ∧
      a.record (newId (t table)) = .ok r ∧ (t.execute c).2 table = t table ++ [r] := by
  cases c with
  | selectAll other => exact .inl rfl
  | selectById other id =>
    left
    simp only [execute]
    split <;> rfl
  | insert a =>
    simp only [execute]
    split
    · next r hr =>
      by_cases h : table = a.table
      · subst h
        exact .inr ⟨a, r, rfl, rfl, hr, put_self ..⟩
      · exact .inl (put_other t _ h)
    · exact .inl rfl

/-- What a table can be written to a file for, it can be after any statement, and only then. -/
theorem isChars_executeStatement_iff (t : Tables) (text table : String) :
    (∀ r ∈ (t.executeStatement text).2 table, r.IsChars) ↔ ∀ r ∈ t table, r.IsChars := by
  unfold executeStatement
  split
  · next c _ =>
    rcases t.execute_snd c table with hsame | ⟨a, r, _, _, hr, happend⟩
    · rw [hsame]
    · rw [happend, List.forall_mem_append]
      constructor
      · intro h
        exact h.1
      · intro h
        exact ⟨h, by simpa using Insertion.record_isChars hr⟩
  · rfl

theorem mem_executeStatement (text : String) (h : r ∈ t table) : r ∈ (t.executeStatement text).2 table := by
  unfold executeStatement
  split
  · next c _ =>
    rcases t.execute_snd c table with hsame | ⟨_, _, _, _, _, happend⟩
    · rw [hsame]
      exact h
    · rw [happend]
      exact List.mem_append_left _ h
  · exact h

/-- No statement takes a record away. -/
theorem mem_executeAll (texts : List String) (h : r ∈ t table) : r ∈ (t.executeAll texts).2 table := by
  induction texts generalizing t with
  | nil => exact h
  | cons text texts ih => exact ih (mem_executeStatement text h)

end Tables

/-- A relation of stores and tables that loads tell and saves keep, as long as the records saved are good ones. -/
structure Follows {σ : Type} [TableStore σ] (served : String → Prop) (good : List Record → Prop)
    (R : σ → Tables → Prop) : Prop where
  load {s : σ} {t : Tables} {table : String} : R s t → served table →
    (TableStore.load s table).1 = .ok (t table) ∧ R (TableStore.load s table).2 t
  save {s : σ} {t : Tables} {table : String} {records : List Record} : R s t → served table → good records →
    (TableStore.save s table records).1 = .ok () ∧ R (TableStore.save s table records).2 (t.put table records)

namespace Follows

variable {σ : Type} [TableStore σ] {served : String → Prop} {good : List Record → Prop} {R : σ → Tables → Prop}
  {s : σ} {t : Tables}

theorem insert (f : Follows served good R) (h : R s t) {a : Insertion} (ha : served a.table)
    (hgood : ∀ r, a.record (Tables.newId (t a.table)) = .ok r → good (t a.table ++ [r])) :
    (TableServer.insert s a).1 = (t.execute (.insert a)).1 ∧
      R (TableServer.insert s a).2 (t.execute (.insert a)).2 := by
  obtain ⟨hloaded, hkept⟩ := f.load h ha
  unfold TableServer.insert
  rcases hl : TableStore.load s a.table with ⟨result, s'⟩
  rw [hl] at hloaded hkept
  obtain rfl : result = .ok (t a.table) := hloaded
  simp only [Tables.execute]
  rw [← Tables.newId_eq]
  cases hr : a.record (Tables.newId (t a.table)) with
  | error fault => exact ⟨rfl, hkept⟩
  | ok r =>
    obtain ⟨hsaved, hafter⟩ := f.save hkept ha (hgood r hr)
    simp only
    rcases hs : TableStore.save s' a.table (t a.table ++ [r]) with ⟨outcome, s''⟩
    rw [hs] at hsaved hafter
    obtain rfl : outcome = .ok () := hsaved
    exact ⟨rfl, hafter⟩

/-- A command is answered as the tables answer it. -/
theorem execute (f : Follows served good R) (h : R s t) {c : Command} (hc : served c.table)
    (hgood : ∀ a r, c = .insert a → a.record (Tables.newId (t a.table)) = .ok r → good (t a.table ++ [r])) :
    (TableServer.execute s c).1 = (t.execute c).1 ∧ R (TableServer.execute s c).2 (t.execute c).2 := by
  cases c with
  | insert a => exact f.insert h hc (hgood a · rfl)
  | selectAll table =>
    obtain ⟨hloaded, hkept⟩ := f.load h hc
    simp only [TableServer.execute, selectAll, Tables.execute]
    rcases hl : TableStore.load s table with ⟨result, s'⟩
    rw [Command.table, hl] at hloaded hkept
    obtain rfl : result = .ok (t table) := hloaded
    exact ⟨rfl, hkept⟩
  | selectById table id =>
    obtain ⟨hloaded, hkept⟩ := f.load h hc
    simp only [TableServer.execute, selectById, Tables.execute]
    rcases hl : TableStore.load s table with ⟨result, s'⟩
    rw [Command.table, hl] at hloaded hkept
    obtain rfl : result = .ok (t table) := hloaded
    simp only
    cases (t table).find? fun r => (r.id : Int) = id with
    | none => exact ⟨rfl, hkept⟩
    | some r => exact ⟨rfl, hkept⟩

/-- The records that a statement saves, if it saves any, are good ones. -/
def Keeps (good : List Record → Prop) (t : Tables) (text : String) : Prop :=
  ∀ a r, parse statementDigits text = .ok (.insert a) → a.record (Tables.newId (t a.table)) = .ok r →
    good (t a.table ++ [r])

theorem executeStatement (f : Follows served good R) (h : R s t) {text : String}
    (hserved : ∀ c, parse statementDigits text = .ok c → served c.table) (hgood : Keeps good t text) :
    (TableServer.executeStatement s text).1 = (t.executeStatement text).1 ∧
      R (TableServer.executeStatement s text).2 (t.executeStatement text).2 := by
  unfold TableServer.executeStatement Tables.executeStatement
  cases hparse : parse statementDigits text with
  | error rejection => exact ⟨rfl, h⟩
  | ok c =>
    apply f.execute h (hserved c hparse)
    rintro a r rfl hr
    exact hgood a r hparse hr

end Follows

/-- The tables that statements are about. -/
def Uses (texts : List String) (table : String) : Prop :=
  ∃ text ∈ texts, ∃ c, parse statementDigits text = .ok c ∧ c.table = table

/-- A table that a statement is about has a word for its name, so that it has a file. -/
theorem Uses.isWord {texts : List String} {table : String} (h : Uses texts table) :
    Grammar.IsWord table.toList := by
  obtain ⟨_, _, c, hparse, rfl⟩ := h
  exact isWord_of_parse hparse

theorem Uses.mono {texts more : List String} {table : String} (h : Uses texts table) (hsub : texts ⊆ more) :
    Uses more table := by
  obtain ⟨text, htext, hparse⟩ := h
  exact ⟨text, hsub htext, hparse⟩

/-- A run tells the results that the tables tell, and leaves a store that loads what they hold. -/
def Agrees {σ : Type} [TableStore σ] (served : String → Prop) (run : List Result × σ)
    (reference : List Result × Tables) : Prop :=
  run.1 = reference.1 ∧ ∀ table, served table → (TableStore.load run.2 table).1 = .ok (reference.2 table)

/-- Where any records are good ones, every run agrees. -/
theorem Follows.executeAll {σ : Type} [TableStore σ] {served : String → Prop} {R : σ → Tables → Prop}
    (f : Follows served (fun _ => True) R) {s : σ} {t : Tables} (h : R s t) {texts : List String}
    (hserved : ∀ table, Uses texts table → served table) :
    Agrees served (TableServer.executeAll s texts) (t.executeAll texts) := by
  induction texts generalizing s t with
  | nil => exact ⟨rfl, fun table htable => (f.load h htable).1⟩
  | cons text texts ih =>
    obtain ⟨hresult, hnext⟩ := f.executeStatement h
      (fun c hparse => hserved _ ⟨text, List.mem_cons_self, c, hparse, rfl⟩) (fun _ _ _ _ => trivial)
    obtain ⟨hresults, hloads⟩ := ih hnext fun table huse => hserved table (huse.mono (List.subset_cons_self _ _))
    refine ⟨?_, hloads⟩
    simp only [TableServer.executeAll, Tables.executeAll]
    rw [hresult, hresults]

end TableServer
