import Mathlib.Data.List.Forall2
import TableServer.Proofs.Execution.Turns
import TableServer.Proofs.Store.Contract

namespace TableServer

/-- Whether the save of an insert has been done. -/
def Task.isSaved (t : Task) : Bool :=
  match t.write with
  | .landed (.ok ()) => true
  | _ => false

/-- Whether an insert has not got its lock yet, and may still get it. -/
def Task.isWaiting (t : Task) : Bool :=
  match t.phase with
  | .idle => true
  | .queued => true
  | _ => false

/-- Whether an insert is between its load and the end of its save. -/
def Task.isWorking (t : Task) : Bool :=
  t.isInside || match t.write with
    | .pending _ => true
    | _ => false

/-- An insert that has come as far as it says. It may have been cancelled, and of the records that it has loaded is known
what `holds` of them. -/
inductive Task.Fits (holds : List Record → Prop) (cancelled : Prop) : Task → Prop
  | idle {a : Insertion} : Fits holds cancelled ⟨a, .idle, .unstarted⟩
  | queued {a : Insertion} : Fits holds cancelled ⟨a, .queued, .unstarted⟩
  | loading {a : Insertion} : Fits holds cancelled ⟨a, .loading, .unstarted⟩
  | failed {a : Insertion} {e : StoreFailure} : Fits holds cancelled ⟨a, .loaded (.error e), .unstarted⟩
  | loaded {a : Insertion} {records : List Record} (h : holds records) :
    Fits holds cancelled ⟨a, .loaded (.ok records), .unstarted⟩
  | saving {a : Insertion} {records : List Record} {r : Record} (h : holds records)
    (hr : a.record (nextId records) = .ok r) :
    Fits holds cancelled ⟨a, .saving r, .pending (records ++ [r])⟩
  | settling {a : Insertion} {records : List Record} {r : Record} (h : holds records)
    (hr : a.record (nextId records) = .ok r) (hc : cancelled) :
    Fits holds cancelled ⟨a, .settling, .pending (records ++ [r])⟩
  | landed {a : Insertion} {r : Record} {outcome : Except StoreFailure Unit} :
    Fits holds cancelled ⟨a, .saving r, .landed outcome⟩
  | settled {a : Insertion} {outcome : Except StoreFailure Unit} (hc : cancelled) :
    Fits holds cancelled ⟨a, .settling, .landed outcome⟩
  | withdrawn {a : Insertion} (hc : cancelled) :
    Fits holds cancelled ⟨a, .finished .cancelled, .unstarted⟩
  | abandoned {a : Insertion} {outcome : Except StoreFailure Unit} (hc : cancelled) :
    Fits holds cancelled ⟨a, .finished .cancelled, .landed outcome⟩
  | refused {a : Insertion} {message : String} :
    Fits holds cancelled ⟨a, .finished (.answered (.executionFailure message)), .unstarted⟩
  | answered {a : Insertion} {r : Record} {outcome : Except StoreFailure Unit} :
    Fits holds cancelled ⟨a, .finished (.answered (Inserts.saved r outcome)), .landed outcome⟩

/-- An insert that has stored a record, and tells so unless it is cancelled. Such a record stays: no later event of
the insert changes it. -/
structure Task.Stored (r : Record) (t : Task) : Prop where
  saved : t.write = .landed (.ok ())
  made : t.insertion.record r.id = .ok r
  told : t.phase = .saving r ∨ t.phase = .settling ∨ t.phase = .finished .cancelled ∨
    t.phase = .finished (.answered (.inserted r))

theorem StoreFailure.result_eq (e : StoreFailure) : ∃ message, e.result = .executionFailure message := by
  cases e with
  | reported e => exact ⟨_, rfl⟩
  | unexpected cause => exact ⟨_, rfl⟩

namespace Task.Fits

variable {holds holds' : List Record → Prop} {cancelled cancelled' : Prop} {t : Task}

/-- What a table holds matters to the insert inside only. -/
theorem change (h : t.Fits holds cancelled) (hholds : t.isInside = true → ∀ records, holds records → holds' records)
    (hc : cancelled → cancelled') : t.Fits holds' cancelled' := by
  cases h with
  | idle => exact .idle
  | queued => exact .queued
  | loading => exact .loading
  | failed => exact .failed
  | loaded h => exact .loaded (hholds rfl _ h)
  | saving h hr => exact .saving (hholds rfl _ h) hr
  | settling h hr c => exact .settling (hholds rfl _ h) hr (hc c)
  | landed => exact .landed
  | settled c => exact .settled (hc c)
  | withdrawn c => exact .withdrawn (hc c)
  | abandoned c => exact .abandoned (hc c)
  | refused => exact .refused
  | answered => exact .answered

theorem isInside_of_isWorking (h : t.Fits holds cancelled) (hw : t.isWorking = true) : t.isInside = true := by
  cases h <;> first | rfl | contradiction

/-- A save that is under way appends the record that it will have stored. -/
theorem pending {a : Insertion} {p : Phase} {records : List Record}
    (h : Task.Fits holds cancelled ⟨a, p, .pending records⟩) :
    ∃ before r, records = before ++ [r] ∧ holds before ∧ r.id = nextId before ∧
      Task.Stored r ⟨a, p, .landed (.ok ())⟩ := by
  cases h with
  | @saving _ before r h hr =>
    have hid := Insertion.record_id hr
    exact ⟨before, r, rfl, h, hid, rfl, hid.symm ▸ hr, .inl rfl⟩
  | @settling _ before r h hr =>
    have hid := Insertion.record_id hr
    exact ⟨before, r, rfl, h, hid, rfl, hid.symm ▸ hr, .inr (.inl rfl)⟩

/-- An insert that has ended and was not cancelled has told of what it stored. -/
theorem told (h : t.Fits holds cancelled) (hc : ¬ cancelled) {outcome : Outcome}
    (hend : t.outcome? = some outcome) :
    ∃ result, outcome = .answered result ∧ ((∃ r, result = .inserted r) ↔ t.isSaved = true) := by
  cases h with
  | withdrawn c => exact absurd c hc
  | abandoned c => exact absurd c hc
  | refused =>
    obtain rfl := Option.some.inj hend
    exact ⟨_, rfl, by simp [Task.isSaved]⟩
  | @answered _ r outcome =>
    obtain rfl := Option.some.inj hend
    refine ⟨_, rfl, ?_⟩
    cases outcome with
    | ok u => exact ⟨fun _ => rfl, fun _ => ⟨r, rfl⟩⟩
    | error e =>
      obtain ⟨message, he⟩ := e.result_eq
      simp [Inserts.saved, he, Task.isSaved]
  | _ => contradiction

end Task.Fits

namespace Inserts

variable {σ : Type} [TableStore σ] {m m' : Inserts σ} {e : Event} {t t' : Task} {held : List String}
  {queue : List Nat} {store : σ} {served : String → Prop} (c : Contract σ served)

/-- A load changes no table, whether it is refused or not. What it gives is what the table holds. -/
theorem load_refused {refusal : Option StoreFailure} {s s' : σ} {table : String}
    {outcome : Except StoreFailure (List Record)} (hs : c.Sound s) (hserved : served table)
    (h : refusedOr refusal (TableStore.load · table) s = (outcome, s')) :
    c.Sound s' ∧ (∀ other, served other → c.contents s' other = c.contents s other) ∧
      ∀ records, outcome = .ok records → c.contents s table = .ok records := by
  cases refusal with
  | some e =>
    obtain ⟨rfl, rfl⟩ := Prod.mk.inj h
    exact ⟨hs, fun _ _ => rfl, fun _ h => by contradiction⟩
  | none =>
    change TableStore.load s table = (outcome, s') at h
    obtain ⟨rfl, rfl⟩ : (TableStore.load s table).1 = outcome ∧ (TableStore.load s table).2 = s' := by
      rw [h]
      exact ⟨rfl, rfl⟩
    exact ⟨c.load_sound hs hserved, fun _ => c.load_keeps hs hserved, fun _ => c.loaded hs hserved⟩

theorem save_refused {refusal : Option StoreFailure} {s s' : σ} {table : String} {records : List Record}
    {outcome : Except StoreFailure Unit} (hs : c.Sound s) (hserved : served table)
    (h : refusedOr refusal (TableStore.save · table records) s = (outcome, s')) :
    c.Sound s' ∧ (outcome = .ok () → c.contents s' table = .ok records) ∧
      ∀ other, served other → (outcome = .ok () → other ≠ table) →
        c.contents s' other = c.contents s other := by
  cases refusal with
  | some e =>
    obtain ⟨rfl, rfl⟩ := Prod.mk.inj h
    exact ⟨hs, fun h => by contradiction, fun _ _ _ => rfl⟩
  | none =>
    change TableStore.save s table records = (outcome, s') at h
    obtain ⟨rfl, rfl⟩ : (TableStore.save s table records).1 = outcome ∧
        (TableStore.save s table records).2 = s' := by
      rw [h]
      exact ⟨rfl, rfl⟩
    exact ⟨c.save_sound hs hserved, c.saved hs hserved, fun _ => c.save_keeps hs hserved⟩

/-- What an event does to the tables: nothing, or a save is done. -/
inductive Effect (s : σ) (t t' : Task) (s' : σ) : Prop
  | quiet (hsaved : t'.isSaved = t.isSaved)
    (hkeeps : ∀ table, served table → c.contents s' table = c.contents s table)
  | stores (a : Insertion) (p : Phase) (records : List Record) (ht : t = ⟨a, p, .pending records⟩)
    (ht' : t' = ⟨a, p, .landed (.ok ())⟩) (hself : c.contents s' a.table = .ok records)
    (hkeeps : ∀ table, served table → table ≠ a.table → c.contents s' table = c.contents s table)

variable {c}

/-- Tables are changed by saves that are done, and by no other event. -/
theorem Moves.effect {holds : List Record → Prop} {cancelled : Prop} (h : Moves m e t t' held queue store)
    (hs : c.Sound m.store) (hserved : served t.table) (hfits : t.Fits holds cancelled) :
    c.Sound store ∧ Effect c m.store t t' store := by
  cases h with
  | build =>
    cases hfits
    exact ⟨hs, .quiet rfl (fun _ _ => rfl)⟩
  | load h =>
    obtain ⟨hs', hkeeps, _⟩ := load_refused c hs hserved h
    exact ⟨hs', .quiet rfl hkeeps⟩
  | @land _ a p records _ outcome _ h =>
    obtain ⟨hs', hself, hkeeps⟩ := save_refused c hs hserved h
    refine ⟨hs', ?_⟩
    cases outcome with
    | ok u => exact .stores a p records rfl rfl (hself rfl) (fun other ho hne => hkeeps other ho fun _ => hne)
    | error e => exact .quiet rfl (fun other ho => hkeeps other ho (fun h => by contradiction))
  | _ => exact ⟨hs, .quiet rfl (fun _ _ => rfl)⟩

theorem Moves.loaded {outcome : Except StoreFailure (List Record)} (h : Moves m e t t' held queue store)
    (ht : t.phase = .loading) (ht' : t'.phase = .loaded outcome) :
    ∃ refusal, refusedOr refusal (TableStore.load · t.table) m.store = (outcome, store) := by
  cases h with
  | load h =>
    obtain rfl := Phase.loaded.inj ht'
    exact ⟨_, h⟩
  | land => exact absurd (ht.symm.trans ht') nofun
  | _ => contradiction

/-- An insert still fits after its event, unless that cancels it a second time. -/
theorem Moves.fits {holds holds' : List Record → Prop} {cancelled cancelled' : Prop}
    (h : Moves m e t t' held queue store) (hfits : t.Fits holds cancelled)
    (hloaded : t.phase = .loading → ∀ records, t'.phase = .loaded (.ok records) → holds' records)
    (hkept : t'.isSaved = false → ∀ records, holds records → holds' records) (hc : cancelled → cancelled')
    (hcancel : e.cancelled?.isSome = true → ¬ cancelled ∧ cancelled') : t'.Fits holds' cancelled' := by
  cases h with
  | arrive =>
    cases hfits
    exact .queued
  | acquire =>
    cases hfits
    exact .loading
  | @load _ _ _ _ outcome =>
    cases hfits
    cases outcome with
    | error e => exact .failed
    | ok records => exact .loaded (hloaded rfl records rfl)
  | @fail _ _ _ e =>
    cases hfits
    obtain ⟨message, he⟩ := e.result_eq
    rw [he]
    exact .refused
  | reject =>
    cases hfits
    exact .refused
  | build hr =>
    cases hfits with
    | loaded h => exact .saving (hkept rfl _ h) hr
  | land h =>
    cases hfits with
    | saving => exact .landed
    | settling _ _ c => exact .settled (hc c)
  | resume =>
    cases hfits
    exact .answered
  | settle =>
    cases hfits with
    | settled c => exact .abandoned (hc c)
  | cancelIdle =>
    cases hfits
    exact .withdrawn (hcancel rfl).2
  | cancelQueued =>
    cases hfits
    exact .withdrawn (hcancel rfl).2
  | cancelLoading =>
    cases hfits
    exact .withdrawn (hcancel rfl).2
  | cancelLoaded =>
    cases hfits with
    | failed => exact .withdrawn (hcancel rfl).2
    | loaded => exact .withdrawn (hcancel rfl).2
  | cancelSaving =>
    cases hfits with
    | saving h hr => exact .settling (hkept rfl _ h) hr (hcancel rfl).2
    | landed => exact .settled (hcancel rfl).2
  | cancelSettling =>
    cases hfits with
    | settling _ _ c => exact absurd c (hcancel rfl).1
    | settled c => exact absurd c (hcancel rfl).1

theorem Moves.stored {r : Record} (h : Moves m e t t' held queue store) (hr : t.Stored r) : t'.Stored r := by
  obtain ⟨hsaved, hmade, htold⟩ := hr
  cases h with
  | land => contradiction
  | @resume _ _ r' _ =>
    obtain rfl := Write.landed.inj hsaved
    refine ⟨rfl, hmade, ?_⟩
    obtain h | h | h | h := htold
    · obtain rfl := Phase.saving.inj h
      exact .inr (.inr (.inr rfl))
    all_goals contradiction
  | settle => exact ⟨hsaved, hmade, .inr (.inr (.inl rfl))⟩
  | cancelSaving => exact ⟨hsaved, hmade, .inr (.inl rfl)⟩
  | cancelSettling => exact ⟨hsaved, hmade, .inr (.inr (.inl rfl))⟩
  | _ => simp at htold

/-- Whether an event gives its insert the lock. -/
inductive Turn (m : Inserts σ) (t t' : Task) : Event → Prop
  | none {e : Event} (he : e.acquirer? = none) (hwait : t'.isWaiting = true → t.isWaiting = true)
    (hin : t'.isInside = true → t.isInside = true) : Turn m t t' e
  | some {i : Nat} (hwait : t.isWaiting = true) (hwait' : t'.isWaiting = false)
    (hwrite : t'.write = t.write) (hfree : t.table ∉ m.held) : Turn m t t' (.acquire i)

/-- A lock is given by one event only, to an insert that has waited for it. -/
theorem Moves.turn (h : Moves m e t t' held queue store) : Turn m t t' e := by
  cases h with
  | acquire hfree => exact .some rfl rfl rfl hfree
  | arrive => exact .none rfl (fun _ => rfl) (fun h => h)
  | load => exact .none rfl (fun h => h) (fun _ => rfl)
  | build => exact .none rfl (fun h => h) (fun _ => rfl)
  | land => exact .none rfl (fun h => h) (fun h => h)
  | cancelSaving => exact .none rfl (fun h => h) (fun _ => rfl)
  | _ => exact .none rfl (fun h => by contradiction) (fun h => by contradiction)

end Inserts

end TableServer
