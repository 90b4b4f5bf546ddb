import Mathlib.Data.List.Induction
import TableServer.Connection.Serve
import TableServer.Proofs.Connection.AllOrNothing
import TableServer.Proofs.Connection.Framing
import TableServer.Proofs.Json.Limits
import TableServer.Proofs.Store.Lossless

namespace TableServer

theorem flatten_pieces (size : Nat) (bytes : Bytes) : (pieces size bytes).flatten = bytes := by
  fun_induction pieces size bytes with
  | case1 => rfl
  | case2 b rest ih => rw [List.flatten_cons, ih, List.cons_append, List.take_append_drop]

theorem length_of_mem_pieces {size : Nat} (hsize : 0 < size) {bytes piece : Bytes} (h : piece ∈ pieces size bytes) :
    0 < piece.length ∧ piece.length ≤ size := by
  fun_induction pieces size bytes with
  | case1 => contradiction
  | case2 b rest ih =>
    rcases List.mem_cons.mp h with rfl | hmore
    · rw [List.length_cons, List.length_take]
      omega
    · exact ih hmore

namespace Wire

open Json

/-- What has a line can be told. The line shows how long the ids are and that there is no lone surrogate. -/
theorem isTellable_of_encode {r : Result} {line : Bytes} (h : encode r = .ok line) : r.IsTellable := by
  cases r with
  | rows records =>
    obtain ⟨cs, hw, _⟩ := encode_eq_ok h
    have hshort := (Record.write_listToJson_isOk_iff .compact records).mp ⟨_, hw⟩
    have hfits := (isChars_write_iff hw).mp (Text.isChars_ofChars cs)
    have hchars := (Record.fits_listToJson Record.isChars_ofString 988 records).mp hfits
    exact fun record hrecord => ⟨hshort record hrecord, hchars record hrecord⟩
  | inserted record =>
    intro other hother
    obtain rfl := List.mem_singleton.mp hother
    exact (encode_inserted_isOk_iff other).mp ⟨line, h⟩
  | _ => exact fun record hrecord => absurd hrecord List.not_mem_nil

theorem exists_frames_of_encode {r : Result} {line : Bytes} (h : encode r = .ok line) :
    ∃ body, line = body ++ [10] ∧ Frames r body := by
  obtain ⟨body, hframes⟩ := exists_frames (isTellable_of_encode h)
  exact ⟨body, Except.ok.inj (h.symm.trans hframes.line), hframes⟩

/-- Rows with short ids that cannot be written have a lone surrogate. -/
theorem encode_rows_eq_error {records : List Record} (hshort : ∀ r ∈ records, r.IsShort) {fault : WireFault}
    (h : encode (.rows records) = .error fault) : fault = .unpairedSurrogate := by
  obtain ⟨w, hw⟩ := (Record.write_listToJson_isOk_iff .compact records).mpr hshort
  have hpayload : write .compact (Result.rows records).payload = .ok w := hw
  unfold encode at h
  rw [hpayload] at h
  dsimp only at h
  split at h
  · exact (Except.error.inj h).symm
  · contradiction

end Wire

section Rows

variable {σ : Type} [TableStore σ] {s : σ}

/-- The results of some chunks, each on the store that the one before it has left. -/
def resultsOf (s : σ) : List Bytes → List Result
  | [] => []
  | chunk :: rest => (handleChunk s chunk).1 :: resultsOf (handleChunk s chunk).2 rest

theorem afterChunks_append (s : σ) (chunks more : List Bytes) :
    afterChunks s (chunks ++ more) = afterChunks (afterChunks s chunks) more :=
  List.foldl_append

theorem resultsOf_append (s : σ) (chunks more : List Bytes) :
    resultsOf s (chunks ++ more) = resultsOf s chunks ++ resultsOf (afterChunks s chunks) more := by
  induction chunks generalizing s with
  | nil => rfl
  | cons chunk chunks ih => exact congrArg _ (ih _)

/-- The lines of results, one for each. -/
def Told (results : List Result) (lines : List Bytes) : Prop :=
  List.Forall₂ (fun r line => Wire.encode r = .ok line) results lines

theorem Told.isTellable {results : List Result} {lines : List Bytes} (h : Told results lines) :
    ∀ r ∈ results, r.IsTellable := by
  induction h with
  | nil => exact fun r hr => absurd hr List.not_mem_nil
  | cons hline _ ih => exact List.forall_mem_cons.mpr ⟨Wire.isTellable_of_encode hline, ih⟩

/-- How the pieces of an input are handled, and why no more of them are. -/
inductive Course (send : Option Nat) (s : σ) (chunks : List Bytes) : List Bytes → Served σ → Prop
  /-- The input ends, with every answer sent. -/
  | whole {lines : List Bytes} (htold : Told (resultsOf s chunks) lines)
    (hsend : ∀ n, send = some n → n = 0 ∨ chunks.length < n) :
    Course send s chunks chunks ⟨lines, afterChunks s chunks, .endOfInput⟩
  /-- The answer to the last of the handled pieces fails to be sent. -/
  | unsent {handled rest lines : List Bytes} (hchunks : chunks = handled ++ rest) (hsome : 0 < handled.length)
    (htold : Told (resultsOf s handled) lines) (hsend : send = some handled.length) :
    Course send s chunks handled ⟨lines, afterChunks s handled, .sendFailed⟩
  /-- The answer to the last of the handled pieces cannot be written. -/
  | unwritable {told rest lines : List Bytes} {piece : Bytes} {fault : WireFault}
    (hchunks : chunks = told ++ piece :: rest) (htold : Told (resultsOf s told) lines)
    (hsend : ∀ n, send = some n → n = 0 ∨ told.length < n)
    (hfault : Wire.encode (handleChunk (afterChunks s told) piece).1 = .error fault) :
    Course send s chunks (told ++ [piece]) ⟨lines, afterChunks s (told ++ [piece]), .unwritable fault⟩

variable {send : Option Nat} {chunks : List Bytes}

/-- Pieces whose answers are sent are passed over. -/
theorem serve_append {answered : Nat} {told rest lines : List Bytes} (htold : Told (resultsOf s told) lines)
    (hsend : ∀ n, send = some n → n ≤ answered ∨ answered + told.length < n) :
    serve send answered s (told ++ rest) =
      { serve send (answered + told.length) (afterChunks s told) rest with
        lines := lines ++ (serve send (answered + told.length) (afterChunks s told) rest).lines } := by
  induction told generalizing s answered lines with
  | nil =>
    cases htold
    rfl
  | cons piece told ih =>
    rw [resultsOf] at htold
    cases htold with
    | @cons _ line _ lines hline hmore =>
      have hnext : send ≠ some (answered + 1) := by
        intro heq
        rw [List.length_cons] at hsend
        have hcases := hsend _ heq
        omega
      have hsend' : ∀ n, send = some n → n ≤ answered + 1 ∨ answered + 1 + told.length < n := by
        intro n hn
        have hother : n ≠ answered + 1 := fun heq => hnext (heq ▸ hn)
        have hcases := hsend n hn
        rw [List.length_cons] at hcases
        omega
      have hlength : answered + 1 + told.length = answered + (piece :: told).length := by
        rw [List.length_cons]
        omega
      have hrest := ih hmore hsend'
      rw [hlength] at hrest
      rw [List.cons_append, serve]
      simp only [hline, hnext, ↓reduceIte, hrest, List.cons_append]
      rfl

/-- A piece after which no more are handled: its answer cannot be written, or it fails to be sent. -/
inductive Stops (send : Option Nat) (answered : Nat) (r : Result) : Prop
  | unsent {line : Bytes} (hline : Wire.encode r = .ok line) (hsend : send = some (answered + 1)) :
    Stops send answered r
  | unwritable {fault : WireFault} (hfault : Wire.encode r = .error fault) : Stops send answered r

/-- All pieces have their answers sent, or there is a first one after which no more are handled. -/
theorem exists_stop (send : Option Nat) (s : σ) (chunks : List Bytes) :
    (∃ lines, Told (resultsOf s chunks) lines ∧ ∀ n, send = some n → n = 0 ∨ chunks.length < n) ∨
    ∃ told piece rest lines, chunks = told ++ piece :: rest ∧ Told (resultsOf s told) lines ∧
      (∀ n, send = some n → n = 0 ∨ told.length < n) ∧
      Stops send told.length (handleChunk (afterChunks s told) piece).1 := by
  induction chunks using List.reverseRecOn with
  | nil =>
    refine .inl ⟨[], .nil, fun n _ => ?_⟩
    rw [List.length_nil]
    omega
  | append_singleton chunks chunk ih =>
    rcases ih with ⟨lines, htold, hsend⟩ | ⟨told, piece, rest, lines, rfl, htold, hsend, hstops⟩
    · cases hline : Wire.encode (handleChunk (afterChunks s chunks) chunk).1 with
      | error fault => exact .inr ⟨chunks, chunk, [], lines, rfl, htold, hsend, .unwritable hline⟩
      | ok line =>
        by_cases hlast : send = some (chunks.length + 1)
        · exact .inr ⟨chunks, chunk, [], lines, rfl, htold, hsend, .unsent hline hlast⟩
        · refine .inl ⟨lines ++ [line], ?_, fun n hn => ?_⟩
          · rw [resultsOf_append]
            exact List.rel_append htold (.cons hline .nil)
          · have hother : n ≠ chunks.length + 1 := fun heq => hlast (heq ▸ hn)
            have hcases := hsend n hn
            rw [List.length_append, List.length_singleton]
            omega
    · exact .inr ⟨told, piece, rest ++ [chunk], lines, by simp, htold, hsend, hstops⟩

/-- Every input takes a course: the pieces up to the first one that stops it, or all of them. -/
theorem exists_course (send : Option Nat) (s : σ) (chunks : List Bytes) :
    ∃ handled, Course send s chunks handled (serve send 0 s chunks) := by
  rcases exists_stop send s chunks with
    ⟨lines, htold, hsend⟩ | ⟨told, piece, rest, lines, rfl, htold, hsend, hstops⟩
  · have hserve : serve send 0 s (chunks ++ []) = _ := serve_append htold (by simpa using hsend)
    simp only [serve, List.append_nil] at hserve
    rw [hserve]
    exact ⟨chunks, .whole htold hsend⟩
  · have hserve : serve send 0 s (told ++ piece :: rest) = _ := serve_append htold (by simpa using hsend)
    have hafter : afterChunks s (told ++ [piece]) = (handleChunk (afterChunks s told) piece).2 :=
      afterChunks_append s told [piece]
    rw [Nat.zero_add, serve] at hserve
    cases hstops with
    | @unsent line hline hlast =>
      simp only [hline, hlast, ↓reduceIte, ← hafter] at hserve
      have hlength : (told ++ [piece]).length = told.length + 1 := by simp
      have htold' : Told (resultsOf s (told ++ [piece])) (lines ++ [line]) := by
        rw [resultsOf_append]
        exact List.rel_append htold (.cons hline .nil)
      rw [hlast, hserve]
      exact ⟨told ++ [piece], .unsent (List.append_cons told piece rest) (by omega) htold' (by rw [hlength])⟩
    | unwritable hfault =>
      simp only [hfault, List.append_nil, ← hafter] at hserve
      rw [hserve]
      exact ⟨told ++ [piece], .unwritable rfl htold hsend hfault⟩

namespace Course

variable {handled : List Bytes} {served : Served σ}

theorem handled_front (h : Course send s chunks handled served) : handled <+: chunks := by
  cases h with
  | whole => exact List.prefix_rfl
  | unsent hchunks => exact ⟨_, hchunks.symm⟩
  | unwritable hchunks => exact ⟨_, by rw [hchunks, List.append_assoc]; rfl⟩

/-- A connection ends without a failure exactly if all its answers can be written. -/
theorem ends_iff (h : Course send s chunks handled served) :
    (∀ fault, served.ending ≠ .unwritable fault) ↔ ∀ r ∈ resultsOf s handled, r.IsTellable := by
  cases h with
  | whole htold => exact ⟨fun _ => htold.isTellable, fun _ _ => Ending.noConfusion⟩
  | unsent _ _ htold => exact ⟨fun _ => htold.isTellable, fun _ _ => Ending.noConfusion⟩
  | @unwritable told _ _ piece fault _ _ _ hfault =>
    constructor
    · intro hnever
      exact absurd rfl (hnever fault)
    · intro htellable
      have hlast : (handleChunk (afterChunks s told) piece).1 ∈ resultsOf s (told ++ [piece]) := by
        rw [resultsOf_append]
        exact List.mem_append_right _ List.mem_cons_self
      obtain ⟨line, hline⟩ := Wire.encode_isOk_of_isTellable (htellable _ hlast)
      rw [hfault] at hline
      contradiction

/-- The piece that such a failure comes from. -/
theorem of_unwritable (h : Course send s chunks handled served) {fault : WireFault}
    (hending : served.ending = .unwritable fault) : ∃ told piece, handled = told ++ [piece] ∧
      Wire.encode (handleChunk (afterChunks s told) piece).1 = .error fault := by
  cases h with
  | unwritable _ _ _ hfault =>
    obtain rfl := Ending.unwritable.inj hending
    exact ⟨_, _, rfl, hfault⟩
  | _ => contradiction

end Course

end Rows

theorem StoreFailure.result_ne_rows (e : StoreFailure) (records : List Record) : e.result ≠ .rows records := by
  cases e <;> exact nofun

/-- Rows come from a load. -/
theorem rows_of_handleChunk {σ : Type} [TableStore σ] {s : σ} {chunk : Bytes} {records : List Record}
    (h : (handleChunk s chunk).1 = .rows records) : ∃ table loaded, (TableStore.load s table).1 = .ok loaded ∧
      ∀ r ∈ records, r ∈ loaded := by
  cases hcommand : Wire.command chunk with
  | error result =>
    obtain ⟨message, rfl⟩ := Wire.command_eq_error hcommand
    rw [handleChunk_of_no_command s hcommand] at h
    contradiction
  | ok c =>
    rw [handleChunk_of_command s hcommand] at h
    cases c with
    | selectAll table =>
      rw [execute, selectAll] at h
      rcases hload : TableStore.load s table with ⟨e | loaded, after⟩
      · rw [hload] at h
        exact absurd h (e.result_ne_rows records)
      · simp only [hload, Result.rows.injEq] at h
        exact ⟨table, loaded, by rw [hload], fun r hr => h ▸ hr⟩
    | selectById table id =>
      rw [execute, selectById] at h
      rcases hload : TableStore.load s table with ⟨e | loaded, after⟩
      · rw [hload] at h
        exact absurd h (e.result_ne_rows records)
      · simp only [hload] at h
        cases hfind : loaded.find? fun r => (r.id : Int) = id with
        | none => simp [hfind] at h
        | some found =>
          simp only [hfind, Result.rows.injEq] at h
          refine ⟨table, loaded, by rw [hload], fun r hr => ?_⟩
          rw [← h] at hr
          obtain rfl := List.mem_singleton.mp hr
          exact List.mem_of_find?_eq_some hfind
    | insert a =>
      rw [execute] at h
      unfold insert at h
      exfalso
      split at h
      · exact StoreFailure.result_ne_rows _ _ h
      · split at h
        · contradiction
        · split at h
          · contradiction
          · exact StoreFailure.result_ne_rows _ _ h

theorem FileStore.isShort_read {s : FileStore} {table : String} {records : List Record}
    (h : s.read table = .ok records) : ∀ r ∈ records, r.IsShort := by
  obtain ⟨p, _, h⟩ := bind_ok.mp h
  split at h
  · contradiction
  · unfold FileStore.records at h
    split at h
    · obtain rfl := Except.ok.inj h
      exact fun r hr => absurd hr List.not_mem_nil
    · contradiction
    · next content _ =>
      cases hdecode : TableFile.decode content with
      | ok records' =>
        simp only [hdecode, Except.ok.injEq] at h
        exact h ▸ TableFile.isShort_decode hdecode
      | error fault => cases fault <;> simp [hdecode] at h

namespace Store

/-- Whether all ids in memory are short. In files they are wherever they can be read. -/
def Short : Store → Prop
  | memory s => ∀ table, ∀ r ∈ MemoryStore.recordsOf s.tables table, r.IsShort
  | files _ => True

/-- A memory without lone surrogates. -/
def IsPlainMemory : Store → Prop
  | memory s => ∀ table, ∀ r ∈ MemoryStore.recordsOf s.tables table, r.IsChars
  | files _ => False

variable {s after : Store} {table : String} {loaded : List Record} {chunk : Bytes} {result : Result}

theorem recordsOf_of_load {m : MemoryStore} (h : (TableStore.load (memory m) table).1 = .ok loaded) :
    MemoryStore.recordsOf m.tables table = loaded :=
  Except.ok.inj ((contract fun _ => True).loaded (s := memory m) trivial trivial h)

theorem Short.load (hs : s.Short) (h : (TableStore.load s table).1 = .ok loaded) : ∀ r ∈ loaded, r.IsShort := by
  cases s with
  | memory m =>
    obtain rfl := recordsOf_of_load h
    exact hs table
  | files s => exact FileStore.isShort_read h

theorem Saved.short (h : Saved table loaded s after) (hafter : after.Short) : ∀ r ∈ loaded, r.IsShort := by
  cases h with
  | @memory m m' hload =>
    obtain rfl := recordsOf_of_load (m := m') hload
    exact hafter table
  | files _ hencode =>
    intro r hr
    exact ((TableFile.encode_isOk_iff loaded).mp ⟨_, hencode⟩ r hr).1

end Store

/-- A record is told of only where it has been made for the chunk and saved. -/
theorem ChunkOutcome.of_inserted {s after : Store} {chunk : Bytes} {result : Result} {r : Record}
    (h : ChunkOutcome s chunk result after) (hresult : result = .inserted r) :
    ∃ (a : Insertion) (loaded : List Record), a.record (nextId loaded) = .ok r ∧ Store.Saved a.table (loaded ++ [r]) s after := by
  cases h with
  | unchanged hnot => exact absurd hresult (hnot r)
  | unsaved _ _ => exact absurd hresult (StoreFailure.result_ne_inserted _ r)
  | inserted hreaches hafter =>
    obtain rfl := Result.inserted.inj hresult
    exact ⟨_, _, hreaches.record, hafter⟩

/-- A result that cannot be told is of rows with a lone surrogate in them. -/
theorem Store.handleChunk_told {s : Store} {chunk : Bytes} (hs : s.Short) (hafter : (handleChunk s chunk).2.Short) :
    (handleChunk s chunk).1.IsTellable ∨ ∃ records, (handleChunk s chunk).1 = .rows records ∧
      (∀ r ∈ records, r.IsShort) ∧ ∃ r ∈ records, ¬ r.IsChars := by
  cases hresult : (handleChunk s chunk).1 with
  | rows records =>
    obtain ⟨table, loaded, hload, hrows⟩ := rows_of_handleChunk hresult
    have hshort : ∀ r ∈ records, r.IsShort := fun r hr => hs.load hload r (hrows r hr)
    by_cases hchars : ∀ r ∈ records, r.IsChars
    · exact .inl fun r hr => ⟨hshort r hr, hchars r hr⟩
    · push Not at hchars
      exact .inr ⟨records, rfl, hshort, hchars⟩
  | inserted r =>
    obtain ⟨a, loaded, hrecord, hsaved⟩ := (outcome_of_handleChunk s chunk).of_inserted hresult
    refine .inl fun other hother => ?_
    obtain rfl := List.mem_singleton.mp hother
    have hmem : other ∈ loaded ++ [other] := List.mem_append_right _ List.mem_cons_self
    exact ⟨hsaved.short hafter other hmem, Insertion.record_isChars hrecord⟩
  | _ => exact .inl fun r hr => absurd hr List.not_mem_nil

theorem ChunkOutcome.of_files {s : FileStore} {after : Store} {chunk : Bytes} {result : Result}
    (h : ChunkOutcome (.files s) chunk result after) : ∃ s', after = .files s' := by
  cases h with
  | unchanged _ hsame =>
    cases hsame
    exact ⟨s, rfl⟩
  | unsaved _ hunsaved => cases hunsaved <;> exact ⟨_, rfl⟩
  | inserted _ hsaved =>
    cases hsaved
    exact ⟨_, rfl⟩

/-- No statement brings a lone surrogate into memory, for its text is UTF-8. -/
theorem ChunkOutcome.isPlainMemory {s after : Store} {chunk : Bytes} {result : Result}
    (h : ChunkOutcome s chunk result after) (hs : s.IsPlainMemory) : after.IsPlainMemory := by
  cases h with
  | unchanged _ hsame =>
    cases hsame with
    | memory htables => exact fun table => htables ▸ hs table
    | files => exact hs
  | unsaved _ hunsaved =>
    cases hunsaved with
    | memory _ htables => exact fun table => htables ▸ hs table
    | refused => exact hs
    | stranded => exact hs
  | @inserted a loaded r _ hreaches hsaved =>
    cases hsaved with
    | files => exact hs
    | @memory m m' hload hothers =>
      intro table other hother
      by_cases htable : table = a.table
      · subst htable
        rw [Store.recordsOf_of_load (m := m') hload] at hother
        rcases List.mem_append.mp hother with hold | hnew
        · exact hs a.table other (Store.recordsOf_of_load hreaches.loads ▸ hold)
        · exact List.mem_singleton.mp hnew ▸ Insertion.record_isChars hreaches.record
      · rw [hothers table htable] at hother
        exact hs table other hother

namespace Store

variable {s : Store} {told : List Bytes}

/-- Files stay files. -/
theorem afterChunks_files (s : FileStore) (told : List Bytes) : ∃ s', afterChunks (files s) told = files s' := by
  induction told generalizing s with
  | nil => exact ⟨s, rfl⟩
  | cons chunk told ih =>
    obtain ⟨s', hs'⟩ := (outcome_of_handleChunk (files s) chunk).of_files
    obtain ⟨s'', hs''⟩ := ih s'
    exact ⟨s'', by rw [← hs'', ← hs']; rfl⟩

theorem IsPlainMemory.afterChunks (hs : s.IsPlainMemory) (told : List Bytes) :
    (afterChunks s told).IsPlainMemory := by
  induction told generalizing s with
  | nil => exact hs
  | cons chunk told ih => exact ih ((outcome_of_handleChunk s chunk).isPlainMemory hs)

/-- Without lone surrogates in memory every result can be told. -/
theorem IsPlainMemory.tells (hs : s.IsPlainMemory) {chunk : Bytes} {records : List Record}
    (h : (handleChunk s chunk).1 = .rows records) : ∀ r ∈ records, r.IsChars := by
  obtain ⟨table, loaded, hload, hrows⟩ := rows_of_handleChunk h
  cases s with
  | memory m =>
    intro r hr
    apply hs table
    rw [recordsOf_of_load hload]
    exact hrows r hr
  | files s => exact hs.elim

end Store

/-- What a connection does with its input, and how it ends. -/
structure Serving (l : Listener Store) (faults : ConnectionFaults) (size : Nat) (writes handled : List Bytes)
    (report : ConnectionReport) (after : Listener Store) : Prop where
  /-- Pieces lose nothing of a write, and none of them is empty or larger than what is read at once. -/
  cut : ∀ write ∈ writes, (pieces size write).flatten = write ∧
    ∀ piece ∈ pieces size write, 0 < piece.length ∧ piece.length ≤ size
  /-- Pieces are handled in order and each once, with one line for each, until an answer is not sent or the input
  ends. -/
  course : Course faults.send l.store (writes.flatMap (pieces size)) handled
    ⟨report.lines, after.store, report.ending⟩
  early : report.early = true ↔ report.ending ≠ .endOfInput
  /-- In any case the connection is closed, and counted no more. -/
  closed : report.closed = true
  counted : report.openAtStart = l.connections + 1 ∧ after.connections = l.connections
  /-- It ends without a failure exactly if all results can be told; -/
  ends : (∀ fault, report.ending ≠ .unwritable fault) ↔ ∀ r ∈ resultsOf l.store handled, r.IsTellable
  /-- a failure comes from a lone surrogate in the rows that were asked for last, -/
  cause : ∀ fault, report.ending = .unwritable fault → fault = .unpairedSurrogate ∧ ∃ told piece records,
    handled = told ++ [piece] ∧ (handleChunk (afterChunks l.store told) piece).1 = .rows records ∧
      ∃ r ∈ records, ¬ r.IsChars
  /-- which memory does not have of itself. -/
  memory : l.store.IsPlainMemory → ∀ fault, report.ending ≠ .unwritable fault

/-- Every connection handles its input as it should: the bytes that come in are cut into pieces, and these are handled
one after another, each on the store that the one before has left. Where no lone surrogate is asked for, a connection
ends without a failure. Ids in memory have to be short, for longer ones cannot be told. -/
theorem serveConnection_serving (l : Listener Store) (faults : ConnectionFaults) {size : Nat} (hsize : 0 < size)
    (writes : List Bytes) (hshort : ∀ m, l.store = .memory m → ∀ told, told <+: writes.flatMap (pieces size) →
      (afterChunks l.store told).Short) :
    ∃ handled, Serving l faults size writes handled (l.serveConnection faults (.upTo size) writes).1
      (l.serveConnection faults (.upTo size) writes).2 := by
  have hinput : writes.flatMap (ReadSize.upTo size).piecesOf ++ (ReadSize.upTo size).rest writes =
      writes.flatMap (pieces size) := List.append_nil _
  have hshort' : ∀ told, told <+: writes.flatMap (pieces size) → (afterChunks l.store told).Short := by
    cases hstore : l.store with
    | memory m =>
      rw [← hstore]
      exact hshort m hstore
    | files s =>
      intro told _
      obtain ⟨s', hs'⟩ := Store.afterChunks_files s told
      rw [hs']
      trivial
  obtain ⟨handled, hcourse⟩ := exists_course faults.send l.store (writes.flatMap (pieces size))
  have hcause : ∀ fault, (serve faults.send 0 l.store (writes.flatMap (pieces size))).ending = .unwritable fault →
      fault = .unpairedSurrogate ∧ ∃ told piece records, handled = told ++ [piece] ∧
        (handleChunk (afterChunks l.store told) piece).1 = .rows records ∧ ∃ r ∈ records, ¬ r.IsChars := by
    intro fault hending
    obtain ⟨told, piece, rfl, hfault⟩ := hcourse.of_unwritable hending
    have hfront := hcourse.handled_front
    have hbefore := hshort' told ((List.prefix_append told [piece]).trans hfront)
    have hafter := hshort' (told ++ [piece]) hfront
    rw [afterChunks_append] at hafter
    rcases Store.handleChunk_told hbefore hafter with htellable | ⟨records, hrows, hids, hlone⟩
    · obtain ⟨line, hline⟩ := Wire.encode_isOk_of_isTellable htellable
      rw [hfault] at hline
      contradiction
    · rw [hrows] at hfault
      exact ⟨Wire.encode_rows_eq_error hids hfault, told, piece, records, rfl, hrows, hlone⟩
  refine ⟨handled, ?_⟩
  unfold Listener.serveConnection
  rw [hinput]
  refine ⟨?_, hcourse, ?_, ?_, ⟨rfl, rfl⟩, hcourse.ends_iff, hcause, ?_⟩
  · intro write _
    exact ⟨flatten_pieces size write, fun piece hpiece => length_of_mem_pieces hsize hpiece⟩
  · simp [endsEarly]
  · cases hclose : faults.close <;> simp [closeConnection, hclose]
  · intro hplain fault hending
    obtain ⟨_, told, piece, records, _, hrows, r, hr, hlone⟩ := hcause fault hending
    exact hlone ((hplain.afterChunks told).tells hrows r hr)

/-- A server over a directory that is not there yet, with two connections. -/
def overNothing : Listener Store := ⟨.files ⟨.ofString "data", FileStore.usualPattern, false, .empty⟩, 2⟩

/-- A server over a table whose file spells half of a surrogate pair. -/
def overHalf : Listener Store := ⟨.files ⟨.ofString "data", FileStore.usualPattern, false, ⟨[
  (["data"], .directory), (["data", "t.json"], .file (Utf8.encode "[\x7b\"id\": 1, \"name\": \"\\ud83d\"\x7d]".toList))]⟩⟩, 0⟩

/-- Two statements of which the second is not handled, for the answer to the first is not sent. -/
theorem serveConnection_serving_unsent : 0 < 65536 ∧
    (∀ m, overNothing.store = .memory m → ∀ told, told <+: [[0x3b], [0x3b]].flatMap (pieces 65536) →
      (afterChunks overNothing.store told).Short) ∧
    ∃ handled, Serving overNothing ⟨some 1, true⟩ 65536 [[0x3b], [0x3b]] handled
      (overNothing.serveConnection ⟨some 1, true⟩ (.upTo 65536) [[0x3b], [0x3b]]).1
      (overNothing.serveConnection ⟨some 1, true⟩ (.upTo 65536) [[0x3b], [0x3b]]).2 := by
  have hshort : ∀ m, overNothing.store = .memory m →
      ∀ told, told <+: [[0x3b], [0x3b]].flatMap (pieces 65536) → (afterChunks overNothing.store told).Short :=
    fun m h => Store.noConfusion h
  exact ⟨by decide, hshort, serveConnection_serving overNothing _ (by decide) _ hshort⟩

/-- The table is asked for, and the connection ends without a line; the next statement is not handled. -/
theorem serveConnection_half : ∃ report after, overHalf.serveConnection ⟨none, false⟩ (.upTo 65536)
      [Utf8.encode "SELECT * FROM t".toList, Utf8.encode "SELECT * FROM u".toList] = (report, after) ∧
    report.lines = [] ∧ report.ending = .unwritable .unpairedSurrogate ∧ report.early = true := by
  refine ⟨_, _, rfl, ?_, ?_, ?_⟩
  · decide +kernel
  · decide +kernel
  · decide +kernel

end TableServer
