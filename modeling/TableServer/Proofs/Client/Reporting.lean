import TableServer.Proofs.Client.HangUp

namespace TableServer.Query

open Json

/-- The line of an answer, without its end. -/
structure Line (answer : Value) (body : List Char) : Prop where
  printed : (printed answer).toList = body ++ ['\n']
  plain : ∀ c ∈ body, IsPlain (.scalar c)
  /-- The answer is read from the line, with its end or without. -/
  read : Json.read body = .ok answer ∧ Json.read (body ++ ['\n']) = .ok answer

/-- Every answer that was written is printed on one line: all that could end one is escaped. -/
theorem exists_line {r : Result} {line : Bytes} (h : Wire.encode r = .ok line) : ∃ body, Line r.payload body := by
  obtain ⟨cs, hcompact, _⟩ := Wire.encode_eq_ok h
  have hfits := (Wire.isChars_write_iff hcompact).mp (Text.isChars_ofChars cs)
  obtain ⟨w, hw⟩ := Result.write_isOk_of_isTellable .terminal (Wire.isTellable_of_encode h)
  obtain ⟨body, rfl, hread⟩ := read_write Layout.spaced_terminal hfits hw
  refine ⟨body, ?_, forall_mem_ofChars.mp (Layout.admits_terminal.writeAt r.fits_payload hw), ?_, ?_⟩
  · rw [printed, hw, String.toList_ofList, Text.ofChars, List.filterMap_map]
    congr 1
    exact List.filterMap_some
  · simpa using hread [] (by simp [Blanks])
  · exact hread ['\n'] (by simp [Blanks, isJsonBlank])

/-- What ends lines: a newline, and none of the characters that are plain. -/
structure IsLineEnd (ends : Char → Bool) : Prop where
  newline : ends '\n' = true
  plain : ∀ c, IsPlain (.scalar c) → ends c = false

/-- What lines in a row are printed as comes apart into them. -/
theorem splitOnP_lines {ends : Char → Bool} (hends : IsLineEnd ends) {answers : List Value} {bodies : List (List Char)}
    (h : List.Forall₂ Line answers bodies) : (bodies.flatMap (· ++ ['\n'])).splitOnP ends = bodies ++ [[]] := by
  induction h with
  | nil => exact List.splitOnP_nil
  | @cons _ body _ bodies hline _ ih =>
    have hsingle : body.splitOnP ends = [body] :=
      List.splitOnP_eq_singleton fun c hc => hends.plain c (hline.plain c hc)
    rw [List.flatMap_cons, List.append_assoc, List.singleton_append, List.splitOnP_append_cons _ _ hends.newline, hsingle,
      ih]
    rfl

theorem toList_join_printed {answers : List Value} {bodies : List (List Char)} (h : List.Forall₂ Line answers bodies) :
    (String.join (answers.map printed)).toList = bodies.flatMap (· ++ ['\n']) := by
  rw [String.toList_join, List.flatMap_map]
  induction h with
  | nil => rfl
  | cons hline _ ih => rw [List.flatMap_cons, List.flatMap_cons, hline.printed, ih]

variable {σ ω χ : Type} [TableStore σ] {ask : String → StateM ω (Except ClientFault Value)} {server : ω → σ} {v w : ω}
  {texts : List String} {results : List Result}

/-- Every call returns what its statement is answered with. The server's store is part of what calls change. -/
inductive Answers (ask : String → StateM ω (Except ClientFault Value)) (server : ω → σ) :
    ω → List String → List Result → ω → Prop
  | nil (w : ω) : Answers ask server w [] [] w
  | cons {u v w : ω} {text : String} {r : Result} {line : Bytes} {texts : List String} {results : List Result}
    (hresult : executeStatement (server u) text = (r, server v)) (hline : Wire.encode r = .ok line)
    (hcall : (ask text).run u = (.ok r.payload, v)) (hmore : Answers ask server v texts results w) :
    Answers ask server u (text :: texts) (r :: results) w

theorem Answers.length_eq (h : Answers ask server v texts results w) : results.length = texts.length := by
  induction h with
  | nil => rfl
  | cons _ _ _ _ ih => simp [ih]

theorem Answers.executeAll (h : Answers ask server v texts results w) :
    executeAll (server v) texts = (results, server w) := by
  induction h with
  | nil => rfl
  | cons hresult _ _ _ ih => simp only [TableServer.executeAll, hresult, ih]

theorem Answers.exists_lines (h : Answers ask server v texts results w) :
    ∃ bodies, List.Forall₂ Line (results.map Result.payload) bodies := by
  induction h with
  | nil => exact ⟨[], .nil⟩
  | cons _ hline _ _ ih =>
    obtain ⟨body, hbody⟩ := exists_line hline
    obtain ⟨bodies, hbodies⟩ := ih
    exact ⟨body :: bodies, .cons hbody hbodies⟩

/-- The report of answers alone. -/
def reportOf (results : List Result) : Report :=
  ⟨results.map fun r => printed r.payload, results.countP Result.isError, none⟩

theorem reportOf_cons (r : Result) (results : List Result) : reportOf (r :: results) = (reportOf results).add r.payload := by
  simp only [reportOf, Report.add, List.map_cons, List.countP_cons, Result.isErrorAnswer_payload]
  cases r.isError <;> rfl

/-- A run reports the answers and counts the errors among them. -/
theorem Answers.run (h : Answers ask server v texts results w) : (run ask texts).run v = (reportOf results, w) := by
  induction h with
  | nil => rfl
  | cons _ _ hcall _ ih => rw [run_answered hcall, ih, reportOf_cons]

/-- Calls that are written down in their order. -/
def logged (ask : String → StateM ω (Except ClientFault Value)) (text : String) :
    StateM (ω × List String) (Except ClientFault Value) := fun (w, log) =>
  (((ask text).run w).1, ((ask text).run w).2, log ++ [text])

theorem Answers.logged (h : Answers ask server v texts results w) (log : List String) :
    Answers (logged ask) (server ·.1) (v, log) texts results (w, log ++ texts) := by
  induction h generalizing log with
  | nil w =>
    rw [List.append_nil]
    exact .nil (w, log)
  | @cons u v w text r line texts results hresult hline hcall _ ih =>
    have hmore := ih (log ++ [text])
    rw [List.append_assoc, List.singleton_append] at hmore
    refine .cons (v := (v, log ++ [text])) hresult hline ?_ hmore
    change (((ask text).run u).1, ((ask text).run u).2, log ++ [text]) = _
    rw [hcall]

/-- What a program does that has statements answered. -/
structure Reports (ask : χ → String → StateM ω (Except ClientFault Value)) (client : χ) (server : ω → σ) (v : ω)
    (texts : List String) (results : List Result) (w : ω) (out : String) : Prop where
  /-- Statements are executed one after another, each once. -/
  executed : executeAll (server v) texts = (results, server w)
  ran : (run (logged (ask client)) texts).run (v, []) =
    (⟨results.map fun r => printed r.payload, results.countP Result.isError, none⟩, w, texts)
  /-- There is a line for each, wherever lines are taken to end. -/
  lines : ∃ bodies, List.Forall₂ Line (results.map Result.payload) bodies ∧ bodies.length = texts.length ∧
    out.toList = bodies.flatMap (· ++ ['\n']) ∧
    ∀ ends, IsLineEnd ends → out.toList.splitOnP ends = bodies ++ [[]]
  exits : (session (fun client => logged (ask client)) (.ok client) texts).run (v, []) =
    (.ok ⟨if 0 < results.countP Result.isError then 1 else 0, out, ""⟩, w, texts)
  /-- At a connection that breaks, no more is printed or sent. -/
  breaks : ∀ text fault after u, (ask client text).run w = (.error fault, u) → fault.ofConnection = true →
    (run (logged (ask client)) (texts ++ text :: after)).run (v, []) =
      (⟨results.map fun r => printed r.payload, results.countP Result.isError, some fault⟩, u, texts ++ [text]) ∧
    (session (fun client => logged (ask client)) (.ok client) (texts ++ text :: after)).run (v, []) =
      (.ok ⟨2, out, "Connection error: " ++ fault.message ++ "\n"⟩, u, texts ++ [text])

theorem session_run {ask : χ → String → StateM ω (Except ClientFault Value)} {client : χ} {report : Report}
    (h : (run (ask client) texts).run v = (report, w)) :
    (session ask (.ok client) texts).run v = (report.exit, w) := by
  rw [session, StateT.run_bind, h]
  rfl

theorem exit_reportOf (results : List Result) : (reportOf results).exit =
    .ok ⟨if 0 < results.countP Result.isError then 1 else 0, String.join (results.map fun r => printed r.payload), ""⟩ := by
  rw [Report.exit, reportOf]
  cases results.countP Result.isError <;> rfl

/-- A program reports what its statements are answered with: a line for each, wherever lines are taken to end, an exit
code that counts the errors, and at a connection that breaks the lines of those answered until then. -/
theorem reports_of_answers {ask : χ → String → StateM ω (Except ClientFault Value)} {client : χ}
    (h : Answers (ask client) server v texts results w) :
    Reports ask client server v texts results w (String.join (results.map fun r => printed r.payload)) := by
  -- Calls that are written down answer as they do otherwise, so that one run tells the report and the calls.
  let sends := fun client => logged (ask client)
  have hrun : (run (sends client) texts).run (v, []) = (reportOf results, w, texts) := (h.logged []).run
  refine ⟨h.executeAll, hrun, ?_, ?_, fun text fault after u hcall hconnection => ?_⟩
  · obtain ⟨bodies, hlines⟩ := h.exists_lines
    have hout := toList_join_printed hlines
    rw [List.map_map] at hout
    refine ⟨bodies, hlines, ?_, hout, fun ends hends => ?_⟩
    · rw [← hlines.length_eq, List.length_map, h.length_eq]
    · exact (congrArg (List.splitOnP ends) hout).trans (splitOnP_lines hends hlines)
  · have hsession : (session sends (.ok client) texts).run (v, []) = ((reportOf results).exit, w, texts) := session_run hrun
    rw [exit_reportOf] at hsession
    exact hsession
  · have hcall' : (logged (ask client) text).run (w, texts) = (.error fault, u, texts ++ [text]) := by
      change (((ask client text).run w).1, ((ask client text).run w).2, texts ++ [text]) = _
      rw [hcall]
    refine ⟨run_broken hrun rfl hcall', ?_⟩
    have hsession : (session sends (.ok client) (texts ++ text :: after)).run (v, []) =
      (connectionExit (String.join (reportOf results).lines) fault, u, texts ++ [text]) := session_broken hrun rfl hcall'
    rw [connectionExit, if_pos hconnection] at hsession
    exact hsession

/-- Calls of a server that answers some and then goes. -/
def askSome (_ : Unit) (text : String) : StateM (σ × Nat) (Except ClientFault Value)
  | (store, 0) => (.error .hungUp, store, 0)
  | (store, calls + 1) => (.ok (executeStatement store text).1.payload, (executeStatement store text).2, calls)

theorem answers_askSome {store : σ} (calls : Nat)
    (hlines : ∀ r ∈ (executeAll store texts).1, ∃ line, Wire.encode r = .ok line) :
    Answers (askSome ()) (·.1) (store, calls + texts.length) texts (executeAll store texts).1
      ((executeAll store texts).2, calls) := by
  induction texts generalizing store with
  | nil => exact .nil (store, calls)
  | cons text texts ih =>
    obtain ⟨⟨line, hline⟩, hmore⟩ := List.forall_mem_cons.mp hlines
    exact .cons (v := ((executeStatement store text).2, calls + texts.length)) rfl hline rfl (ih hmore)

/-- A statement that is answered with an error, and one with a newline and a line separator in its text. -/
def answeredTexts : List String := ["SELECT * FROM t WHERE id = 2", "INSERT INTO t (name) VALUES (a\nb\u2028c)"]

theorem executeAll_answeredTexts : (executeAll MemoryStore.empty answeredTexts).1 =
    [.notFound, .inserted ⟨1, Text.ofString "a\nb\u2028c", []⟩] := by
  decide +kernel

theorem exists_line_answeredTexts :
    ∀ r ∈ (executeAll MemoryStore.empty answeredTexts).1, ∃ line, Wire.encode r = .ok line := by
  rw [executeAll_answeredTexts]
  have hshort : (Nat.toDigits 10 1).length ≤ digitLimit := by decide
  refine List.forall_mem_cons.mpr ⟨Wire.encode_errorObject_isOk rfl, List.forall_mem_singleton.mpr ?_⟩
  exact (Wire.encode_inserted_isOk_iff _).mpr ⟨hshort, Record.isChars_ofString _, fun p hp => nomatch hp⟩

/-- The server goes before the third of four statements. -/
theorem reports_of_answers_gone : ∃ results w out,
    Answers (askSome ()) (·.1) (MemoryStore.empty, 2) answeredTexts results w ∧
    Reports askSome () (·.1) (MemoryStore.empty, 2) answeredTexts results w out ∧
    results = [.notFound, .inserted ⟨1, Text.ofString "a\nb\u2028c", []⟩] ∧
    (session (fun client => logged (askSome client)) (.ok ()) (answeredTexts ++ ["SELECT * FROM t", "SELECT * FROM u"])).run
      ((MemoryStore.empty, 2), []) = (.ok ⟨2, out, "Connection error: Server closed the connection\n"⟩, w,
        answeredTexts ++ ["SELECT * FROM t"]) := by
  have hanswers := answers_askSome 0 exists_line_answeredTexts
  have hreports := reports_of_answers hanswers
  have hgone := (hreports.breaks "SELECT * FROM t" .hungUp ["SELECT * FROM u"] _ rfl rfl).2
  exact ⟨_, _, _, hanswers, hreports, executeAll_answeredTexts, hgone⟩

end TableServer.Query
