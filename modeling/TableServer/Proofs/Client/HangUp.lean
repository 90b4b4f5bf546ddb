import Mathlib.Data.List.TakeWhile
import TableServer.Client.Query
import TableServer.Proofs.Client.Pairing
import TableServer.Proofs.Json.Prefixes

namespace TableServer

open Json

namespace Client

/-- Why a part of an answer is refused: for a character that is cut, or for a value that is. -/
inductive Breaks (received : Bytes) : ClientFault → Prop
  | character (h : Utf8.decode received = none) : Breaks received .notUtf8
  | value {cs : List Char} {complaint : Complaint} {position : Position} (h : Utf8.decode received = some cs)
      (hread : Json.read cs = .error (.malformed complaint position)) :
      Breaks received (.malformed (.malformed complaint position))

theorem Breaks.not_ofConnection {received : Bytes} {fault : ClientFault} (h : Breaks received fault) :
    fault.ofConnection = false := by
  cases h <;> rfl

/-- Behind the end of the connection all that has been received counts as a line. -/
theorem answer?_closed {received : Bytes} (hline : 10 ∉ received) (hshort : received.length ≤ lineLimit) :
    answer? received true = some (readLine received) := by
  have htake : received.takeWhile (· ≠ 10) = received := List.takeWhile_eq_self_iff.mpr (Wire.ne_newline hline)
  rw [answer?, line?, htake, if_neg (Nat.not_lt.mpr hshort), if_neg (Nat.lt_irrefl _)]
  rfl

/-- Answers are arrays and objects, of which no part can be taken for a whole. -/
theorem not_isLeaf_payload (r : Result) : ¬ IsLeaf r.payload := by
  cases r <;> exact id

/-- No part of an answer is read as anything. -/
theorem breaks_of_prefix {r : Result} {body received : Bytes} (hline : Wire.encode r = .ok (body ++ [10]))
    (hpart : received <+: body) (hnil : received ≠ []) (hne : received ≠ body) :
    ∃ fault, readLine received = .error fault ∧ Breaks received fault := by
  obtain ⟨cs, hwrite, hbody⟩ := Wire.encode_eq_ok hline
  obtain rfl : body = Utf8.encode cs := by
    rw [Utf8.encode_append] at hbody
    exact (List.append_inj' hbody rfl).1
  have hfits := (Wire.isChars_write_iff hwrite).mp (Text.isChars_ofChars cs)
  cases hdecode : Utf8.decode received with
  | none =>
    refine ⟨.notUtf8, ?_, .character hdecode⟩
    rw [readLine, if_neg (by simpa using hnil), hdecode]
  | some ds =>
    have hds := Utf8.prefix_of_decode hpart hdecode
    have hcut : ds ≠ cs := by
      rintro rfl
      exact hne (Utf8.encode_of_decode hdecode).symm
    obtain ⟨complaint, position, hread⟩ :=
      read_of_cut Layout.spaced_compact (not_isLeaf_payload r) hfits hwrite hds hcut
    refine ⟨.malformed (.malformed complaint position), ?_, .value hdecode hread⟩
    rw [readLine, if_neg (by simpa using hnil), hdecode]
    simp only [hread]
    rfl

end Client

namespace Query

variable {σ χ : Type} {ask : String → StateM σ (Except ClientFault Json.Value)} {s t u : σ} {report : Report}
  {fault : ClientFault}

/-- What an answer adds to the report of the statements behind its own. -/
def Report.add (answer : Json.Value) (r : Report) : Report :=
  { r with lines := printed answer :: r.lines, errors := r.errors + (Client.isErrorAnswer answer).toNat }

theorem run_answered {text : String} {rest : List String} {answer : Json.Value} (h : (ask text).run s = (.ok answer, t)) :
    (run ask (text :: rest)).run s = (((run ask rest).run t).1.add answer, ((run ask rest).run t).2) := by
  rw [run, StateT.run_bind, h]
  rfl

theorem run_failed {text : String} (rest : List String) (h : (ask text).run s = (.error fault, t)) :
    (run ask (text :: rest)).run s = (⟨[], 0, some fault⟩, t) := by
  rw [run, StateT.run_bind, h]
  rfl

/-- A run ends at the first statement that gets no answer. -/
theorem run_broken {before after : List String} {text : String} (hbefore : (run ask before).run s = (report, t))
    (hanswered : report.broken = none) (htext : (ask text).run t = (.error fault, u)) :
    (run ask (before ++ text :: after)).run s = ({ report with broken := some fault }, u) := by
  induction before generalizing s report with
  | nil =>
    obtain ⟨rfl, rfl⟩ := Prod.mk.inj hbefore
    exact run_failed after htext
  | cons first before ih =>
    rcases hfirst : (ask first).run s with ⟨outcome, s'⟩
    cases outcome with
    | error other =>
      obtain ⟨rfl, _⟩ := Prod.mk.inj ((run_failed before hfirst).symm.trans hbefore)
      contradiction
    | ok answer =>
      obtain ⟨rfl, rfl⟩ := Prod.mk.inj ((run_answered hfirst).symm.trans hbefore)
      rw [List.cons_append, run_answered hfirst, ih rfl hanswered]
      rfl

theorem session_broken {ask : χ → String → StateM σ (Except ClientFault Json.Value)} {client : χ}
    {before after : List String} {text : String} (hbefore : (run (ask client) before).run s = (report, t))
    (hanswered : report.broken = none) (htext : (ask client text).run t = (.error fault, u)) :
    (session ask (.ok client) (before ++ text :: after)).run s = (connectionExit (String.join report.lines) fault, u) := by
  rw [session, StateT.run_bind, run_broken hbefore hanswered htext]
  rfl

end Query

namespace Client

/-- What becomes of an answer when so many bytes of its line have been sent. -/
structure CutOff (r : Result) (line : Bytes) (sent : Nat) : Prop where
  silent : sent = 0 → answer? (line.take sent) true = some (.error .hungUp)
  whole : line.length ≤ sent + 1 → answer? (line.take sent) true = some (.ok r.payload)
  broken : 0 < sent → sent + 1 < line.length → ∃ fault, answer? (line.take sent) true = some (.error fault) ∧
    Breaks (line.take sent) fault
  /-- No other value is taken for the answer. -/
  own : ∀ v, answer? (line.take sent) true = some (.ok v) → v = r.payload
  /-- Only the end of a silent connection is reported by a program; any other fault ends it. -/
  exits : ∀ {σ χ : Type} {ask : χ → String → StateM σ (Except ClientFault Json.Value)} {client : χ} {s t u : σ}
    {before : List String} {text : String} {report : Query.Report} {fault : ClientFault},
    (Query.run (ask client) before).run s = (report, t) → report.broken = none →
    (ask client text).run t = (.error fault, u) → answer? (line.take sent) true = some (.error fault) →
    ∀ after, (Query.session ask (.ok client) (before ++ text :: after)).run s =
      (if sent = 0 then .ok ⟨2, String.join report.lines, "Connection error: Server closed the connection\n"⟩
        else .error fault, u)

variable {r : Result} {body : Bytes} {sent : Nat}

/-- All that has been sent without the newline counts as a line once the connection is closed. -/
theorem answer?_take (h : Wire.Frames r body) (hshort : body.length ≤ lineLimit) (hsent : sent ≤ body.length) :
    answer? ((body ++ [10]).take sent) true = some (readLine (body.take sent)) := by
  rw [List.take_append_of_le_length hsent]
  refine answer?_closed (fun hmem => h.single (List.mem_of_mem_take hmem)) ?_
  exact Nat.le_trans (List.length_take_le' _ _) hshort

theorem answer?_whole (h : Wire.Frames r body) (hshort : body.length ≤ lineLimit) (hsent : body.length ≤ sent) :
    answer? ((body ++ [10]).take sent) true = some (.ok r.payload) := by
  rcases Nat.eq_or_lt_of_le hsent with rfl | hmore
  · rw [answer?_take h hshort (Nat.le_refl _), List.take_length, h.read.2]
  · rw [List.take_of_length_le (by simpa using Nat.succ_le_of_lt hmore)]
    simpa using (Exchange.answer?_of_frames h hshort [] true).1

theorem answer?_broken (h : Wire.Frames r body) (hshort : body.length ≤ lineLimit) (hsome : 0 < sent)
    (hless : sent < body.length) : ∃ fault, answer? ((body ++ [10]).take sent) true = some (.error fault) ∧
      Breaks ((body ++ [10]).take sent) fault := by
  have hlength : (body.take sent).length = sent := List.length_take_of_le (Nat.le_of_lt hless)
  have hnil : body.take sent ≠ [] := List.ne_nil_of_length_pos (by omega)
  have hne : body.take sent ≠ body := by
    intro heq
    rw [heq] at hlength
    omega
  obtain ⟨fault, hread, hbreaks⟩ := breaks_of_prefix h.line (List.take_prefix sent body) hnil hne
  refine ⟨fault, by rw [answer?_take h hshort (Nat.le_of_lt hless), hread], ?_⟩
  rwa [List.take_append_of_le_length (Nat.le_of_lt hless)]

theorem connectionExit_hungUp (out : String) : Query.connectionExit out .hungUp =
    .ok ⟨2, out, "Connection error: Server closed the connection\n"⟩ := by
  rfl

/-- A client has the answer if the server has sent all of its value before it closes the connection, with the newline
or without. It is told of the end of the connection only if the server has sent nothing. Any other part is taken for a
line and refused, with a fault that is none of the connection and ends the program. -/
theorem cutOff_of_encode {r : Result} {line : Bytes} (hline : Wire.encode r = .ok line)
    (hshort : line.length ≤ lineLimit + 1) (sent : Nat) : CutOff r line sent := by
  obtain ⟨body, hframes⟩ := Wire.exists_frames (Wire.isTellable_of_encode hline)
  obtain rfl : line = body ++ [10] := Except.ok.inj (hline.symm.trans hframes.line)
  rw [List.length_append, List.length_singleton] at hshort
  have hbody : body.length ≤ lineLimit := Nat.le_of_succ_le_succ hshort
  have hlength : (body ++ [10]).length = body.length + 1 := List.length_append
  have hsilent : sent = 0 → answer? ((body ++ [10]).take sent) true = some (.error .hungUp) := by
    rintro rfl
    exact Exchange.answer?_nil true
  have hcases : sent = 0 ∨ (0 < sent ∧ sent < body.length) ∨ body.length ≤ sent := by omega
  refine ⟨hsilent, fun hsent => ?_, fun hsome hless => ?_, fun v hv => ?_, fun hbefore hanswered htext hfault after => ?_⟩
  · exact answer?_whole hframes hbody (by omega)
  · exact answer?_broken hframes hbody hsome (by omega)
  · rcases hcases with hnone | ⟨hsome, hless⟩ | hwhole
    · cases Option.some.inj ((hsilent hnone).symm.trans hv)
    · obtain ⟨fault, hfault, _⟩ := answer?_broken hframes hbody hsome hless
      cases Option.some.inj (hfault.symm.trans hv)
    · exact (Except.ok.inj (Option.some.inj ((answer?_whole hframes hbody hwhole).symm.trans hv))).symm
  · rw [Query.session_broken hbefore hanswered htext]
    rcases hcases with hnone | ⟨hsome, hless⟩ | hwhole
    · obtain rfl := Except.error.inj (Option.some.inj ((hsilent hnone).symm.trans hfault))
      rw [if_pos hnone, connectionExit_hungUp]
    · obtain ⟨other, hother, hbreaks⟩ := answer?_broken hframes hbody hsome hless
      obtain rfl := Except.error.inj (Option.some.inj (hother.symm.trans hfault))
      rw [if_neg (Nat.ne_of_gt hsome), Query.connectionExit, hbreaks.not_ofConnection]
      rfl
    · cases Option.some.inj ((answer?_whole hframes hbody hwhole).symm.trans hfault)

/-- A cut inside a character. -/
theorem cutOff_of_encode_character : ∃ line, Wire.encode (.inserted ⟨1, Text.ofString "é", []⟩) = .ok line ∧
    line.length ≤ lineLimit + 1 ∧ Utf8.decode (line.take 43) = none ∧
      CutOff (.inserted ⟨1, Text.ofString "é", []⟩) line 43 := by
  have hline : (Wire.encode (.inserted ⟨1, Text.ofString "é", []⟩)).toOption.any (fun line =>
      line.length ≤ lineLimit + 1 && Utf8.decode (line.take 43) = none) = true := by
    decide +kernel
  cases hencode : Wire.encode (.inserted ⟨1, Text.ofString "é", []⟩) with
  | error fault => simp [hencode, Except.toOption] at hline
  | ok line =>
    simp only [hencode, Except.toOption, Option.any_some, Bool.and_eq_true, decide_eq_true_eq] at hline
    exact ⟨line, rfl, hline.1, hline.2, cutOff_of_encode hencode hline.1 43⟩

/-- Of an answer without records only the bracket arrives. The client is prepared for the end of the connection, but not
for this, and its program has no exit code. -/
theorem bracket_unprepared : Wire.encode (.rows []) = .ok [91, 93, 10] ∧
    answer? ([91, 93, 10].take 1) true = some (.error (.malformed (.malformed .value ⟨1, 2, 1⟩))) ∧
    (ClientFault.malformed (.malformed .value ⟨1, 2, 1⟩)).ofConnection = false ∧
    ∀ exit, Query.session (m := Id) (fun (_ : Unit) (_ : String) => .error (.malformed (.malformed .value ⟨1, 2, 1⟩)))
      (.ok ()) ["SELECT * FROM t"] ≠ .ok exit := by
  refine ⟨by decide +kernel, by rfl, rfl, fun exit hexit => ?_⟩
  cases hexit

end Client

end TableServer
