import TableServer.Proofs.Connection.Answers
import TableServer.Proofs.Json.Characters

namespace TableServer

open Json

namespace Result

/-- The records that a result tells. -/
def records : Result → List Record
  | rows records => records
  | inserted record => [record]
  | notFound => []
  | parseFailure _ => []
  | executionFailure _ => []

/-- Results that can be told: their records have short ids and no lone surrogates. -/
def IsTellable (r : Result) : Prop := ∀ record ∈ r.records, record.IsShort ∧ record.IsChars

/-- What can be told can be written in any layout. -/
theorem write_isOk_of_isTellable (layout : Layout) {r : Result} (h : r.IsTellable) :
    ∃ w, write layout r.payload = .ok w := by
  cases r with
  | rows records => exact (Record.write_listToJson_isOk_iff layout records).mpr fun record hrecord => (h record hrecord).1
  | inserted record => exact write_inserted_isOk layout (h record (List.mem_singleton_self _)).1
  | notFound => exact ⟨_, rfl⟩
  | parseFailure message => exact ⟨_, rfl⟩
  | executionFailure message => exact ⟨_, rfl⟩

end Result

namespace Wire

theorem encode_errorObject_isOk {r : Result} {message : String} (h : r.payload = Result.errorObject message) :
    ∃ line, encode r = .ok line := by
  have hw : ∃ w, write .compact r.payload = .ok w := by
    rw [h]
    exact ⟨_, rfl⟩
  obtain ⟨w, hw⟩ := hw
  refine encode_isOk hw ?_
  rw [h]
  exact Result.fits_errorObject Record.isChars_ofString 989 message

theorem encode_isOk_of_isTellable {r : Result} (h : r.IsTellable) : ∃ line, encode r = .ok line := by
  cases r with
  | rows records => exact encode_rows_isOk h
  | inserted record => exact (encode_inserted_isOk_iff record).mpr (h record (List.mem_singleton_self _))
  | notFound => exact encode_errorObject_isOk rfl
  | parseFailure message => exact encode_errorObject_isOk rfl
  | executionFailure message => exact encode_errorObject_isOk rfl

/-- The line of an answer, without its end. -/
structure Frames (r : Result) (body : Bytes) : Prop where
  line : encode r = .ok (body ++ [10])
  single : 10 ∉ body
  valid : ∃ cs, Utf8.decode (body ++ [10]) = some cs
  /-- The answer is read from the line, with its end or without. -/
  read : Client.readLine (body ++ [10]) = .ok r.payload ∧ Client.readLine body = .ok r.payload
  /-- The members of a record come in one order. -/
  members : ∀ record ∈ r.records, record.toJson = .object [(Text.ofString "id", .integer record.id),
    (Text.ofString "name", .string record.name), (Text.ofString "description", .string record.description)]
  /-- The client tells errors as the server does. -/
  classified : ∀ v, Client.readLine (body ++ [10]) = .ok v → Client.isErrorAnswer v = r.isError

/-- Whatever can be told is framed: newlines in its texts are escaped. -/
theorem exists_frames {r : Result} (h : r.IsTellable) : ∃ body, Frames r body := by
  obtain ⟨line, hline⟩ := encode_isOk_of_isTellable h
  obtain ⟨cs, hw, rfl⟩ := encode_eq_ok hline
  have hend : Utf8.encode (cs ++ ['\n']) = Utf8.encode cs ++ [10] := Utf8.encode_append cs ['\n']
  have hread := readLine_encode hline
  have hblanks : Blanks [] := fun c hc => absurd hc List.not_mem_nil
  have hpiece := readLine_of_write hw hblanks
  rw [List.append_nil] at hpiece
  have hvalid := Utf8.decode_encode (cs ++ ['\n'])
  rw [hend] at hline hread hvalid
  refine ⟨Utf8.encode cs, hline, fun hmem => ?_, ⟨_, hvalid⟩, ⟨hread, hpiece⟩, fun record _ => rfl,
    fun v hv => ?_⟩
  · have hnewline := List.mem_map_of_mem (f := CodePoint.scalar) (Utf8.newline_mem_of_encode hmem)
    exact Layout.keeps_compact.writeAt r.fits_payload hw _ hnewline rfl
  · obtain rfl := Except.ok.inj (hread.symm.trans hv)
    exact r.isErrorAnswer_payload

theorem ne_newline {bytes : Bytes} (h : 10 ∉ bytes) : ∀ b ∈ bytes, decide (b ≠ 10) = true := by
  intro b hb
  rw [decide_eq_true_eq]
  rintro rfl
  exact h hb

/-- What a server sends for results in a row. -/
def stream (rs : List Result) : Except WireFault Bytes := (rs.mapM encode).map List.flatten

/-- Lines in a row are their bodies with newlines between them, and nothing behind the last. -/
theorem flatten_lines (bodies : List Bytes) :
    (bodies.map (· ++ [10])).flatten = [(10 : UInt8)].intercalate (bodies ++ [[]]) := by
  induction bodies with
  | nil => rfl
  | cons body bodies ih =>
    rw [List.map_cons, List.flatten_cons, ih, List.cons_append]
    cases bodies with
    | nil => simp [List.intercalate]
    | cons next bodies => simp [List.intercalate, List.intersperse]

theorem stream_of_frames {rs : List Result} {bodies : List Bytes} (h : List.Forall₂ Frames rs bodies) :
    stream rs = .ok (bodies.map (· ++ [10])).flatten := by
  have hlines : rs.mapM encode = .ok (bodies.map (· ++ [10])) := by
    induction h with
    | nil => rfl
    | cons hone _ ih =>
      rw [List.mapM_cons, hone.line, ih]
      rfl
  rw [stream, hlines]
  rfl

/-- How a stream of answers falls apart. Each answer is one line and has no newline byte but its last, so that the
parts between newlines are the answers, each read as what it was written for. -/
structure Framing (rs : List Result) (bodies : List Bytes) : Prop where
  frames : List.Forall₂ Frames rs bodies
  sent : stream rs = .ok (bodies.map (· ++ [10])).flatten
  pieces : (bodies.map (· ++ [10])).flatten.splitOn 10 = bodies ++ [[]]
  answers : bodies.map Client.readLine = rs.map fun r => .ok r.payload

theorem framing_of_frames {rs : List Result} {bodies : List Bytes} (h : List.Forall₂ Frames rs bodies) :
    Framing rs bodies := by
  refine ⟨h, stream_of_frames h, ?_, ?_⟩
  · rw [flatten_lines]
    refine List.splitOn_intercalate 10 (fun body hbody => ?_) (by simp)
    rcases List.mem_append.mp hbody with hbody | hbody
    · clear * - h hbody
      induction h with
      | nil => contradiction
      | cons hone _ ih =>
        rcases List.mem_cons.mp hbody with rfl | hbody
        · exact hone.single
        · exact ih hbody
    · obtain rfl := List.mem_singleton.mp hbody
      exact List.not_mem_nil
  · induction h with
    | nil => rfl
    | cons hone _ ih => rw [List.map_cons, List.map_cons, hone.read.2, ih]

/-- A stream of answers is told apart by its newlines, and every part is read as its answer. -/
theorem exists_framing (rs : List Result) (h : ∀ r ∈ rs, r.IsTellable) : ∃ bodies, Framing rs bodies := by
  have hframes : ∃ bodies, List.Forall₂ Frames rs bodies := by
    induction rs with
    | nil => exact ⟨[], .nil⟩
    | cons r rs ih =>
      obtain ⟨hfirst, hmore⟩ := List.forall_mem_cons.mp h
      obtain ⟨body, hbody⟩ := exists_frames hfirst
      obtain ⟨bodies, hbodies⟩ := ih hmore
      exact ⟨body :: bodies, .cons hbody hbodies⟩
  obtain ⟨bodies, hbodies⟩ := hframes
  exact ⟨bodies, framing_of_frames hbodies⟩

/-- Newlines in a text do not end its line. -/
theorem exists_framing_newlines :
    (∀ r ∈ [Result.inserted ⟨1, Text.ofString "a\nb", []⟩, .notFound], r.IsTellable) ∧
      ∃ bodies, Framing [.inserted ⟨1, Text.ofString "a\nb", []⟩, .notFound] bodies := by
  have htellable : ∀ r ∈ [Result.inserted ⟨1, Text.ofString "a\nb", []⟩, .notFound], r.IsTellable := by
    intro r hr record hrecord
    have hshort : (Nat.toDigits 10 1).length ≤ digitLimit := by decide
    simp only [List.mem_cons, List.not_mem_nil, or_false] at hr
    rcases hr with rfl | rfl
    · obtain rfl := List.mem_singleton.mp hrecord
      exact ⟨hshort, Record.isChars_ofString _, fun p hp => absurd hp List.not_mem_nil⟩
    · contradiction
  exact ⟨htellable, exists_framing _ htellable⟩

end Wire

end TableServer
