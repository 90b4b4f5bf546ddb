import TableServer.Proofs.Client.HangUp

namespace TableServer

open Json

namespace Json

theorem length_units_pos (p : CodePoint) : 0 < (p.units.flatMap unitEscape).length := by
  have hne : p.units ≠ [] := by
    unfold CodePoint.units
    split <;> simp
  obtain ⟨n, units, hunits⟩ := List.exists_cons_of_ne_nil hne
  rw [hunits, List.flatMap_cons, List.length_append]
  exact Nat.add_pos_left (Nat.succ_pos _) _

theorem length_writePoint_pos (ascii : Bool) (p : CodePoint) : 0 < (writePoint ascii p).length := by
  have hunits : 0 < (Text.ofChars (p.units.flatMap unitEscape)).length := by
    rw [Text.ofChars, List.length_map]
    exact length_units_pos p
  unfold writePoint
  repeat' split
  all_goals first
    | exact hunits
    | exact Nat.succ_pos _

/-- Every character is spelled between two quotes. -/
theorem length_le_writeString (ascii : Bool) (t : Text) : t.length + 2 ≤ (writeString ascii t).length := by
  have hspelled : t.length ≤ (t.flatMap (writePoint ascii)).length := by
    induction t with
    | nil => exact Nat.le_refl _
    | cons p t ih =>
      have hpos := length_writePoint_pos ascii p
      rw [List.flatMap_cons, List.length_append, List.length_cons]
      omega
  simp only [writeString, List.length_append, List.length_cons, List.length_nil]
  omega

theorem length_writeInteger_pos {n : Int} {w : Text} (h : writeInteger n = .ok w) : 0 < w.length := by
  obtain ⟨_, rfl⟩ := writeInteger_eq h
  rw [Text.ofChars, List.length_map]
  split
  · exact Nat.succ_pos _
  · exact Nat.length_toDigits_pos

theorem length_memberText (layout : Layout) (name value : Text) :
    name.length + value.length + 3 ≤ (memberText layout name value).length := by
  have hname := length_le_writeString layout.ascii name
  simp only [memberText, List.cons_append, List.append_assoc, List.length_append, List.length_cons]
  omega

/-- There is a bracket in front of the items, and one more character behind each. -/
theorem Layout.length_le_enclose (layout : Layout) (level : Nat) (opening closing : Char) (items : List Text) :
    items.flatten.length + items.length + 1 ≤ (layout.enclose level opening closing items).length := by
  cases items with
  | nil => exact Nat.le_succ 1
  | cons item items =>
    have hitems : items.flatten.length + items.length ≤ (items.flatMap fun i =>
        .scalar ',' :: layout.afterComma ++ layout.line (level + 1) ++ i).length := by
      induction items with
      | nil => exact Nat.le_refl _
      | cons i items ih =>
        simp only [List.flatten_cons, List.flatMap_cons, List.length_append, List.cons_append, List.length_cons] at ih ⊢
        omega
    simp only [Layout.enclose, List.flatten_cons, List.length_append, List.cons_append, List.length_cons,
      List.length_nil] at hitems ⊢
    omega

end Json

namespace Record

/-- How many characters a record takes at least, with the one behind it. -/
def weight (r : Record) : Nat := r.name.length + r.description.length + 36

theorem weight_le {layout : Layout} {level : Nat} {r : Record} {w : Text} (hw : writeAt layout level r.toJson = .ok w) :
    r.weight ≤ w.length + 1 := by
  obtain ⟨ws, hws, rfl⟩ := writeAt_object_iff.mp hw
  have hlength := layout.length_le_enclose level '\x7b' '\x7d' ws
  cases writeMembers_eq_ok_iff.mp hws with
  | cons hid hmore =>
    cases hmore with
    | cons hname hmore =>
      cases hmore with
      | cons hdescription hmore =>
        cases hmore
        obtain ⟨id, hid, rfl⟩ := hid
        obtain ⟨name, hname, rfl⟩ := hname
        obtain ⟨description, hdescription, rfl⟩ := hdescription
        -- Names, quotes and marks around the three values are what the weight counts beside the texts.
        have hidText := length_memberText layout (Text.ofString "id") id
        have hnameText := length_memberText layout (Text.ofString "name") name
        have hdescriptionText := length_memberText layout (Text.ofString "description") description
        obtain rfl := Except.ok.inj hname
        obtain rfl := Except.ok.inj hdescription
        have hnameString := length_le_writeString layout.ascii r.name
        have hdescriptionString := length_le_writeString layout.ascii r.description
        have hdigits := length_writeInteger_pos hid
        simp only [List.flatten_cons, List.flatten_nil, List.append_nil, List.length_append, List.length_cons,
          List.length_nil] at hlength ⊢
        have hnames : (Text.ofString "id").length = 2 ∧ (Text.ofString "name").length = 4 ∧
          (Text.ofString "description").length = 11 := by decide
        rw [weight]
        omega

/-- How many characters records take at least. -/
def weightOf : List Record → Nat
  | [] => 0
  | r :: rest => r.weight + weightOf rest

theorem weightOf_lt {layout : Layout} {records : List Record} {w : Text} (hw : write layout (listToJson records) = .ok w) :
    weightOf records < w.length := by
  obtain ⟨ws, hws, rfl⟩ := writeAt_array_iff.mp hw
  have hlength := layout.length_le_enclose 0 '[' ']' ws
  have hall := List.forall₂_map_left_iff.mp (writeItems_eq_ok_iff.mp hws)
  have hitems : weightOf records ≤ ws.flatten.length + ws.length := by
    clear hw hws hlength
    induction hall with
    | nil => exact Nat.le_refl _
    | cons hone _ ih =>
      have := weight_le hone
      simp only [weightOf, List.flatten_cons, List.length_append, List.length_cons]
      omega
  omega

end Record

theorem Wire.weightOf_lt {records : List Record} {line : Bytes} (h : Wire.encode (.rows records) = .ok line) :
    Record.weightOf records + 1 < line.length := by
  obtain ⟨cs, hw, rfl⟩ := Wire.encode_eq_ok h
  have hwritten := Record.weightOf_lt hw
  have hbytes := Utf8.length_le_encode (cs ++ ['\n'])
  rw [Text.ofChars, List.length_map] at hwritten
  rw [List.length_append, List.length_singleton] at hbytes
  omega

namespace Client

/-- What a client makes of an answer, by the length of its line. -/
def limited (r : Result) (line : Bytes) : Except ClientFault Json.Value :=
  if line.length ≤ lineLimit + 1 then .ok r.payload else .error .lineTooLong

/-- A line that has come further than the limit is refused, wherever it ends. -/
theorem answer?_long {received : Bytes} (h : lineLimit < (received.takeWhile (· ≠ 10)).length) (closed : Bool) :
    answer? received closed = some (.error .lineTooLong) := by
  rw [answer?, line?, if_pos h]
  rfl

variable {r : Result} {body : Bytes}

theorem answer?_arrived (h : Wire.Frames r body) (more : Bytes) (closed : Bool) :
    answer? (body ++ [10] ++ more) closed = some (limited r (body ++ [10])) := by
  rw [limited, List.length_append, List.length_singleton]
  by_cases hshort : body.length ≤ lineLimit
  · rw [if_pos (Nat.succ_le_succ hshort)]
    exact (Exchange.answer?_of_frames h hshort more closed).1
  · rw [if_neg (by omega)]
    refine answer?_long ?_ closed
    rw [List.append_assoc, takeWhile_run (Wire.ne_newline h.single) (by simp)]
    exact Nat.lt_of_not_le hshort

theorem dropLine_body (h : Wire.Frames r body) : dropLine (body ++ [10]) = [] := by
  rw [dropLine, dropWhile_run (Wire.ne_newline h.single) (by simp)]
  rfl

/-- Before the end of a line has come there is no answer. -/
theorem answer?_arriving (h : Wire.Frames r body) {sent : Nat} (hsent : sent ≤ body.length) :
    answer? ((body ++ [10]).take sent) false = if sent ≤ lineLimit then none else some (.error .lineTooLong) := by
  rw [List.take_append_of_le_length hsent]
  have hlength : (body.take sent).length = sent := List.length_take_of_le hsent
  have htake : (body.take sent).takeWhile (· ≠ 10) = body.take sent :=
    List.takeWhile_eq_self_iff.mpr (Wire.ne_newline fun hmem => h.single (List.mem_of_mem_take hmem))
  by_cases hless : sent ≤ lineLimit
  · rw [answer?, line?, htake, hlength, if_neg (Nat.not_lt.mpr hless), if_neg (Nat.lt_irrefl _), if_pos hless]
    rfl
  · rw [if_neg hless]
    refine answer?_long ?_ false
    rw [htake, hlength]
    exact Nat.lt_of_not_le hless

end Client

namespace Exchange

variable {σ : Type} [TableStore σ] {x : Exchange σ} {text : String} {r : Result} {line : Bytes} {store : σ}

/-- Nothing is on its way, and no call waits. -/
structure IsQuiet (x : Exchange σ) : Prop where
  requests : x.requests = []
  replies : x.replies = []
  connected : x.closed = false
  waiting : x.waiting = none

omit [TableStore σ] in
theorem isQuiet_start (size : Nat) (store : σ) : (start size store).IsQuiet := ⟨rfl, rfl, rfl, rfl⟩

theorem handleChunk_bytesOf (store : σ) (text : String) : handleChunk store (bytesOf text) = executeStatement store text := by
  rw [handleChunk, Wire.decode, bytesOf, Utf8.decode_encode]
  simp only [String.ofList_toList]

/-- A call whose statement and whose answer arrive as a whole. -/
theorem run_call (hquiet : x.IsQuiet) (htext : text ≠ "") (hsize : (bytesOf text).length ≤ x.size)
    (hresult : executeStatement x.store text = (r, store)) (hline : Wire.encode r = .ok line)
    {arrived : Nat} (harrived : (bytesOf text).length ≤ arrived) : x.run [.call text, .serve arrived, .receive] =
      some { x with
        store := store
        calls := x.calls ++ [(text, ofAnswer (Client.limited r line))]
        served := x.served ++ [(bytesOf text, r)] } := by
  obtain ⟨body, rfl, hframes⟩ := Wire.exists_frames_of_encode hline
  have hanswer := Client.answer?_arrived hframes [] false
  rw [List.append_nil] at hanswer
  obtain ⟨size, before, requests, replies, closed, waiting, calls, served⟩ := x
  obtain ⟨rfl, rfl, rfl, rfl⟩ := hquiet
  -- The statement is written, read as one chunk and answered with one line, and the line is all that is received.
  let called : Exchange σ := ⟨size, before, bytesOf text, [], false, some text, calls, served⟩
  have hchunk : called.chunk arrived = bytesOf text := List.take_of_length_le (Nat.le_min.mpr ⟨harrived, hsize⟩)
  have hbytes : (bytesOf text).isEmpty = false := by
    refine List.isEmpty_eq_false_iff.mpr fun hnil => htext ?_
    have hlength := Utf8.length_le_encode text.toList
    rw [← bytesOf, hnil, List.length_nil, Nat.le_zero] at hlength
    simpa using hlength
  have hserve : called.step (.serve arrived) =
      some ⟨size, store, [], body ++ [10], false, some text, calls, served ++ [(bytesOf text, r)]⟩ := by
    rw [step, stepServe, hchunk, hbytes]
    simp only [called, handleChunk_bytesOf, hresult, hline, Bool.or_self, List.nil_append, List.drop_length]
    rfl
  have hreceive : (⟨size, store, [], body ++ [10], false, some text, calls, served ++ [(bytesOf text, r)]⟩ : Exchange σ).step
      .receive = some ⟨size, store, [], [], false, none, calls ++ [(text, ofAnswer (Client.limited r (body ++ [10])))],
        served ++ [(bytesOf text, r)]⟩ := by
    simp only [step, hanswer, Client.dropLine_body hframes]
    rfl
  change (called.step (.serve arrived)).bind _ = _
  rw [hserve, Option.bind_some, List.foldlM_cons, hreceive]
  rfl

/-- What becomes of a call, and of the answer on its way. -/
structure Limited (x : Exchange σ) (text : String) (r : Result) (line : Bytes) (store : σ) : Prop where
  arriving (sent : Nat) : sent < line.length → Client.answer? (line.take sent) false =
    if sent ≤ Client.lineLimit then none else some (.error .lineTooLong)
  arrived (more : Bytes) (closed : Bool) : Client.answer? (line ++ more) closed = some (Client.limited r line)
  called (arrived : Nat) : (bytesOf text).length ≤ arrived → x.run [.call text, .serve arrived, .receive] =
    some { x with
      store := store
      calls := x.calls ++ [(text, ofAnswer (Client.limited r line))]
      served := x.served ++ [(bytesOf text, r)] }
  /-- Tables from a certain size on are not read. -/
  rows (records : List Record) : r = .rows records → Client.lineLimit ≤ Record.weightOf records →
    Client.limited r line = .error .lineTooLong
  /-- A program ends with the fault. -/
  exits : Client.lineLimit + 1 < line.length →
    ∀ {τ χ : Type} {ask : χ → String → StateM τ (Except ClientFault Json.Value)} {client : χ} {s t u : τ}
      {before : List String} {report : Query.Report}, (Query.run (ask client) before).run s = (report, t) →
      report.broken = none → (ask client text).run t = (Client.limited r line, u) → ∀ after,
      (Query.session ask (.ok client) (before ++ text :: after)).run s = (.error .lineTooLong, u)

/-- An answer is returned whose line keeps to the limit, and no other. The limit is the client's and not the server's,
so that there is a number of records from which no table can be read as a whole; the call fails then with a fault that
programs are not prepared for. -/
theorem limited_of_encode (hline : Wire.encode r = .ok line) (hquiet : x.IsQuiet) (htext : text ≠ "")
    (hsize : (bytesOf text).length ≤ x.size) (hresult : executeStatement x.store text = (r, store)) :
    Limited x text r line store := by
  obtain ⟨body, rfl, hframes⟩ := Wire.exists_frames_of_encode hline
  refine ⟨fun sent hsent => ?_, Client.answer?_arrived hframes, fun _ => run_call hquiet htext hsize hresult hline,
    fun records hrows hweight => ?_, fun hlong _ _ _ _ _ _ _ _ _ hbefore hanswered hcall after => ?_⟩
  · rw [List.length_append, List.length_singleton] at hsent
    exact Client.answer?_arriving hframes (Nat.le_of_lt_succ hsent)
  · subst hrows
    have hlong := Wire.weightOf_lt hline
    exact if_neg (by omega)
  · rw [Client.limited, if_neg (Nat.not_le.mpr hlong)] at hcall
    rw [Query.session_broken hbefore hanswered hcall]
    rfl

/-- Records of the least size. -/
def blanks (count : Nat) : List Record := List.replicate count ⟨1, [], []⟩

theorem weightOf_blanks (count : Nat) : Record.weightOf (blanks count) = 36 * count := by
  induction count with
  | zero => rfl
  | succ count ih =>
    change 36 + Record.weightOf (blanks count) = _
    omega

/-- A store with a table of them. -/
def storeOf (count : Nat) : MemoryStore := ⟨[("t", blanks count)], none, none, 0, 0⟩

theorem executeStatement_storeOf (count : Nat) : executeStatement (storeOf count) "SELECT * FROM t" =
    (.rows (blanks count), { storeOf count with loads := 1 }) := by
  have hparse : parse statementDigits "SELECT * FROM t" = .ok (.selectAll "t") := by decide +kernel
  rw [executeStatement, hparse]
  rfl

theorem exists_line_blanks (count : Nat) : ∃ line, Wire.encode (.rows (blanks count)) = .ok line := by
  refine Wire.encode_isOk_of_isTellable fun record hrecord => ?_
  obtain rfl := List.eq_of_mem_replicate hrecord
  have hshort : (Nat.toDigits 10 1).length ≤ digitLimit := by decide
  exact ⟨hshort, Text.isChars_ofChars [], Text.isChars_ofChars []⟩

theorem length_bytesOf_selectAll : (bytesOf "SELECT * FROM t").length ≤ 65536 := by
  decide

/-- One record is read, and is within all that is asked of a call. -/
theorem limited_of_encode_single : ∃ line, Wire.encode (.rows (blanks 1)) = .ok line ∧
    Limited (start 65536 (storeOf 1)) "SELECT * FROM t" (.rows (blanks 1)) line { storeOf 1 with loads := 1 } ∧
    Client.limited (.rows (blanks 1)) line = .ok (Result.payload (.rows (blanks 1))) := by
  obtain ⟨line, hline⟩ := exists_line_blanks 1
  have hlength : (Wire.encode (.rows (blanks 1))).toOption.all (·.length ≤ Client.lineLimit + 1) = true := by
    decide +kernel
  rw [hline] at hlength
  refine ⟨line, hline, ?_, if_pos (by simpa [Except.toOption] using hlength)⟩
  exact limited_of_encode hline (isQuiet_start _ _) (by decide) length_bytesOf_selectAll (executeStatement_storeOf 1)

/-- The server sends the whole answer to a statement, and the client does not return it. -/
theorem table_unread : ∃ line y, Wire.encode (.rows (blanks 1821)) = .ok line ∧
    (start 65536 (storeOf 1821)).run [.call "SELECT * FROM t", .serve 65536, .receive] = some y ∧
    y.served = [(bytesOf "SELECT * FROM t", .rows (blanks 1821))] ∧
    y.calls = [("SELECT * FROM t", .failed .lineTooLong)] := by
  obtain ⟨line, hline⟩ := exists_line_blanks 1821
  have hweight := Wire.weightOf_lt hline
  rw [weightOf_blanks] at hweight
  have hlong : Client.limited (.rows (blanks 1821)) line = .error .lineTooLong :=
    if_neg (Nat.not_le.mpr (Nat.lt_of_le_of_lt (by decide) hweight))
  have hrun := run_call (isQuiet_start 65536 (storeOf 1821)) (by decide) length_bytesOf_selectAll
    (executeStatement_storeOf 1821) hline length_bytesOf_selectAll
  rw [hlong] at hrun
  exact ⟨line, _, hline, hrun, rfl, rfl⟩

end Exchange

end TableServer
