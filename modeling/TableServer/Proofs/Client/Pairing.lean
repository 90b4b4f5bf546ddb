import TableServer.Client.Exchange
import TableServer.Proofs.Connection.Serving

namespace TableServer

/-- The answer that a call has returned with. -/
def CallOutcome.answer? : CallOutcome → Option Json.Value
  | returned answer => some answer
  | failed _ => none

/-- Whether a call was given up. -/
def CallOutcome.isLate : CallOutcome → Bool
  | failed .timedOut => true
  | _ => false

namespace Exchange

variable {σ : Type}

/-- The bytes of a statement. -/
def bytesOf (text : String) : Bytes := Utf8.encode text.toList

/-- The statements called so far. -/
def texts (x : Exchange σ) : List String := x.calls.map (·.1) ++ x.waiting.toList

/-- The answers returned by some calls. -/
def returned (calls : List (String × CallOutcome)) : List Json.Value := calls.filterMap (·.2.answer?)

/-- How many calls were given up. -/
def late (calls : List (String × CallOutcome)) : Nat := calls.countP (·.2.isLate)

variable [TableStore σ] {x y z : Exchange σ} {e : ExchangeEvent σ} {text : String}

/-- What each event does. -/
inductive Steps (x : Exchange σ) : ExchangeEvent σ → Exchange σ → Prop
  | call {text : String} (hidle : x.waiting = none) : Steps x (.call text)
      { x with waiting := some text, requests := x.requests ++ bytesOf text }
  | answer {arrived : Nat} {line : Bytes} {result : Result} {store : σ} (hopen : x.closed = false) (hne : x.chunk arrived ≠ [])
      (hhandle : handleChunk x.store (x.chunk arrived) = (result, store)) (hline : Wire.encode result = .ok line) :
      Steps x (.serve arrived) { x with
        store := store, requests := x.requests.drop (x.chunk arrived).length,
        served := x.served ++ [(x.chunk arrived, result)], replies := x.replies ++ line }
  | hangUp {arrived : Nat} {result : Result} {store : σ} {fault : WireFault} (hopen : x.closed = false)
      (hne : x.chunk arrived ≠ []) (hhandle : handleChunk x.store (x.chunk arrived) = (result, store))
      (hfault : Wire.encode result = .error fault) : Steps x (.serve arrived) { x with
        store := store, requests := x.requests.drop (x.chunk arrived).length,
        served := x.served ++ [(x.chunk arrived, result)], closed := true }
  | elsewhere {store : σ} : Steps x (.elsewhere store) { x with store := store }
  | receive {text : String} {answer : Except ClientFault Json.Value} (hwaiting : x.waiting = some text)
      (hanswer : Client.answer? x.replies x.closed = some answer) : Steps x .receive
      { x with replies := Client.dropLine x.replies, waiting := none, calls := x.calls ++ [(text, ofAnswer answer)] }
  | expire {text : String} (hwaiting : x.waiting = some text) : Steps x .expire
      { x with waiting := none, calls := x.calls ++ [(text, .failed .timedOut)] }

theorem steps_of_step (h : x.step e = some y) : Steps x e y := by
  cases e with
  | call text =>
    cases hwaiting : x.waiting with
    | some other => simp [step, hwaiting] at h
    | none =>
      simp only [step, hwaiting, Option.some.injEq] at h
      subst h
      exact .call hwaiting
  | serve arrived =>
    simp only [step, Option.ite_none_left_eq_some, Bool.or_eq_true, not_or, Option.some.injEq] at h
    obtain ⟨⟨hopen, hne⟩, h⟩ := h
    have hopen' : x.closed = false := by simpa using hopen
    have hne' : x.chunk arrived ≠ [] := by simpa using hne
    rcases hhandle : handleChunk x.store (x.chunk arrived) with ⟨result, store⟩
    simp only [stepServe, hhandle] at h
    cases hline : Wire.encode result with
    | ok line =>
      rw [hline] at h
      subst h
      exact .answer hopen' hne' hhandle hline
    | error fault =>
      rw [hline] at h
      subst h
      exact .hangUp hopen' hne' hhandle hline
  | elsewhere store =>
    simp only [step, Option.some.injEq] at h
    subst h
    exact .elsewhere
  | receive =>
    cases hwaiting : x.waiting with
    | none => simp [step, hwaiting] at h
    | some text =>
      cases hanswer : Client.answer? x.replies x.closed with
      | none => simp [step, hwaiting, hanswer] at h
      | some answer =>
        simp only [step, hwaiting, hanswer, Option.some.injEq] at h
        subst h
        exact .receive hwaiting hanswer
  | expire =>
    cases hwaiting : x.waiting with
    | none => simp [step, hwaiting] at h
    | some text =>
      simp only [step, hwaiting, Option.some.injEq] at h
      subst h
      exact .expire hwaiting

/-- What holds at first, and after every event that may happen where it holds, holds after a run. -/
theorem run_induction {P : Exchange σ → Prop} {events : List (ExchangeEvent σ)} (hrun : x.run events = some y) (hstart : P x)
    (hstep : ∀ e ∈ events, ∀ x y, P x → Steps x e y → P y) : P y := by
  induction events generalizing x with
  | nil =>
    obtain rfl := Option.some.inj hrun
    exact hstart
  | cons e events ih =>
    rw [run, List.foldlM_cons] at hrun
    obtain ⟨next, hnext, hrest⟩ := Option.bind_eq_some_iff.mp hrun
    apply ih hrest
    · exact hstep e List.mem_cons_self x next hstart (steps_of_step hnext)
    · exact fun e' he' => hstep e' (List.mem_cons_of_mem e he')

/-- No answer is too long for a client. -/
def IsShort (x : Exchange σ) : Prop :=
  ∀ entry ∈ x.served, ∀ line, Wire.encode entry.2 = .ok line → line.length ≤ Client.lineLimit + 1

/-- The server's answers come in the order in which it has read; the client has received the first of them, and the others
are on their way. When the server has gone, there are no more. -/
def IsTold (x : Exchange σ) : Prop :=
  ∃ received coming lines, received ++ coming <+: x.served.map (·.2) ∧
    (x.closed = false → received ++ coming = x.served.map (·.2)) ∧
    returned x.calls = received.map Result.payload ∧ Told coming lines ∧ x.replies = lines.flatten

/-- What the client has written is read in order, and answered in that order. -/
structure Ordered (x : Exchange σ) : Prop where
  cut : (x.served.map (·.1)).flatten ++ x.requests = (x.texts.map bytesOf).flatten
  told : x.IsTold
  executed : ∀ entry ∈ x.served, ∃ store : σ, (handleChunk store entry.1).1 = entry.2
  faults : ∀ c ∈ x.calls, ∀ fault, c.2 = .failed fault → fault = .timedOut ∨ fault = .hungUp
  gone : (∃ c ∈ x.calls, c.2 = .failed .hungUp) → x.closed = true ∧ x.replies = []
  last : x.calls.Pairwise fun c d => c.2 = .failed .hungUp → ∀ answer, d.2 ≠ .returned answer

/-- The answer at the front of what comes is received as a whole. -/
theorem answer?_of_frames {r : Result} {body : Bytes} (h : Wire.Frames r body) (hshort : body.length ≤ Client.lineLimit)
    (more : Bytes) (closed : Bool) : Client.answer? (body ++ [10] ++ more) closed = some (.ok r.payload) ∧
      Client.dropLine (body ++ [10] ++ more) = more := by
  have hbody := Wire.ne_newline h.single
  have htake : (body ++ [10] ++ more).takeWhile (· ≠ 10) = body := by
    rw [List.append_assoc]
    exact takeWhile_run hbody (by simp)
  have hdrop : (body ++ [10] ++ more).dropWhile (· ≠ 10) = 10 :: more := by
    rw [List.append_assoc]
    exact dropWhile_run hbody (by simp)
  constructor
  · have hless : body.length < (body ++ [10] ++ more).length := by
      simp only [List.length_append, List.length_singleton]
      omega
    rw [Client.answer?, Client.line?, htake, if_neg (Nat.not_lt.mpr hshort), if_pos hless]
    change some (Client.readLine (body ++ [10])) = _
    rw [h.read.1]
  · rw [Client.dropLine, hdrop]
    rfl

/-- Without anything on its way a client learns at most that the server has gone. -/
theorem answer?_nil (closed : Bool) : Client.answer? [] closed = if closed then some (.error .hungUp) else none := by
  cases closed <;> rfl

/-- What a client receives: the first of the answers on their way, or that the server has gone. -/
inductive Receives (x : Exchange σ) (coming : List Result) (lines : List Bytes) : Except ClientFault Json.Value → Prop
  | answer {r : Result} {rest : List Result} {more : List Bytes} (hcoming : coming = r :: rest) (hmore : Told rest more)
    (hreplies : Client.dropLine x.replies = more.flatten) : Receives x coming lines (.ok r.payload)
  | gone (hcoming : coming = []) (hclosed : x.closed = true) (hreplies : Client.dropLine x.replies = []) :
    Receives x coming lines (.error .hungUp)

omit [TableStore σ] in
/-- A client takes the first answer that has come, however much has come behind it. -/
theorem receives_of_answer? {coming : List Result} {lines : List Bytes} {answer : Except ClientFault Json.Value}
    (htold : Told coming lines) (hreplies : x.replies = lines.flatten)
    (hshort : ∀ r ∈ coming, ∀ line, Wire.encode r = .ok line → line.length ≤ Client.lineLimit + 1)
    (hanswer : Client.answer? x.replies x.closed = some answer) : Receives x coming lines answer := by
  cases htold with
  | nil =>
    rw [hreplies, List.flatten_nil, answer?_nil] at hanswer
    cases hclosed : x.closed with
    | false => simp [hclosed] at hanswer
    | true =>
      rw [hclosed] at hanswer
      cases hanswer
      refine .gone rfl hclosed ?_
      rw [hreplies]
      rfl
  | @cons r line rest more hline hmore =>
    obtain ⟨body, rfl, hframes⟩ := Wire.exists_frames_of_encode hline
    have hlength := hshort r List.mem_cons_self _ hline
    rw [List.length_append, List.length_singleton] at hlength
    obtain ⟨hfirst, hrest⟩ := answer?_of_frames hframes (by omega) more.flatten x.closed
    rw [← List.flatten_cons, ← hreplies] at hfirst hrest
    obtain rfl := Option.some.inj (hfirst.symm.trans hanswer)
    exact .answer rfl hmore hrest

omit [TableStore σ] in
/-- Nothing of what was written is lost in reading. -/
theorem chunk_append (x : Exchange σ) (arrived : Nat) :
    x.chunk arrived ++ x.requests.drop (x.chunk arrived).length = x.requests := by
  have hfront : x.chunk arrived <+: x.requests := List.take_prefix _ _
  obtain ⟨rest, hrest⟩ := hfront
  rw [← hrest, List.drop_left]

omit [TableStore σ] in
theorem returned_concat (calls : List (String × CallOutcome)) (text : String) (outcome : CallOutcome) :
    returned (calls ++ [(text, outcome)]) = returned calls ++ outcome.answer?.toList := by
  unfold returned
  cases h : outcome.answer? <;> simp [h]

theorem ordered_start (size : Nat) (store : σ) : Ordered (start size store) where
  cut := rfl
  told := ⟨[], [], [], List.nil_prefix, fun _ => rfl, rfl, .nil, rfl⟩
  executed := by simp [start]
  faults := by simp [start]
  gone := by simp [start]
  last := List.Pairwise.nil

/-- A chunk is read, whatever becomes of the answer. -/
theorem Ordered.cut_serve (h : Ordered x) (arrived : Nat) (result : Result) :
    ((x.served ++ [(x.chunk arrived, result)]).map (·.1)).flatten ++ x.requests.drop (x.chunk arrived).length =
      (x.texts.map bytesOf).flatten := by
  rw [← h.cut, List.map_append, List.flatten_append, List.append_assoc]
  conv => rhs; rw [← x.chunk_append arrived]
  simp

theorem Ordered.executed_serve (h : Ordered x) {chunk : Bytes} {result : Result} {store : σ}
    (hhandle : handleChunk x.store chunk = (result, store)) :
    ∀ entry ∈ x.served ++ [(chunk, result)], ∃ store : σ, (handleChunk store entry.1).1 = entry.2 := by
  intro entry hentry
  obtain hentry | hentry := List.mem_append.mp hentry
  · exact h.executed entry hentry
  · obtain rfl := List.mem_singleton.mp hentry
    exact ⟨x.store, by rw [hhandle]⟩

/-- Where there is an answer to receive, no call has learned that the server has gone. -/
theorem Ordered.not_gone (h : Ordered x) {answer : Json.Value}
    (hanswer : Client.answer? x.replies x.closed = some (.ok answer)) : ∀ c ∈ x.calls, c.2 ≠ .failed .hungUp := by
  intro c hc hgone
  obtain ⟨hclosed, hreplies⟩ := h.gone ⟨c, hc, hgone⟩
  rw [hreplies, hclosed, answer?_nil] at hanswer
  cases hanswer

/-- A call that ends, with an answer if there is one to receive, and else with a fault. -/
inductive Ends (x : Exchange σ) : CallOutcome → Prop
  | returned {answer : Json.Value} (hnone : ∀ c ∈ x.calls, c.2 ≠ .failed .hungUp) : Ends x (.returned answer)
  | late : Ends x (.failed .timedOut)
  | gone : Ends x (.failed .hungUp)

/-- With short lines a call fails only by its time or by the end of the connection. -/
theorem Ordered.faults_concat (h : Ordered x) {outcome : CallOutcome} (hends : Ends x outcome) :
    ∀ c ∈ x.calls ++ [(text, outcome)], ∀ fault, c.2 = .failed fault → fault = .timedOut ∨ fault = .hungUp := by
  intro c hc fault hfault
  obtain hc | hc := List.mem_append.mp hc
  · exact h.faults c hc fault hfault
  · obtain rfl := List.mem_singleton.mp hc
    cases hends with
    | returned => cases hfault
    | late =>
      cases hfault
      exact .inl rfl
    | gone =>
      cases hfault
      exact .inr rfl

theorem Ordered.last_concat (h : Ordered x) {outcome : CallOutcome} (hends : Ends x outcome) :
    (x.calls ++ [(text, outcome)]).Pairwise fun c d => c.2 = .failed .hungUp → ∀ answer, d.2 ≠ .returned answer := by
  apply List.pairwise_append.mpr
  refine ⟨h.last, List.pairwise_singleton _ _, ?_⟩
  intro c hc d hd hgone answer hanswer
  obtain rfl := List.mem_singleton.mp hd
  cases hends with
  | returned hnone => exact hnone c hc hgone
  | late => cases hanswer
  | gone => cases hanswer

/-- A call ends, with what has been received then. -/
theorem Ordered.finish (h : Ordered x) {outcome : CallOutcome} {replies : Bytes} (hwaiting : x.waiting = some text)
    (hends : Ends x outcome)
    (htold : IsTold { x with replies := replies, waiting := none, calls := x.calls ++ [(text, outcome)] })
    (hgone : outcome = .failed .hungUp ∨ (∃ c ∈ x.calls, c.2 = .failed .hungUp) → x.closed = true ∧ replies = []) :
    Ordered { x with replies := replies, waiting := none, calls := x.calls ++ [(text, outcome)] } where
  cut := by
    have hcut := h.cut
    simpa [texts, hwaiting] using hcut
  told := htold
  executed := h.executed
  faults := h.faults_concat hends
  gone := by
    rintro ⟨c, hc, hfault⟩
    apply hgone
    obtain hc | hc := List.mem_append.mp hc
    · exact .inr ⟨c, hc, hfault⟩
    · obtain rfl := List.mem_singleton.mp hc
      exact .inl hfault
  last := h.last_concat hends

theorem Ordered.receive (h : Ordered x) (hshort : x.IsShort) {answer : Except ClientFault Json.Value}
    (hwaiting : x.waiting = some text) (hanswer : Client.answer? x.replies x.closed = some answer) :
    Ordered { x with
      replies := Client.dropLine x.replies, waiting := none, calls := x.calls ++ [(text, ofAnswer answer)] } := by
  obtain ⟨received, coming, lines, hfront, hall, hreturned, htold, hreplies⟩ := h.told
  have hshort' : ∀ r ∈ coming, ∀ line, Wire.encode r = .ok line → line.length ≤ Client.lineLimit + 1 := by
    intro r hr
    obtain ⟨entry, hentry, rfl⟩ := List.mem_map.mp (hfront.subset (List.mem_append_right received hr))
    exact hshort entry hentry
  cases receives_of_answer? htold hreplies hshort' hanswer with
  | @answer r rest more hcoming hmore hrest =>
    subst hcoming
    apply h.finish hwaiting (.returned (h.not_gone hanswer))
    · refine ⟨received ++ [r], rest, more, by simpa using hfront, by simpa using hall, ?_, hmore, hrest⟩
      rw [returned_concat, hreturned]
      simp [CallOutcome.answer?]
    · rintro (hgone | ⟨c, hc, hgone⟩)
      · cases hgone
      · exact absurd hgone (h.not_gone hanswer c hc)
  | gone hcoming hclosed hrest =>
    subst hcoming
    apply h.finish hwaiting .gone
    · refine ⟨received, [], [], hfront, hall, ?_, .nil, hrest⟩
      rw [returned_concat, hreturned]
      simp [CallOutcome.answer?]
    · exact fun _ => ⟨hclosed, hrest⟩

/-- A call that is given up leaves its answer where it is, for the next call to take. -/
theorem Ordered.expire (h : Ordered x) (hwaiting : x.waiting = some text) :
    Ordered { x with waiting := none, calls := x.calls ++ [(text, .failed .timedOut)] } := by
  obtain ⟨received, coming, lines, hfront, hall, hreturned, htold, hreplies⟩ := h.told
  apply h.finish hwaiting .late
  · refine ⟨received, coming, lines, hfront, hall, ?_, htold, hreplies⟩
    rw [returned_concat, hreturned]
    simp [CallOutcome.answer?]
  · rintro (hgone | hgone)
    · cases hgone
    · exact h.gone hgone

theorem Ordered.not_closed (h : Ordered x) (hopen : x.closed = false) : ¬ ∃ c ∈ x.calls, c.2 = .failed .hungUp := by
  intro hgone
  have hclosed := (h.gone hgone).1
  rw [hopen] at hclosed
  contradiction

theorem Ordered.step (h : Ordered x) (hshort : x.IsShort) (hstep : Steps x e y) : Ordered y := by
  obtain ⟨received, coming, lines, hfront, hall, hreturned, htold, hreplies⟩ := h.told
  cases hstep with
  | @call text hidle =>
    refine ⟨?_, h.told, h.executed, h.faults, h.gone, h.last⟩
    have hcut := h.cut
    simp only [texts, hidle, Option.toList_none, List.append_nil] at hcut
    simp only [texts, Option.toList_some, List.map_append, List.flatten_append, ← hcut, List.append_assoc]
    simp
  | @answer arrived line result store hopen hne hhandle hline =>
    refine ⟨h.cut_serve arrived result, ?_, h.executed_serve hhandle, h.faults,
      fun hgone => absurd hgone (h.not_closed hopen), h.last⟩
    refine ⟨received, coming ++ [result], lines ++ [line], ?_, fun _ => ?_, hreturned, ?_, ?_⟩
    · simp [← hall hopen]
    · simp [← hall hopen]
    · exact List.rel_append htold (.cons hline .nil)
    · simp [hreplies]
  | @hangUp arrived result store fault hopen hne hhandle hfault =>
    refine ⟨h.cut_serve arrived result, ?_, h.executed_serve hhandle, h.faults,
      fun hgone => absurd hgone (h.not_closed hopen), h.last⟩
    refine ⟨received, coming, lines, ?_, by simp, hreturned, htold, hreplies⟩
    rw [hall hopen]
    simp
  | elsewhere => exact ⟨h.cut, h.told, h.executed, h.faults, h.gone, h.last⟩
  | receive hwaiting hanswer => exact h.receive hshort hwaiting hanswer
  | expire hwaiting => exact h.expire hwaiting

/-- An event takes nothing back that has been served or called. -/
theorem Steps.grows (h : Steps x e y) :
    x.served <+: y.served ∧ x.calls <+: y.calls ∧ x.texts <+: y.texts ∧ y.size = x.size := by
  cases h with
  | call hidle => exact ⟨List.prefix_rfl, List.prefix_rfl, by simp [texts, hidle], rfl⟩
  | answer => exact ⟨List.prefix_append _ _, List.prefix_rfl, List.prefix_rfl, rfl⟩
  | hangUp => exact ⟨List.prefix_append _ _, List.prefix_rfl, List.prefix_rfl, rfl⟩
  | elsewhere => exact ⟨List.prefix_rfl, List.prefix_rfl, List.prefix_rfl, rfl⟩
  | receive hwaiting => exact ⟨List.prefix_rfl, List.prefix_append _ _, by simp [texts, hwaiting], rfl⟩
  | expire hwaiting => exact ⟨List.prefix_rfl, List.prefix_append _ _, by simp [texts, hwaiting], rfl⟩

theorem Steps.isShort (h : Steps x e y) (hshort : y.IsShort) : x.IsShort := by
  intro entry hentry
  exact hshort entry (h.grows.1.subset hentry)

/-- The statements have a character each, and are short enough to be read at once. -/
def IsSized (x : Exchange σ) : Prop := ∀ text ∈ x.texts, text ≠ "" ∧ (bytesOf text).length ≤ x.size

/-- Sizes that are right in the end were right all the time. -/
theorem Steps.isSized (h : Steps x e y) (hsized : y.IsSized) : x.IsSized := by
  obtain ⟨_, _, htexts, hsize⟩ := h.grows
  intro text htext
  rw [← hsize]
  exact hsized text (htexts.subset htext)

/-- Each chunk that the server has read is a statement. -/
def IsWhole (x : Exchange σ) : Prop := x.served.map (·.1) <+: x.texts.map bytesOf

omit [TableStore σ] in
/-- Calls that have not found the server gone have returned or were given up. -/
theorem length_calls {calls : List (String × CallOutcome)}
    (hfaults : ∀ c ∈ calls, ∀ fault, c.2 = .failed fault → fault = .timedOut ∨ fault = .hungUp)
    (hnone : ∀ c ∈ calls, c.2 ≠ .failed .hungUp) : calls.length = (returned calls).length + late calls := by
  induction calls with
  | nil => rfl
  | cons c calls ih =>
    simp only [List.forall_mem_cons] at hfaults hnone
    have hrest := ih hfaults.2 hnone.2
    unfold returned late at hrest ⊢
    cases houtcome : c.2 with
    | returned answer =>
      have hanswer : c.2.answer? = some answer := by rw [houtcome]; rfl
      have hlate : c.2.isLate = false := by rw [houtcome]; rfl
      simp only [List.filterMap_cons, List.countP_cons, List.length_cons, hanswer, hlate, Bool.false_eq_true, ↓reduceIte]
      omega
    | failed fault =>
      obtain rfl | rfl := hfaults.1 fault houtcome
      · have hanswer : c.2.answer? = none := by rw [houtcome]; rfl
        have hlate : c.2.isLate = true := by rw [houtcome]; rfl
        simp only [List.filterMap_cons, List.countP_cons, List.length_cons, hanswer, hlate, ↓reduceIte]
        omega
      · exact absurd houtcome hnone.1

/-- While the connection is open and no call was given up, no more than one statement has still to be read. -/
theorem IsWhole.pending (h : x.IsWhole) (hordered : x.Ordered) (hopen : x.closed = false) (hlate : late x.calls = 0) :
    ∃ unread, x.served.map (·.1) ++ unread = x.texts.map bytesOf ∧ x.requests = unread.flatten ∧ unread.length ≤ 1 := by
  obtain ⟨unread, hunread⟩ := h
  obtain ⟨received, coming, lines, _, hall, hreturned, _, _⟩ := hordered.told
  refine ⟨unread, hunread, ?_, ?_⟩
  · have hcut := hordered.cut
    rw [← hunread, List.flatten_append] at hcut
    exact List.append_cancel_left hcut
  · have hnone : ∀ c ∈ x.calls, c.2 ≠ .failed .hungUp :=
      fun c hc hgone => hordered.not_closed hopen ⟨c, hc, hgone⟩
    have hcalls := length_calls hordered.faults hnone
    have hanswers := congrArg List.length hreturned
    have hserved := congrArg List.length (hall hopen)
    have hchunks := congrArg List.length hunread
    have hwaiting : x.waiting.toList.length ≤ 1 := by cases x.waiting <;> simp
    simp only [texts, List.length_map, List.length_append] at hanswers hserved hchunks
    omega

/-- Where all has arrived that was written, the statement is read as a whole. -/
theorem IsWhole.serve (h : x.IsWhole) (hordered : x.Ordered) (hsized : x.IsSized) (hopen : x.closed = false)
    (hlate : late x.calls = 0) {arrived : Nat} (harrived : x.size ≤ arrived) (hne : x.chunk arrived ≠ []) (result : Result) :
    (x.served ++ [(x.chunk arrived, result)]).map (·.1) <+: x.texts.map bytesOf := by
  obtain ⟨unread, hunread, hrequests, hlength⟩ := h.pending hordered hopen hlate
  unfold chunk at hne ⊢
  rw [Nat.min_eq_right harrived, hrequests] at hne ⊢
  match unread, hlength with
  | [], _ => simp at hne
  | [statement], _ =>
    have hmem : statement ∈ x.texts.map bytesOf := by
      rw [← hunread]
      simp
    obtain ⟨text, htext, rfl⟩ := List.mem_map.mp hmem
    have hfits := (hsized text htext).2
    rw [List.flatten_singleton, List.take_of_length_le hfits, List.map_append, ← hunread]
    exact List.prefix_rfl

/-- As long as all arrives and no call is given up, chunks are statements. -/
theorem IsWhole.step (h : x.IsWhole) (hordered : x.Ordered) (hsized : x.IsSized) (hlate : late x.calls = 0)
    (hstep : Steps x e y) (harrived : ∀ n, e = .serve n → x.size ≤ n) : y.IsWhole := by
  obtain ⟨_, _, htexts, _⟩ := hstep.grows
  have hgrown : x.served.map (·.1) <+: y.texts.map bytesOf := h.trans (htexts.map bytesOf)
  cases hstep with
  | answer hopen hne => exact h.serve hordered hsized hopen hlate (harrived _ rfl) hne _
  | hangUp hopen hne => exact h.serve hordered hsized hopen hlate (harrived _ rfl) hne _
  | _ => exact hgrown

/-- The answer of a call that returns is the one to the chunk that was read as many chunks earlier as calls before it were
given up. -/
theorem Ordered.answer (h : x.Ordered) {i : Nat} {text : String} {answer : Json.Value}
    (hcall : x.calls[i]? = some (text, .returned answer)) :
    ∃ chunk r, x.served[i - late (x.calls.take i)]? = some (chunk, r) ∧ answer = r.payload := by
  obtain ⟨received, coming, lines, ⟨rest, hserved⟩, _, hreturned, _, _⟩ := h.told
  obtain ⟨hi, hget⟩ := List.getElem?_eq_some_iff.mp hcall
  have hsplit : x.calls = x.calls.take i ++ (text, .returned answer) :: x.calls.drop (i + 1) := by
    rw [← hget, ← List.drop_eq_getElem_cons hi, List.take_append_drop]
  have hnone : ∀ c ∈ x.calls.take i, c.2 ≠ .failed .hungUp := by
    intro c hc hgone
    have hlast := h.last
    rw [hsplit] at hlast
    exact (List.pairwise_append.mp hlast).2.2 c hc _ List.mem_cons_self hgone answer rfl
  have hlength := length_calls (fun c hc => h.faults c (List.mem_of_mem_take hc)) hnone
  rw [List.length_take] at hlength
  have hindex : i - late (x.calls.take i) = (returned (x.calls.take i)).length := by omega
  have hanswers : received.map Result.payload =
      returned (x.calls.take i) ++ answer :: returned (x.calls.drop (i + 1)) := by
    rw [← hreturned]
    conv => lhs; rw [hsplit]
    simp [returned, CallOutcome.answer?]
  have hplace : (received.map Result.payload)[i - late (x.calls.take i)]? = some answer := by
    rw [hanswers, hindex]
    simp
  obtain ⟨r, hr, hpayload⟩ : ∃ r, received[i - late (x.calls.take i)]? = some r ∧ r.payload = answer := by
    simpa using hplace
  have hresult : (x.served.map (·.2))[i - late (x.calls.take i)]? = some r := by
    have hless := (List.getElem?_eq_some_iff.mp hr).1
    rw [← hserved, List.append_assoc, List.getElem?_append_left hless, hr]
  obtain ⟨⟨chunk, r'⟩, hentry, hsame⟩ : ∃ entry, x.served[i - late (x.calls.take i)]? = some entry ∧ entry.2 = r := by
    simpa using hresult
  obtain rfl : r' = r := hsame
  exact ⟨chunk, r', hentry, hpayload.symm⟩

/-- Where each chunk is a statement, that chunk is the statement called as many calls before. -/
theorem IsWhole.answer (h : x.IsWhole) (hordered : x.Ordered) {i : Nat} {text : String} {answer : Json.Value}
    (hcall : x.calls[i]? = some (text, .returned answer)) :
    ∃ earlier r, x.texts[i - late (x.calls.take i)]? = some earlier ∧
      x.served[i - late (x.calls.take i)]? = some (bytesOf earlier, r) ∧ answer = r.payload := by
  obtain ⟨chunk, r, hentry, hanswer⟩ := hordered.answer hcall
  obtain ⟨rest, hrest⟩ := h
  have hchunk : (x.texts.map bytesOf)[i - late (x.calls.take i)]? = some chunk := by
    have hread : (x.served.map (·.1))[i - late (x.calls.take i)]? = some chunk := by
      rw [List.getElem?_map, hentry]
      rfl
    have hless := (List.getElem?_eq_some_iff.mp hread).1
    rw [← hrest, List.getElem?_append_left hless, hread]
  rw [List.getElem?_map] at hchunk
  obtain ⟨earlier, hearlier, rfl⟩ := Option.map_eq_some_iff.mp hchunk
  exact ⟨earlier, r, hearlier, hentry, hanswer⟩

/-- Each call that returns before any is given up does so with the answer to its statement. -/
def ReturnsOwn (x : Exchange σ) : Prop :=
  ∀ (i : Nat) (text : String) (answer : Json.Value), x.calls[i]? = some (text, .returned answer) →
    late (x.calls.take i) = 0 → ∃ r, x.served[i]? = some (bytesOf text, r) ∧ answer = r.payload

theorem IsWhole.returnsOwn (h : x.IsWhole) (hordered : x.Ordered) : x.ReturnsOwn := by
  intro i text answer hcall hlate
  obtain ⟨earlier, r, hearlier, hentry, hanswer⟩ := h.answer hordered hcall
  rw [hlate, Nat.sub_zero] at hearlier hentry
  have htext : x.texts[i]? = some text := by
    have hless := (List.getElem?_eq_some_iff.mp hcall).1
    rw [texts, List.getElem?_append_left (by simpa using hless), List.getElem?_map, hcall]
    rfl
  obtain rfl := Option.some.inj (hearlier.symm.trans htext)
  exact ⟨r, hentry, hanswer⟩

omit [TableStore σ] in
theorem late_concat (calls : List (String × CallOutcome)) (c : String × CallOutcome) :
    late (calls ++ [c]) = late calls + if c.2.isLate then 1 else 0 := by
  simp [late, List.countP_append, List.countP_singleton]

theorem Steps.calls (h : Steps x e y) : y.calls = x.calls ∨ ∃ c, y.calls = x.calls ++ [c] := by
  cases h with
  | receive => exact .inr ⟨_, rfl⟩
  | expire => exact .inr ⟨_, rfl⟩
  | _ => exact .inl rfl

/-- A call that ends after one was given up changes nothing for the calls before that. -/
theorem ReturnsOwn.step (h : x.ReturnsOwn) (hstep : Steps x e y) (hlate : late y.calls ≠ 0) : y.ReturnsOwn := by
  intro i text answer hcall hbefore
  have hold : x.calls[i]? = some (text, .returned answer) ∧ late (x.calls.take i) = 0 := by
    obtain hsame | ⟨c, hmore⟩ := hstep.calls
    · rw [hsame] at hcall hbefore
      exact ⟨hcall, hbefore⟩
    · rw [hmore] at hcall hbefore hlate
      obtain hless | hge := Nat.lt_or_ge i x.calls.length
      · rw [List.getElem?_append_left hless] at hcall
        rw [List.take_append_of_le_length (Nat.le_of_lt hless)] at hbefore
        exact ⟨hcall, hbefore⟩
      · rw [List.getElem?_append_right hge] at hcall
        obtain ⟨hzero, rfl⟩ : i - x.calls.length = 0 ∧ c = (text, .returned answer) := by
          obtain ⟨hless, hget⟩ := List.getElem?_eq_some_iff.mp hcall
          rw [List.length_singleton] at hless
          refine ⟨by omega, ?_⟩
          simpa using hget
        obtain rfl : i = x.calls.length := by omega
        rw [List.take_left' rfl] at hbefore
        rw [late_concat, hbefore] at hlate
        exact absurd rfl hlate
  obtain ⟨r, hentry, hanswer⟩ := h i text answer hold.1 hold.2
  obtain ⟨rest, hrest⟩ := hstep.grows.1
  have hless := (List.getElem?_eq_some_iff.mp hentry).1
  exact ⟨r, by rw [← hrest, List.getElem?_append_left hless, hentry], hanswer⟩

/-- What holds where all that was written has arrived whenever the server reads. -/
structure Prompt (x : Exchange σ) : Prop where
  ordered : x.Ordered
  whole : late x.calls = 0 → x.IsWhole
  own : x.ReturnsOwn

/-- Until a call is given up chunks are whole, and from then on the calls before it are as they were. -/
theorem Prompt.step (h : x.Prompt) (hshort : y.IsShort) (hsized : y.IsSized) (hstep : Steps x e y)
    (harrived : ∀ n, e = .serve n → x.size ≤ n) : y.Prompt := by
  have hordered := h.ordered.step (hstep.isShort hshort) hstep
  have hwhole : late y.calls = 0 → y.IsWhole := by
    intro hlate
    have hbefore : late x.calls = 0 := by
      obtain ⟨more, hmore⟩ := hstep.grows.2.1
      rw [← hmore, late, List.countP_append] at hlate
      exact (Nat.add_eq_zero_iff.mp hlate).1
    exact (h.whole hbefore).step h.ordered (hstep.isSized hsized) hbefore hstep harrived
  refine ⟨hordered, hwhole, ?_⟩
  by_cases hlate : late y.calls = 0
  · exact (hwhole hlate).returnsOwn hordered
  · exact h.own.step hstep hlate

section

variable {size : Nat} {store : σ} {events : List (ExchangeEvent σ)}

theorem size_of_run (hrun : (start size store).run events = some x) : x.size = size := by
  apply run_induction (P := fun y => y.size = size) hrun rfl
  intro e _ y z hy hstep
  exact hstep.grows.2.2.2.trans hy

theorem ordered_of_run (hrun : (start size store).run events = some x) (hshort : x.IsShort) : x.Ordered := by
  refine run_induction (P := fun y => y.IsShort → y.Ordered) hrun (fun _ => ordered_start size store) ?_ hshort
  intro e _ y z hy hstep hz
  have hshort' := hstep.isShort hz
  exact (hy hshort').step hshort' hstep

theorem prompt_of_run (hrun : (start size store).run events = some x) (hsized : x.IsSized) (hshort : x.IsShort)
    (harrived : ∀ n, .serve n ∈ events → x.size ≤ n) : x.Prompt := by
  have hall : x.size = size ∧ (x.IsSized ∧ x.IsShort → x.Prompt) := by
    apply run_induction (P := fun y => y.size = size ∧ (y.IsSized ∧ y.IsShort → y.Prompt)) hrun
    · have hordered : (start size store).Ordered := ordered_start size store
      have hwhole : (start size store).IsWhole := List.prefix_rfl
      exact ⟨rfl, fun _ => ⟨hordered, fun _ => hwhole, hwhole.returnsOwn hordered⟩⟩
    · intro e he y z hy hstep
      refine ⟨hstep.grows.2.2.2.trans hy.1, fun hz => ?_⟩
      apply (hy.2 ⟨hstep.isSized hz.1, hstep.isShort hz.2⟩).step hz.2 hz.1 hstep
      rintro n rfl
      rw [hy.1, ← size_of_run hrun]
      exact harrived n he
  exact hall.2 ⟨hsized, hshort⟩

end

/-- What the server reads is cut from the statements in a row, wherever they are cut, and is answered in that order. A call
that returns does so with the answer to the chunk that was read as many chunks before as calls were given up. If each chunk
is a statement that is the answer to an earlier statement, and if all that was written has arrived whenever the server
reads, all calls that return before any is given up return the answers to their own statements. -/
structure Pairs (events : List (ExchangeEvent σ)) (x : Exchange σ) : Prop where
  cut : (x.served.map (·.1)).flatten ++ x.requests = (x.texts.map bytesOf).flatten
  executed : ∀ entry ∈ x.served, ∃ store : σ, (handleChunk store entry.1).1 = entry.2
  shifted (i : Nat) (text : String) (answer : Json.Value) : x.calls[i]? = some (text, .returned answer) →
    ∃ chunk r, x.served[i - late (x.calls.take i)]? = some (chunk, r) ∧ answer = r.payload
  earlier (i : Nat) (text : String) (answer : Json.Value) : x.served.map (·.1) <+: x.texts.map bytesOf →
    x.calls[i]? = some (text, .returned answer) → ∃ other r, x.texts[i - late (x.calls.take i)]? = some other ∧
      x.served[i - late (x.calls.take i)]? = some (bytesOf other, r) ∧ answer = r.payload
  own (i : Nat) (text : String) (answer : Json.Value) : (∀ n, .serve n ∈ events → x.size ≤ n) →
    x.calls[i]? = some (text, .returned answer) → late (x.calls.take i) = 0 →
      ∃ r, x.served[i]? = some (bytesOf text, r) ∧ answer = r.payload

/-- Answers come in the order in which the server has read, and a client takes the first that comes, whichever call it
was for. -/
theorem run_pairs {size : Nat} {store : σ} {events : List (ExchangeEvent σ)} (hrun : (start size store).run events = some x)
    (hsized : x.IsSized) (hshort : x.IsShort) : Pairs events x where
  cut := (ordered_of_run hrun hshort).cut
  executed := (ordered_of_run hrun hshort).executed
  shifted _ _ _ hcall := (ordered_of_run hrun hshort).answer hcall
  earlier _ _ _ hwhole hcall := IsWhole.answer hwhole (ordered_of_run hrun hshort) hcall
  own i text answer harrived := (prompt_of_run hrun hsized hshort harrived).own i text answer

/-- What is asked of an exchange, as a check. -/
def isFit (x : Exchange σ) : Bool :=
  (x.texts.all fun text => text ≠ "" && (bytesOf text).length ≤ x.size) &&
    x.served.all fun entry => (Wire.encode entry.2).toOption.all (·.length ≤ Client.lineLimit + 1)

omit [TableStore σ] in
theorem isSized_of_isFit (h : x.isFit = true) : x.IsSized ∧ x.IsShort := by
  simp only [isFit, Bool.and_eq_true, List.all_eq_true, decide_eq_true_eq] at h
  refine ⟨fun text htext => ?_, fun entry hentry line hline => ?_⟩
  · simpa using h.1 text htext
  · simpa [hline, Except.toOption] using h.2 entry hentry

/-- A call that returns, one that is given up before its answer has come, and one more. -/
def lateEvents : List (ExchangeEvent MemoryStore) :=
  [.call "INSERT INTO a (name) VALUES (x)", .serve 65536, .receive, .call "SELECT * FROM a", .serve 65536, .expire,
    .call "SELECT * FROM a WHERE id = 2", .serve 65536, .receive]

def lateTexts : List String := ["INSERT INTO a (name) VALUES (x)", "SELECT * FROM a", "SELECT * FROM a WHERE id = 2"]

def lateResults : List Result :=
  [.inserted ⟨1, Text.ofString "x", []⟩, .rows [⟨1, Text.ofString "x", []⟩], .notFound]

/-- Each of the statements is read by itself, and the third call returns. -/
theorem run_late : ∃ x, (start 65536 MemoryStore.empty).run lateEvents = some x ∧ x.isFit = true ∧ x.texts = lateTexts ∧
    x.served = (lateTexts.map bytesOf).zip lateResults ∧ late (x.calls.take 2) = 1 ∧
    ∃ answer, x.calls[2]? = some ("SELECT * FROM a WHERE id = 2", .returned answer) := by
  have hran : ((start 65536 MemoryStore.empty).run lateEvents).any (fun x => x.isFit && x.texts = lateTexts &&
      x.served = (lateTexts.map bytesOf).zip lateResults && late (x.calls.take 2) = 1 &&
      x.calls[2]?.any (fun c => c.1 = "SELECT * FROM a WHERE id = 2" && c.2.answer?.isSome)) = true := by
    decide +kernel
  rcases hrun : (start 65536 MemoryStore.empty).run lateEvents with _ | x
  · simp [hrun] at hran
  · simp only [hrun, Option.any_some, Bool.and_eq_true, decide_eq_true_eq, Option.any_eq_true] at hran
    obtain ⟨⟨⟨⟨hfit, htexts⟩, hserved⟩, hlate⟩, ⟨text, outcome⟩, hcall, htext, hanswer⟩ := hran
    cases outcome with
    | failed fault => simp [CallOutcome.answer?] at hanswer
    | returned answer =>
      obtain rfl := htext
      exact ⟨x, rfl, hfit, htexts, hserved, hlate, answer, hcall⟩

/-- The third call returns the answer to the second statement. -/
theorem run_pairs_late : ∃ x answer r, (start 65536 MemoryStore.empty).run lateEvents = some x ∧ x.IsSized ∧ x.IsShort ∧
    x.calls[2]? = some ("SELECT * FROM a WHERE id = 2", .returned answer) ∧
    x.served[1]? = some (bytesOf "SELECT * FROM a", r) ∧ answer = r.payload := by
  obtain ⟨x, hrun, hfit, htexts, hserved, hlate, answer, hcall⟩ := run_late
  obtain ⟨hsized, hshort⟩ := isSized_of_isFit hfit
  have hwhole : x.served.map (·.1) <+: x.texts.map bytesOf := by
    simp [htexts, hserved, lateTexts, lateResults]
  obtain ⟨other, r, hother, hentry, hanswer⟩ := (run_pairs hrun hsized hshort).earlier 2 _ answer hwhole hcall
  rw [htexts, hlate] at hother
  obtain rfl : "SELECT * FROM a" = other := Option.some.inj hother
  rw [hlate] at hentry
  exact ⟨x, answer, r, hrun, hsized, hshort, hcall, hentry, hanswer⟩

/-- The statement of a call that returns has a result of its own, and the call does not return with that. -/
theorem answers_shifted : ∃ x text answer own, (start 65536 MemoryStore.empty).run lateEvents = some x ∧
    x.IsSized ∧ x.IsShort ∧ x.calls[2]? = some (text, .returned answer) ∧ x.served[2]? = some (bytesOf text, own) ∧
      answer ≠ own.payload := by
  obtain ⟨x, hrun, hfit, _, hserved, hlate, answer, hcall⟩ := run_late
  obtain ⟨hsized, hshort⟩ := isSized_of_isFit hfit
  obtain ⟨chunk, r, hentry, hanswer⟩ := (ordered_of_run hrun hshort).answer hcall
  rw [hserved, hlate] at hentry
  obtain ⟨_, rfl⟩ := Prod.mk.inj (Option.some.inj hentry)
  refine ⟨x, _, answer, .notFound, hrun, hsized, hshort, hcall, by rw [hserved]; rfl, ?_⟩
  rw [hanswer]
  simp [Result.payload, Record.listToJson, Result.errorObject]

end Exchange

end TableServer
