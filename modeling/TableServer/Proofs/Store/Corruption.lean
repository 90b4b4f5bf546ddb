import TableServer.Execution.Run
import TableServer.Proofs.Json.Limits
import TableServer.Proofs.Store.Content
import TableServer.Proofs.Store.Naming

namespace TableServer

section Newlines

variable {part cs more : List Char}

theorem eq_nil_of_prefix_newline (hpart : '\n' ∉ part) (h : part <+: '\n' :: more) : part = [] := by
  cases part with
  | nil => rfl
  | cons c part =>
    obtain ⟨rfl, _⟩ := List.cons_prefix_cons.mp h
    exact absurd List.mem_cons_self hpart

theorem infix_of_infix_newline (hpart : '\n' ∉ part) (h : part <:+: '\n' :: more) : part <:+: more := by
  rcases List.infix_cons_iff.mp h with hfront | hmore
  · obtain rfl := eq_nil_of_prefix_newline hpart hfront
    exact List.nil_infix
  · exact hmore

theorem prefix_of_unifyNewlines (hpart : '\n' ∉ part) (h : part <+: unifyNewlines cs) : part <+: cs := by
  fun_induction unifyNewlines cs generalizing part with
  | case1 => exact h
  | case5 c rest _ ih =>
    cases part with
    | nil => exact List.nil_prefix
    | cons d part =>
      obtain ⟨rfl, hmore⟩ := List.cons_prefix_cons.mp h
      exact List.cons_prefix_cons.mpr ⟨rfl, ih (fun hmem => hpart (.tail _ hmem)) hmore⟩
  | _ =>
    obtain rfl := eq_nil_of_prefix_newline hpart h
    exact List.nil_prefix

theorem endsNumber_unifyNewlines (h : Json.EndsNumber cs) : Json.EndsNumber (unifyNewlines cs) := by
  fun_induction unifyNewlines cs with
  | case1 => exact h
  | case5 c rest hc ih =>
    intro d hd
    exact h d hd
  | _ => exact Json.endsNumber_cons

/-- A part without line ends is there before line ends are unified. -/
theorem infix_of_unifyNewlines (hpart : '\n' ∉ part) (h : part <:+: unifyNewlines cs) : part <:+: cs := by
  fun_induction unifyNewlines cs with
  | case1 => exact h
  | case2 => exact (infix_of_infix_newline hpart h).trans List.nil_infix
  | case3 rest ih => exact List.infix_cons (List.infix_cons (ih (infix_of_infix_newline hpart h)))
  | case4 c rest _ ih => exact List.infix_cons (ih (infix_of_infix_newline hpart h))
  | case5 c rest _ ih =>
    rcases List.infix_cons_iff.mp h with hfront | hmore
    · cases part with
      | nil => exact List.nil_infix
      | cons d part =>
        obtain ⟨rfl, hmore⟩ := List.cons_prefix_cons.mp hfront
        have hrest := prefix_of_unifyNewlines (fun hmem => hpart (.tail _ hmem)) hmore
        exact (List.cons_prefix_cons.mpr ⟨rfl, hrest⟩).isInfix
    · exact List.infix_cons (ih hmore)

theorem countP_unifyNewlines {p : Char → Bool} (hnewline : p '\n' = false) (hreturn : p '\r' = false)
    (cs : List Char) : (unifyNewlines cs).countP p = cs.countP p := by
  fun_induction unifyNewlines cs with
  | case1 => rfl
  | case2 => simp [hnewline, hreturn]
  | case3 rest ih => simp [hnewline, hreturn, ih]
  | case4 c rest _ ih => simp [hnewline, hreturn, ih, List.countP_cons]
  | case5 c rest _ ih => simp [ih, List.countP_cons]

end Newlines

namespace TableFile

variable {content : Bytes} {records : List Record} {cause : Unexpected} {cs : List Char}

/-- What is there in a content whose reading breaks off. -/
inductive Breaks (content : Bytes) : Unexpected → Prop
  | notUtf8 (h : ∀ cs, content ≠ Utf8.encode cs) : Breaks content .notUtf8
  | tooDeep {cs : List Char} (h : content = Utf8.encode cs)
    (hdeep : Json.nestingLimit < cs.countP Json.isOpening) : Breaks content .tooDeep
  | longNumeral {cs digits : List Char} (h : content = Utf8.encode cs) (hthere : digits <:+: cs)
    (hdigits : ∀ c ∈ digits, c.isDigit = true) (hlong : Json.digitLimit < digits.length) :
    Breaks content (.longNumeral digits.length)

theorem decode_eq_notUtf8_iff : Utf8.decode content = none ↔ ∀ cs, content ≠ Utf8.encode cs := by
  constructor
  · rintro h cs rfl
    rw [Utf8.decode_encode] at h
    contradiction
  · intro h
    cases hcs : Utf8.decode content with
    | none => rfl
    | some cs => exact absurd (Utf8.encode_of_decode hcs).symm (h cs)

theorem decode_eq_unexpected (h : decode content = .error (.unexpected cause)) : Breaks content cause := by
  unfold decode at h
  cases hcs : Utf8.decode content with
  | none =>
    rw [hcs] at h
    obtain rfl := Fault.unexpected.inj (Except.error.inj h)
    exact .notUtf8 (decode_eq_notUtf8_iff.mp hcs)
  | some cs =>
    have hcontent := (Utf8.encode_of_decode hcs).symm
    simp only [hcs] at h
    cases hread : Json.read (unifyNewlines cs) with
    | ok v =>
      simp only [hread] at h
      cases hrecords : Record.listOfJson v with
      | ok rs =>
        rw [hrecords] at h
        contradiction
      | error issues =>
        rw [hrecords] at h
        exact nomatch h
    | error fault =>
      simp only [hread] at h
      obtain ⟨e, he, rfl⟩ := mapError_error.mp hread
      have hshown := Json.shown_readWhole he
      cases hshown with
      | malformed complaint rest => exact nomatch h
      | tooDeep hdeep =>
        obtain rfl := Fault.unexpected.inj (Except.error.inj h)
        rw [countP_unifyNewlines rfl rfl] at hdeep
        exact .tooDeep hcontent hdeep
      | tooLong hdigits hlong hthere =>
        obtain rfl := Fault.unexpected.inj (Except.error.inj h)
        have hnewline : '\n' ∉ _ := fun hmem => absurd (hdigits '\n' hmem) (by decide)
        exact .longNumeral hcontent (infix_of_unifyNewlines hnewline hthere) hdigits hlong

theorem decode_eq_notUtf8 (h : ∀ cs, content ≠ Utf8.encode cs) :
    decode content = .error (.unexpected .notUtf8) := by
  unfold decode
  rw [decode_eq_notUtf8_iff.mpr h]

/-- Each of the three can be there: bytes that are no characters, brackets that are too deep, and ids that are too
long. -/
theorem decode_brackets (cs : List Char) :
    decode (Utf8.encode (List.replicate (Json.nestingLimit + 1) '[' ++ cs)) = .error (.unexpected .tooDeep) := by
  have hreturn : '\r' ∉ List.replicate (Json.nestingLimit + 1) '[' := by
    intro hmem
    exact absurd (List.eq_of_mem_replicate hmem) (by decide)
  unfold decode Json.read
  simp only [Utf8.decode_encode, unifyNewlines_append hreturn, Json.readWhole_brackets]
  rfl

theorem decode_longId {n : Nat} (h : Json.digitLimit < (Nat.toDigits 10 n).length) (hcs : Json.EndsNumber cs) :
    decode (Utf8.encode (Json.firstId (Nat.toDigits 10 n ++ cs))) =
      .error (.unexpected (.longNumeral (Nat.toDigits 10 n).length)) := by
  have hreturn : '\r' ∉ Json.firstId (Nat.toDigits 10 n) := by
    intro hmem
    simp only [Json.firstId, List.mem_cons, Char.reduceEq, false_or] at hmem
    exact absurd (Json.isDigit_toDigits hmem) (by decide)
  have hunify : unifyNewlines (Json.firstId (Nat.toDigits 10 n ++ cs)) =
      Json.firstId (Nat.toDigits 10 n ++ unifyNewlines cs) := unifyNewlines_append hreturn cs
  have hread := Json.readWhole_longId h (endsNumber_unifyNewlines hcs)
  unfold decode Json.read
  simp only [Utf8.decode_encode, hunify, hread]
  rfl

end TableFile

namespace FileStore

variable {s : FileStore} {table : String} {p : Path} {content : Bytes}

theorem read_eq_records (hpath : s.path table = .ok p) (hnul : p.hasNul = false) :
    s.read table = records table p (s.volume.read p) := by
  unfold read
  rw [hpath]
  simp only [bind, Except.bind, hnul, Bool.false_eq_true, ↓reduceIte]

/-- What a table is read as, whatever stands at its path. -/
structure Settled (s : FileStore) (table : String) (p : Path) : Prop where
  /-- A table without a file is empty, and one that the system does not let be read is told to be so. -/
  refused : ∀ e, s.volume.read p = .error e → e = .notFound ∧ s.read table = .ok [] ∨
    s.read table = .error (.reported (.unreadable table p e))
  /-- The records are those of the items of the array in the file, all of them and in their order. -/
  complete : ∀ content, s.volume.read p = .ok content → ∀ records, s.read table = .ok records ↔
    ∃ cs items, content = Utf8.encode cs ∧ Json.read (unifyNewlines cs) = .ok (.array items) ∧
      List.Forall₂ (fun v r => Record.ofJson v = .ok r) items records
  /-- Any other content is told to be corrupt, unless its reading breaks off. -/
  otherwise : ∀ content, s.volume.read p = .ok content → (∃ records, s.read table = .ok records) ∨
    (∃ reason, s.read table = .error (.reported (.corrupt table p reason))) ∨
    ∃ cause, s.read table = .error (.unexpected cause) ∧ TableFile.Breaks content cause
  /-- The messages name the table. -/
  told : ∀ e, s.read table = .error (.reported e) →
    e.message = s!"Corrupt table file for '{table}'" ∨ e.message = s!"Failed to read table '{table}'"
  /-- Bytes that are no characters break it off, -/
  bytes : ∀ content, s.volume.read p = .ok content → (∀ cs, content ≠ Utf8.encode cs) →
    s.read table = .error (.unexpected .notUtf8)
  /-- and brackets that open too many arrays in each other, -/
  brackets : ∀ cs, s.volume.read p = .ok (Utf8.encode (List.replicate (Json.nestingLimit + 1) '[' ++ cs)) →
    s.read table = .error (.unexpected .tooDeep)
  /-- and an id of too many digits. -/
  digits : ∀ n cs, Json.digitLimit < (Nat.toDigits 10 n).length → Json.EndsNumber cs →
    s.volume.read p = .ok (Utf8.encode (Json.firstId (Nat.toDigits 10 n ++ cs))) →
    s.read table = .error (.unexpected (.longNumeral (Nat.toDigits 10 n).length))
  /-- It is then, and only then, that a query is answered with an internal error. -/
  selected : ∀ c, (c = .selectAll table ∨ ∃ id, c = .selectById table id) →
    ((execute s c).1 = .internalError ↔ ∃ cause, s.read table = .error (.unexpected cause))

theorem records_cases (table : String) (p : Path) (content : Bytes) :
    (∃ records, FileStore.records table p (.ok content) = .ok records) ∨
      (∃ reason, FileStore.records table p (.ok content) = .error (.reported (.corrupt table p reason))) ∨
      ∃ cause, TableFile.decode content = .error (.unexpected cause) ∧
        FileStore.records table p (.ok content) = .error (.unexpected cause) := by
  unfold FileStore.records
  dsimp only
  cases hdecode : TableFile.decode content with
  | ok records => exact .inl ⟨records, rfl⟩
  | error fault =>
    cases fault with
    | corrupt reason => exact .inr (.inl ⟨reason, rfl⟩)
    | unexpected cause => exact .inr (.inr ⟨cause, rfl, rfl⟩)

theorem records_eq_ok_iff {records : List Record} :
    FileStore.records table p (.ok content) = .ok records ↔ TableFile.decode content = .ok records := by
  unfold FileStore.records
  dsimp only
  cases hdecode : TableFile.decode content with
  | ok records' => simp
  | error fault => cases fault <;> simp

theorem records_eq_unexpected_iff {cause : Unexpected} :
    FileStore.records table p (.ok content) = .error (.unexpected cause) ↔
      TableFile.decode content = .error (.unexpected cause) := by
  unfold FileStore.records
  dsimp only
  cases hdecode : TableFile.decode content with
  | ok records => simp
  | error fault => cases fault <;> simp

/-- Only a file that is missing counts as an empty table. -/
theorem records_refused (table : String) (p : Path) (e : FileError) :
    e = .notFound ∧ FileStore.records table p (.error e) = .ok [] ∨
      FileStore.records table p (.error e) = .error (.reported (.unreadable table p e)) := by
  cases e with
  | notFound => exact .inl ⟨rfl, rfl⟩
  | _ => exact .inr rfl

theorem records_reported {result : Except FileError Bytes} {e : StorageError}
    (h : FileStore.records table p result = .error (.reported e)) :
    e.message = s!"Corrupt table file for '{table}'" ∨ e.message = s!"Failed to read table '{table}'" := by
  cases result with
  | error refusal =>
    rcases records_refused table p refusal with ⟨_, hempty⟩ | hrefused
    · rw [hempty] at h
      contradiction
    · rw [hrefused] at h
      obtain rfl := StoreFailure.reported.inj (Except.error.inj h)
      exact .inr rfl
  | ok content =>
    rcases records_cases table p content with ⟨_, hok⟩ | ⟨_, hcorrupt⟩ | ⟨_, _, hbreaks⟩
    · rw [hok] at h
      contradiction
    · rw [hcorrupt] at h
      obtain rfl := StoreFailure.reported.inj (Except.error.inj h)
      exact .inl rfl
    · rw [hbreaks] at h
      exact nomatch h

/-- What is reported is told by a message of its own, and never as an internal error. -/
theorem corrupt_ne_internal (table : String) : s!"Corrupt table file for '{table}'" ≠ "internal error" := by
  intro h
  have hfirst := congrArg (fun message : String => message.toList.head?) h
  simp [toString] at hfirst

theorem unreadable_ne_internal (table : String) : s!"Failed to read table '{table}'" ≠ "internal error" := by
  intro h
  have hfirst := congrArg (fun message : String => message.toList.head?) h
  simp [toString] at hfirst

/-- A query fails as its load does. -/
theorem execute_select_error {c : Command} (hc : c = .selectAll table ∨ ∃ id, c = .selectById table id)
    {e : StoreFailure} (h : s.read table = .error e) : (execute s c).1 = e.result := by
  have hload : TableStore.load s table = (.error e, s) := Prod.ext h rfl
  rcases hc with rfl | ⟨id, rfl⟩
  · simp only [execute, selectAll, hload]
  · simp only [execute, selectById, hload]

theorem execute_select_ok {c : Command} (hc : c = .selectAll table ∨ ∃ id, c = .selectById table id)
    {records : List Record} (h : s.read table = .ok records) : (execute s c).1 ≠ .internalError := by
  have hload : TableStore.load s table = (.ok records, s) := Prod.ext h rfl
  rcases hc with rfl | ⟨id, rfl⟩
  · simp only [execute, selectAll, hload]
    exact Result.noConfusion
  · simp only [execute, selectById, hload]
    split <;> exact Result.noConfusion

/-- A table whose file has any content at all is read as the records of an array, or told to be unreadable or corrupt;
but there are contents that break off the reading, and they are told as an internal error. -/
theorem read_settled (hpath : s.path table = .ok p) (hnul : p.hasNul = false) : Settled s table p := by
  have hread := read_eq_records hpath hnul
  have htold : ∀ e, s.read table = .error (.reported e) →
      e.message = s!"Corrupt table file for '{table}'" ∨ e.message = s!"Failed to read table '{table}'" := by
    intro e h
    exact records_reported (hread ▸ h)
  refine ⟨?_, ?_, ?_, htold, ?_, ?_, ?_, ?_⟩
  · intro e he
    rw [hread, he]
    exact records_refused table p e
  · intro content hcontent records
    rw [hread, hcontent, records_eq_ok_iff, TableFile.decode_eq_ok_iff]
  · intro content hcontent
    rw [hread, hcontent]
    rcases records_cases table p content with hok | hcorrupt | ⟨cause, hdecode, hbreaks⟩
    · exact .inl hok
    · exact .inr (.inl hcorrupt)
    · exact .inr (.inr ⟨cause, hbreaks, TableFile.decode_eq_unexpected hdecode⟩)
  · intro content hcontent hbytes
    rw [hread, hcontent, records_eq_unexpected_iff]
    exact TableFile.decode_eq_notUtf8 hbytes
  · intro cs hcontent
    rw [hread, hcontent, records_eq_unexpected_iff]
    exact TableFile.decode_brackets cs
  · intro n cs hlong hcs hcontent
    rw [hread, hcontent, records_eq_unexpected_iff]
    exact TableFile.decode_longId hlong hcs
  · intro c hc
    constructor
    · intro hinternal
      cases hresult : s.read table with
      | ok records => exact absurd hinternal (execute_select_ok hc hresult)
      | error e =>
        rw [execute_select_error hc hresult] at hinternal
        cases e with
        | unexpected cause => exact ⟨cause, rfl⟩
        | reported e =>
          have hmessage : e.message = "internal error" := Result.executionFailure.inj hinternal
          rcases htold e hresult with h | h
          · exact absurd (h.symm.trans hmessage) (corrupt_ne_internal table)
          · exact absurd (h.symm.trans hmessage) (unreadable_ne_internal table)
    · rintro ⟨cause, hcause⟩
      exact execute_select_error hc hcause

/-- A table file of one byte that no character starts with. -/
def garbled : FileStore :=
  ⟨.ofString "data", usualPattern, false, ⟨[(["data"], .directory), (["data", "t.json"], .file [0xff])]⟩⟩

theorem read_settled_garbled : garbled.path "t" = .ok (.ofString "data/t.json") ∧
    (Path.ofString "data/t.json").hasNul = false ∧ Settled garbled "t" (.ofString "data/t.json") := by
  have hpath : garbled.path "t" = .ok (.ofString "data/t.json") := by decide +kernel
  have hnul : (Path.ofString "data/t.json").hasNul = false := by decide +kernel
  exact ⟨hpath, hnul, read_settled hpath hnul⟩

/-- The byte is not told to be a corruption. -/
theorem garbled_internal : garbled.read "t" = .error (.unexpected .notUtf8) ∧
    (executeStatement garbled "SELECT * FROM t").1 = .internalError := by
  constructor
  · decide +kernel
  · decide +kernel

end FileStore

end TableServer
