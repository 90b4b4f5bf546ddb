import TableServer.Client.Answer
import TableServer.Connection.Wire
import TableServer.Proofs.Json.RoundTrip
import TableServer.Proofs.Record
import TableServer.Proofs.Text.Utf8

namespace TableServer

open Json

namespace Result

theorem fits_inserted {texts : Text → Prop} (hnames : ∀ s, texts (Text.ofString s)) (depth : Nat) (r : Record) :
    Fits texts (depth + 2) (inserted r).payload ↔ texts r.name ∧ texts r.description := by
  have hmembers : ([Text.ofString "success", Text.ofString "newData"] : List Text).Nodup := by decide
  change (([Text.ofString "success", Text.ofString "newData"] : List Text).Nodup ∧
    ∀ m ∈ [(Text.ofString "success", Value.boolean true), (Text.ofString "newData", r.toJson)],
      texts m.1 ∧ Fits texts (depth + 1) m.2) ↔ _
  simp [hmembers, hnames, Record.fits_toJson hnames, Fits]

theorem fits_errorObject {texts : Text → Prop} (hnames : ∀ s, texts (Text.ofString s)) (depth : Nat)
    (message : String) : Fits texts (depth + 1) (errorObject message) := by
  refine ⟨List.nodup_cons.mpr ⟨List.not_mem_nil, List.nodup_nil⟩, fun m hm => ?_⟩
  obtain rfl := List.mem_singleton.mp hm
  cases depth with
  | zero => exact ⟨hnames _, hnames _⟩
  | succ depth => exact ⟨hnames _, hnames _⟩

/-- Every answer fits: it is two levels deep at most, and its members have different names. -/
theorem fits_payload (r : Result) : Fits (fun _ => True) nestingLimit r.payload := by
  cases r with
  | rows records => exact (Record.fits_listToJson (fun _ => trivial) 988 records).mpr fun _ _ => ⟨trivial, trivial⟩
  | inserted r => exact (fits_inserted (fun _ => trivial) 988 r).mpr ⟨trivial, trivial⟩
  | notFound => exact fits_errorObject (fun _ => trivial) 989 _
  | parseFailure message => exact fits_errorObject (fun _ => trivial) 989 _
  | executionFailure message => exact fits_errorObject (fun _ => trivial) 989 _

theorem write_inserted_isOk (layout : Layout) {r : Record} (h : r.IsShort) :
    ∃ w, write layout (inserted r).payload = .ok w := by
  obtain ⟨x, hx⟩ := (Record.writeAt_toJson_isOk_iff layout 1 r).mpr h
  have hmembers := writeMembers_eq_ok_iff.mpr
    (.cons ⟨_, rfl, rfl⟩ (.cons ⟨x, hx, rfl⟩ .nil) :
      List.Forall₂ (fun (m : Text × Value) w => ∃ x, writeAt layout 1 m.2 = .ok x ∧ w = memberText layout m.1 x)
        [(Text.ofString "success", .boolean true), (Text.ofString "newData", r.toJson)] _)
  exact ⟨_, writeAt_object_iff.mpr ⟨_, hmembers, rfl⟩⟩

/-- A client tells errors by their answers. -/
theorem isErrorAnswer_payload (r : Result) : Client.isErrorAnswer r.payload = r.isError := by
  cases r <;> rfl

end Result

namespace Wire

theorem encode_eq_ok {r : Result} {line : Bytes} (h : encode r = .ok line) :
    ∃ cs, write .compact r.payload = .ok (Text.ofChars cs) ∧ line = Utf8.encode (cs ++ ['\n']) := by
  unfold encode at h
  cases hw : write .compact r.payload with
  | error e => simp [hw] at h
  | ok w =>
    simp only [hw] at h
    cases hcs : w.chars? with
    | none => simp [hcs] at h
    | some cs =>
      simp only [hcs, Except.ok.injEq] at h
      exact ⟨cs, by rw [Text.chars?_eq_some_iff.mp hcs], h.symm⟩

theorem isChars_write_iff {r : Result} {w : Text} (hw : write .compact r.payload = .ok w) :
    w.IsChars ↔ Fits Text.IsChars nestingLimit r.payload :=
  isChars_writeAt Layout.spaced_compact rfl r.fits_payload hw

/-- What has been written for an answer is read as it, with blanks behind it or none. -/
theorem readLine_of_write {r : Result} {cs tail : List Char} (hw : write .compact r.payload = .ok (Text.ofChars cs))
    (htail : Blanks tail) : Client.readLine (Utf8.encode (cs ++ tail)) = .ok r.payload := by
  have hfits := (isChars_write_iff hw).mp (Text.isChars_ofChars cs)
  obtain ⟨ds, hds, hread⟩ := read_write Layout.spaced_compact hfits hw
  obtain rfl := Text.ofChars_inj hds
  have hread := hread tail htail
  have hline : (Utf8.encode (cs ++ tail)).isEmpty = false := by
    refine List.isEmpty_eq_false_iff.mpr fun hempty => ?_
    have hnone : cs ++ tail = [] := Option.some.inj ((Utf8.decode_encode _).symm.trans (congrArg Utf8.decode hempty))
    rw [hnone] at hread
    exact nomatch hread
  unfold Client.readLine
  rw [hline, Utf8.decode_encode]
  simp only [Bool.false_eq_true, ↓reduceIte, hread]
  rfl

/-- A client reads a line as what the server answered. -/
theorem readLine_encode {r : Result} {line : Bytes} (h : encode r = .ok line) :
    Client.readLine line = .ok r.payload := by
  obtain ⟨cs, hw, rfl⟩ := encode_eq_ok h
  exact readLine_of_write hw fun c hc => List.mem_singleton.mp hc ▸ rfl

/-- An answer that has been written can be encoded unless there is a lone surrogate in it. -/
theorem encode_isOk {r : Result} {w : Text} (hw : write .compact r.payload = .ok w)
    (hfits : Fits Text.IsChars nestingLimit r.payload) : ∃ line, encode r = .ok line := by
  obtain ⟨cs, rfl⟩ := ((isChars_write_iff hw).mpr hfits).exists_ofChars
  refine ⟨Utf8.encode (cs ++ ['\n']), ?_⟩
  unfold encode
  rw [hw]
  simp only [Text.chars?_ofChars]

/-- A record can be told as inserted if its id is short and it has no lone surrogates. -/
theorem encode_inserted_isOk_iff (r : Record) :
    (∃ line, encode (.inserted r) = .ok line) ↔ r.IsShort ∧ r.IsChars := by
  constructor
  · rintro ⟨line, h⟩
    obtain ⟨cs, hw, _⟩ := encode_eq_ok h
    have hfits := (isChars_write_iff hw).mp (Text.isChars_ofChars cs)
    refine ⟨?_, (Result.fits_inserted Record.isChars_ofString 988 r).mp hfits⟩
    obtain ⟨ws, hws, _⟩ := writeAt_object_iff.mp hw
    cases writeMembers_eq_ok_iff.mp hws with
    | cons _ hmore =>
      cases hmore with
      | cons hrecord _ =>
        obtain ⟨x, hx, _⟩ := hrecord
        exact (Record.writeAt_toJson_isOk_iff _ _ r).mp ⟨x, hx⟩
  · rintro ⟨hshort, hchars⟩
    obtain ⟨w, hw⟩ := Result.write_inserted_isOk .compact hshort
    exact encode_isOk hw ((Result.fits_inserted Record.isChars_ofString 988 r).mpr hchars)

theorem encode_rows_isOk {rs : List Record} (h : ∀ r ∈ rs, r.IsShort ∧ r.IsChars) :
    ∃ line, encode (.rows rs) = .ok line := by
  obtain ⟨w, hw⟩ := (Record.write_listToJson_isOk_iff .compact rs).mpr fun r hr => (h r hr).1
  exact encode_isOk hw ((Record.fits_listToJson Record.isChars_ofString 988 rs).mpr fun r hr => (h r hr).2)

end Wire

end TableServer
