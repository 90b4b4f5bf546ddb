import TableServer.Proofs.Json.Characters
import TableServer.Proofs.Json.RoundTrip
import TableServer.Proofs.Record
import TableServer.Proofs.Text.Utf8
import TableServer.Store.File

namespace TableServer

theorem unifyNewlines_append {part : List Char} (hpart : '\r' ∉ part) (cs : List Char) :
    unifyNewlines (part ++ cs) = part ++ unifyNewlines cs := by
  induction part with
  | nil => rfl
  | cons c part ih =>
    rw [List.mem_cons, not_or] at hpart
    rw [List.cons_append, unifyNewlines.eq_def]
    simp only [Ne.symm hpart.1, ↓reduceIte, ih hpart.2, List.cons_append]

/-- What is written has no carriage return, so that reading changes no line end in it. -/
theorem unifyNewlines_eq_self {cs : List Char} (h : '\r' ∉ cs) : unifyNewlines cs = cs := by
  have happend := unifyNewlines_append h []
  simpa [unifyNewlines] using happend

namespace TableFile

open Json

/-- The characters of a table file. -/
theorem encode_eq_ok {records : List Record} {content : Bytes} (h : encode records = .ok content) :
    ∃ cs, write .indented (Record.listToJson records) = .ok (Text.ofChars cs) ∧
      content = Utf8.encode cs := by
  unfold encode at h
  cases hw : write .indented (Record.listToJson records) with
  | error e => simp [hw] at h
  | ok w =>
    simp only [hw] at h
    cases hcs : w.chars? with
    | none => simp [hcs] at h
    | some cs =>
      simp only [hcs, Except.ok.injEq] at h
      exact ⟨cs, by rw [Text.chars?_eq_some_iff.mp hcs], h.symm⟩

theorem isChars_write_iff {records : List Record} {w : Text}
    (hw : write .indented (Record.listToJson records) = .ok w) :
    w.IsChars ↔ ∀ r ∈ records, r.IsChars := by
  have hshape : Fits (fun _ => True) nestingLimit (Record.listToJson records) :=
    (Record.fits_listToJson (fun _ => trivial) 988 records).mpr fun _ _ => ⟨trivial, trivial⟩
  rw [isChars_writeAt Layout.spaced_indented rfl hshape hw]
  exact Record.fits_listToJson Record.isChars_ofString 988 records

theorem encode_isOk_iff (records : List Record) :
    (∃ content, encode records = .ok content) ↔ ∀ r ∈ records, r.IsShort ∧ r.IsChars := by
  constructor
  · rintro ⟨content, h⟩ r hr
    obtain ⟨cs, hw, _⟩ := encode_eq_ok h
    exact ⟨(Record.write_listToJson_isOk_iff _ records).mp ⟨_, hw⟩ r hr,
      (isChars_write_iff hw).mp (Text.isChars_ofChars cs) r hr⟩
  · intro h
    obtain ⟨w, hw⟩ := (Record.write_listToJson_isOk_iff .indented records).mpr fun r hr => (h r hr).1
    obtain ⟨cs, rfl⟩ := ((isChars_write_iff hw).mpr fun r hr => (h r hr).2).exists_ofChars
    refine ⟨Utf8.encode cs, ?_⟩
    unfold encode
    rw [hw]
    simp only [Text.chars?_ofChars]

/-- Why records cannot be written: an id is too long, or else a text has a lone surrogate. -/
theorem encode_eq_error {records : List Record} {cause : Unexpected} (h : encode records = .error cause) :
    cause = .longNumber ∧ (∃ r ∈ records, ¬ r.IsShort) ∨
      cause = .unpairedSurrogate ∧ (∀ r ∈ records, r.IsShort) ∧ ∃ r ∈ records, ¬ r.IsChars := by
  unfold encode at h
  have hshort := Record.write_listToJson_isOk_iff .indented records
  cases hw : write .indented (Record.listToJson records) with
  | error e =>
    rw [hw] at h hshort
    refine .inl ⟨(Except.error.inj h).symm, ?_⟩
    by_contra hall
    push Not at hall
    obtain ⟨w, hok⟩ := hshort.mpr hall
    contradiction
  | ok w =>
    rw [hw] at h
    dsimp only at h
    cases hcs : w.chars? with
    | some cs => simp [hcs] at h
    | none =>
      rw [hcs] at h
      refine .inr ⟨(Except.error.inj h).symm, hshort.mp ⟨w, hw⟩, ?_⟩
      by_contra hall
      push Not at hall
      obtain ⟨cs, rfl⟩ := ((isChars_write_iff hw).mpr hall).exists_ofChars
      rw [Text.chars?_ofChars] at hcs
      contradiction

/-- The records of a content are those of the items of its array, in their order. -/
theorem decode_eq_ok_iff {content : Bytes} {records : List Record} : decode content = .ok records ↔
    ∃ cs items, content = Utf8.encode cs ∧ Json.read (unifyNewlines cs) = .ok (.array items) ∧
      List.Forall₂ (fun v r => Record.ofJson v = .ok r) items records := by
  unfold decode
  constructor
  · intro h
    cases hcs : Utf8.decode content with
    | none => simp [hcs] at h
    | some cs =>
      simp only [hcs] at h
      cases hread : Json.read (unifyNewlines cs) with
      | error fault => cases fault <;> simp [hread] at h
      | ok v =>
        simp only [hread] at h
        obtain ⟨items, rfl, hrecords⟩ := Record.listOfJson_eq_ok_iff.mp (mapError_ok.mp h)
        exact ⟨cs, items, (Utf8.encode_of_decode hcs).symm, hread, hrecords⟩
  · rintro ⟨cs, items, rfl, hread, hrecords⟩
    simp only [Utf8.decode_encode, hread]
    exact mapError_ok.mpr (Record.listOfJson_eq_ok_iff.mpr ⟨items, rfl, hrecords⟩)

/-- A table file is read back as the records that it was written for. -/
theorem decode_encode {records : List Record} {content : Bytes} (h : encode records = .ok content) :
    decode content = .ok records := by
  obtain ⟨cs, hw, rfl⟩ := encode_eq_ok h
  have hshape : Fits (fun _ => True) nestingLimit (Record.listToJson records) :=
    (Record.fits_listToJson (fun _ => trivial) 988 records).mpr fun _ _ => ⟨trivial, trivial⟩
  have hfits := (isChars_writeAt Layout.spaced_indented rfl hshape hw).mp (Text.isChars_ofChars cs)
  obtain ⟨ds, hds, hread⟩ := read_write Layout.spaced_indented hfits hw
  obtain rfl := Text.ofChars_inj hds
  have hread := hread [] (fun c hc => absurd hc List.not_mem_nil)
  rw [List.append_nil] at hread
  have hreturn : '\r' ∉ cs := by
    intro hr
    exact Layout.keeps_indented.writeAt hshape hw _ (List.mem_map_of_mem hr) rfl
  unfold decode
  rw [Utf8.decode_encode]
  simp only [unifyNewlines_eq_self hreturn, hread, Record.listOfJson_listToJson]
  rfl

end TableFile

end TableServer
