import TableServer.Proofs.Json.Bounds
import TableServer.Proofs.Store.Atomic

namespace TableServer

namespace Record

open Json

theorem isShort_readId {v : Value} (hv : Bounded v) {id : Nat} (h : readId v = .ok id) : Json.IsShort id := by
  unfold readId at h
  obtain ⟨n, hn, h⟩ := bind_ok.mp h
  split at h
  · contradiction
  · next hsign =>
    obtain rfl := Except.ok.inj h
    rw [Int.toNat_of_nonneg (Int.not_lt.mp hsign)]
    exact isShort_asInteger hv hn

theorem isShort_ofMembers {ms : List (Text × Value)} (hms : ∀ m ∈ ms, Bounded m.2) {r : Record}
    (h : ofMembers ms = .ok r) : r.IsShort := by
  unfold ofMembers at h
  dsimp only at h
  split at h
  · next id name description hid _ _ _ =>
    obtain rfl := Except.ok.inj h
    cases hmember : member? (Text.ofString "id") ms with
    | none => simp [hmember] at hid
    | some v =>
      obtain ⟨m, hfind, rfl⟩ := Option.map_eq_some_iff.mp hmember
      rw [hmember] at hid
      exact isShort_readId (hms m (List.mem_of_find?_eq_some hfind)) hid
  · contradiction

theorem isShort_ofJson {v : Value} (hv : Bounded v) {r : Record} (h : ofJson v = .ok r) : r.IsShort := by
  cases hv with
  | object hms =>
    rw [ofJson] at h
    split at h
    · exact isShort_ofMembers hms h
    · contradiction
  | _ => contradiction

end Record

namespace TableFile

variable {content : Bytes} {records : List Record}

/-- Whatever content records are read from, their ids can be written. -/
theorem isShort_decode (h : decode content = .ok records) : ∀ r ∈ records, r.IsShort := by
  obtain ⟨cs, items, rfl, hread, hrecords⟩ := decode_eq_ok_iff.mp h
  cases Json.bounded_read hread with
  | array hitems =>
    obtain ⟨hlength, hone⟩ := List.forall₂_iff_get.mp hrecords
    intro r hr
    obtain ⟨i, hi, rfl⟩ := List.getElem_of_mem hr
    exact Record.isShort_ofJson (hitems _ (List.getElem_mem (hlength ▸ hi))) (hone i (hlength ▸ hi) hi)

/-- Records with short ids cannot be written where a text has a lone surrogate, and only there. -/
theorem encode_eq_unpairedSurrogate_iff (hshort : ∀ r ∈ records, r.IsShort) :
    encode records = .error .unpairedSurrogate ↔ ∃ r ∈ records, ¬ r.IsChars := by
  constructor
  · intro h
    rcases encode_eq_error h with ⟨hcause, _⟩ | ⟨_, _, hlone⟩
    · contradiction
    · exact hlone
  · rintro ⟨r, hr, hlone⟩
    cases h : encode records with
    | ok content => exact absurd ((encode_isOk_iff records).mp ⟨content, h⟩ r hr).2 hlone
    | error cause =>
      rcases encode_eq_error h with ⟨_, r', hr', hlong⟩ | ⟨rfl, _, _⟩
      · exact absurd (hshort r' hr') hlong
      · rfl

end TableFile

namespace FileStore

variable {s after : FileStore} {table : String} {records : List Record}

/-- A save that is done leaves the content of its records in the file, from where they are loaded. -/
theorem replace_eq_ok (h : s.replace table records = (.ok (), after)) :
    ∃ p content, s.path table = .ok p ∧ after.path table = .ok p ∧ TableFile.encode records = .ok content ∧
      after.volume.read p = .ok content ∧ after.read table = .ok records := by
  rw [← replaceUnder_none] at h
  cases hpath : s.path table with
  | error e => simp [replaceUnder, hpath] at h
  | ok p =>
    obtain ⟨result, w, hreplace, hending⟩ := replaceUnder_ending hpath .none records
    rw [h] at hreplace
    obtain ⟨rfl, rfl⟩ := Prod.mk.inj hreplace
    obtain ⟨content, hencode, _, hcontent⟩ := hending.exists_content
    exact ⟨p, content, rfl, hpath, hencode, hcontent, hending.read hpath⟩

end FileStore

namespace TableFile

/-- What table files keep of records. -/
structure Lossless (records : List Record) : Prop where
  /-- Records can be written if their ids are short and they have no lone surrogates. -/
  writable : (∃ content, encode records = .ok content) ↔ ∀ r ∈ records, r.IsShort ∧ r.IsChars
  /-- They are read back as they are. -/
  readBack : ∀ content, encode records = .ok content → decode content = .ok records
  /-- Where they come from a content, they can be written again, unless an escape has spelled a lone surrogate. -/
  loaded : ∀ content, decode content = .ok records → (∀ r ∈ records, r.IsShort) ∧
    (encode records = .error .unpairedSurrogate ↔ ∃ r ∈ records, ¬ r.IsChars)
  /-- A save that is done leaves their content in the file and they are loaded from there, and saving them again
  leaves the same content. -/
  stored : ∀ (s : FileStore) (table : String) (after : FileStore), s.replace table records = (.ok (), after) →
    ∃ p content, s.path table = .ok p ∧ encode records = .ok content ∧ after.volume.read p = .ok content ∧
      after.read table = .ok records ∧
      ∀ again, after.replace table records = (.ok (), again) →
        again.volume.read p = .ok content ∧ again.read table = .ok records

/-- Table files keep every list of records. Records are written and read back as they are, and what is read from any
content, in whichever spelling, can be written again as long as it has no lone surrogate, which only escapes can bring
in. -/
theorem lossless (records : List Record) : Lossless records where
  writable := encode_isOk_iff records
  readBack _ := decode_encode
  loaded _ h := ⟨isShort_decode h, encode_eq_unpairedSurrogate_iff (isShort_decode h)⟩
  stored s table after h := by
    obtain ⟨p, content, hpath, hpath', hencode, hcontent, hread⟩ := FileStore.replace_eq_ok h
    refine ⟨p, content, hpath, hencode, hcontent, hread, fun again hagain => ?_⟩
    obtain ⟨q, content', hq, _, hencode', hcontent', hread'⟩ := FileStore.replace_eq_ok hagain
    obtain rfl := Except.ok.inj (hq.symm.trans hpath')
    obtain rfl := Except.ok.inj (hencode'.symm.trans hencode)
    exact ⟨hcontent', hread'⟩

end TableFile

end TableServer
