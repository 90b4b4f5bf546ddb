import TableServer.Proofs.Json.Values
import TableServer.Record

namespace TableServer

/-- Whether the id of a record has no more digits than are written and read. -/
def Record.IsShort (r : Record) : Prop := (Nat.toDigits 10 r.id).length ≤ Json.digitLimit

/-- Whether a record has no lone surrogate. -/
def Record.IsChars (r : Record) : Prop := r.name.IsChars ∧ r.description.IsChars

namespace Record

open Json

theorem readId_integer (id : Nat) : readId (.integer id) = .ok id := by
  have hid : ¬ (id : Int) < 0 := Int.not_lt.mpr (Int.natCast_nonneg id)
  change (if (id : Int) < 0 then Except.error Cause.negative else Except.ok (id : Int).toNat) = _
  rw [if_neg hid]
  rfl

/-- What a record is written as is read as the record. -/
theorem ofJson_toJson (r : Record) : ofJson r.toJson = .ok r := by
  have hnames : (r.members.all fun m => m.1.chars?.isSome) = true := by
    simp [members, Text.ofString, Text.chars?_ofChars]
  rw [toJson, ofJson]
  refine (if_pos hnames).trans ?_
  have hid : member? (Text.ofString "id") r.members = some (.integer r.id) := rfl
  have hname : member? (Text.ofString "name") r.members = some (.string r.name) := rfl
  have hdescription : member? (Text.ofString "description") r.members = some (.string r.description) := rfl
  unfold ofMembers
  simp only [hid, hname, hdescription, Option.elim_some, readId_integer]
  rfl

theorem ofItems_eq_ok_iff {index : Nat} {items : List Value} {rs : List Record} :
    ofItems index items = .ok rs ↔ List.Forall₂ (fun v r => ofJson v = .ok r) items rs := by
  induction items generalizing index rs with
  | nil =>
    rw [ofItems, List.forall₂_nil_left_iff]
    exact ⟨fun h => (Except.ok.inj h).symm, fun h => congrArg _ h.symm⟩
  | cons v items ih =>
    rw [ofItems, List.forall₂_cons_left_iff]
    cases hone : ofJson v with
    | error issues => cases ofItems (index + 1) items <;> simp
    | ok r =>
      cases hmore : ofItems (index + 1) items with
      | error issues =>
        simp only [reduceCtorEq, Except.ok.injEq, false_iff, not_exists, not_and]
        rintro r' rs' rfl hrs' rfl
        rw [ih.mpr hrs'] at hmore
        contradiction
      | ok rs' =>
        simp only [Except.ok.injEq]
        constructor
        · rintro rfl
          exact ⟨r, rs', rfl, ih.mp hmore, rfl⟩
        · rintro ⟨r', rs'', rfl, hrs'', rfl⟩
          rw [ih.mpr hrs''] at hmore
          rw [Except.ok.inj hmore]

/-- Records are read from an array, one from each item. -/
theorem listOfJson_eq_ok_iff {v : Value} {rs : List Record} : listOfJson v = .ok rs ↔
    ∃ items, v = .array items ∧ List.Forall₂ (fun v r => ofJson v = .ok r) items rs := by
  cases v <;> simp [listOfJson, ofItems_eq_ok_iff]

theorem listOfJson_listToJson (rs : List Record) : listOfJson (listToJson rs) = .ok rs := by
  refine listOfJson_eq_ok_iff.mpr ⟨_, rfl, ?_⟩
  rw [List.forall₂_map_left_iff, List.forall₂_same]
  exact fun r _ => ofJson_toJson r

theorem nodup_memberNames : memberNames.Nodup := by decide

theorem fits_toJson {texts : Text → Prop} (hnames : ∀ s, texts (Text.ofString s)) (depth : Nat) (r : Record) :
    Fits texts (depth + 1) r.toJson ↔ texts r.name ∧ texts r.description := by
  change (memberNames.Nodup ∧ ∀ m ∈ r.members, texts m.1 ∧ Fits texts depth m.2) ↔ _
  simp [nodup_memberNames, members, hnames, Fits]

theorem fits_listToJson {texts : Text → Prop} (hnames : ∀ s, texts (Text.ofString s)) (depth : Nat)
    (rs : List Record) :
    Fits texts (depth + 2) (listToJson rs) ↔ ∀ r ∈ rs, texts r.name ∧ texts r.description := by
  change (∀ v ∈ rs.map toJson, Fits texts (depth + 1) v) ↔ _
  rw [List.forall_mem_map]
  exact forall₂_congr fun r _ => fits_toJson hnames depth r

theorem isChars_ofString (s : String) : (Text.ofString s).IsChars := Text.isChars_ofChars _

/-- A record can be written just if its id is short. No text keeps it from being written. -/
theorem writeAt_toJson_isOk_iff (layout : Layout) (level : Nat) (r : Record) :
    (∃ w, writeAt layout level r.toJson = .ok w) ↔ r.IsShort := by
  have hid := writeInteger_isOk_iff (r.id : Int)
  rw [Int.natAbs_natCast] at hid
  rw [IsShort, ← hid]
  constructor
  · rintro ⟨w, hw⟩
    obtain ⟨ws, hws, _⟩ := writeAt_object_iff.mp hw
    cases writeMembers_eq_ok_iff.mp hws with
    | cons hone _ =>
      obtain ⟨x, hx, _⟩ := hone
      exact ⟨x, hx⟩
  · rintro ⟨x, hx⟩
    have hms : ∃ ws, writeMembers layout (level + 1) r.members = .ok ws :=
      ⟨_, writeMembers_eq_ok_iff.mpr (.cons ⟨x, hx, rfl⟩ (.cons ⟨_, rfl, rfl⟩ (.cons ⟨_, rfl, rfl⟩ .nil)))⟩
    obtain ⟨ws, hws⟩ := hms
    exact ⟨_, writeAt_object_iff.mpr ⟨ws, hws, rfl⟩⟩

theorem write_listToJson_isOk_iff (layout : Layout) (rs : List Record) :
    (∃ w, write layout (listToJson rs) = .ok w) ↔ ∀ r ∈ rs, r.IsShort := by
  constructor
  · rintro ⟨w, hw⟩ r hr
    obtain ⟨ws, hws, hw'⟩ := writeAt_array_iff.mp hw
    have hall := List.forall₂_map_left_iff.mp (writeItems_eq_ok_iff.mp hws)
    clear hw hw' hws
    induction hall with
    | nil => contradiction
    | cons hone _ ih =>
      rcases List.mem_cons.mp hr with rfl | hr
      · exact (writeAt_toJson_isOk_iff layout _ r).mp ⟨_, hone⟩
      · exact ih hr
  · intro h
    have hitems : ∃ ws, writeItems layout 1 (rs.map toJson) = .ok ws := by
      induction rs with
      | nil => exact ⟨[], rfl⟩
      | cons r rs ih =>
        obtain ⟨hfirst, hmore⟩ := List.forall_mem_cons.mp h
        obtain ⟨w, hw⟩ := (writeAt_toJson_isOk_iff layout 1 r).mpr hfirst
        obtain ⟨ws, hws⟩ := ih hmore
        exact ⟨w :: ws, writeItems_eq_ok_iff.mpr (.cons hw (writeItems_eq_ok_iff.mp hws))⟩
    obtain ⟨ws, hws⟩ := hitems
    exact ⟨_, writeAt_array_iff.mpr ⟨ws, hws, rfl⟩⟩

end Record

end TableServer
