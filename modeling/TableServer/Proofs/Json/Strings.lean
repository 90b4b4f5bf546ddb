import TableServer.Json.Reader
import TableServer.Proofs.Text.CodePoints

namespace TableServer.Json

theorem hexDigit?_digitChar_all : ∀ d < 16, hexDigit? (Nat.digitChar d) = some d := by decide

theorem hexadecimal_four {n : Nat} (h : n < 0x10000) : hexadecimal 4 n =
    [Nat.digitChar (n / 4096), Nat.digitChar (n / 256 % 16), Nat.digitChar (n / 16 % 16),
      Nat.digitChar (n % 16)] := by
  have hdigits : ∀ m, 16 ≤ m → Nat.toDigits 16 m = Nat.toDigits 16 (m / 16) ++ [Nat.digitChar (m % 16)] :=
    fun m hm => Nat.toDigits_of_base_le (by decide) hm
  have hzero : Nat.digitChar 0 = '0' := rfl
  unfold hexadecimal
  by_cases h₁ : n < 16
  · rw [Nat.toDigits_of_lt_base h₁]
    simp [show n / 4096 = 0 by omega, show n / 256 = 0 by omega, show n / 16 = 0 by omega,
      Nat.mod_eq_of_lt h₁, hzero]
  by_cases h₂ : n < 256
  · rw [hdigits n (by omega), Nat.toDigits_of_lt_base (show n / 16 < 16 by omega)]
    simp [show n / 4096 = 0 by omega, show n / 256 = 0 by omega, Nat.mod_eq_of_lt (show n / 16 < 16 by omega), hzero]
  by_cases h₃ : n < 4096
  · rw [hdigits n (by omega), hdigits (n / 16) (by omega),
      Nat.toDigits_of_lt_base (show n / 16 / 16 < 16 by omega)]
    simp [show n / 4096 = 0 by omega, Nat.div_div_eq_div_mul, Nat.mod_eq_of_lt (show n / 256 < 16 by omega), hzero]
  · rw [hdigits n (by omega), hdigits (n / 16) (by omega), hdigits (n / 16 / 16) (by omega),
      Nat.toDigits_of_lt_base (show n / 16 / 16 / 16 < 16 by omega)]
    simp [Nat.div_div_eq_div_mul]

theorem hexUnit?_digits {n : Nat} (h : n < 0x10000) :
    hexUnit? (Nat.digitChar (n / 4096)) (Nat.digitChar (n / 256 % 16)) (Nat.digitChar (n / 16 % 16))
      (Nat.digitChar (n % 16)) = some n := by
  unfold hexUnit?
  rw [hexDigit?_digitChar_all _ (by omega), hexDigit?_digitChar_all _ (by omega),
    hexDigit?_digitChar_all _ (by omega), hexDigit?_digitChar_all _ (by omega)]
  simp only [Option.bind_eq_bind, Option.bind_some]
  congr 1
  omega

/-- Whether a character is spelled by its units. -/
def isNumbered (ascii : Bool) (c : Char) : Prop := c.toNat < 0x20 ∨ ascii = true ∧ 0x7f ≤ c.toNat

instance (ascii : Bool) (c : Char) : Decidable (isNumbered ascii c) :=
  inferInstanceAs (Decidable (_ ∨ _))

/-- How a character is spelled between quotes. -/
def spelling (ascii : Bool) (c : Char) : List Char :=
  match shortEscape? c with
  | some e => ['\\', e]
  | none => if isNumbered ascii c then (CodePoint.scalar c).units.flatMap unitEscape else [c]

/-- What the spelling of a character is read as. -/
def piecesOf (ascii : Bool) (c : Char) : List Piece :=
  match shortEscape? c with
  | some _ => [.char c]
  | none => if isNumbered ascii c then (CodePoint.scalar c).units.map .unit else [.char c]

theorem writePoint_scalar (ascii : Bool) (c : Char) :
    writePoint ascii (.scalar c) = Text.ofChars (spelling ascii c) := by
  unfold writePoint spelling
  cases hs : shortEscape? c with
  | some e => simp only [hs]
  | none =>
    simp only [hs]
    by_cases hn : isNumbered ascii c
    · rw [if_pos hn]
      exact if_pos hn
    · rw [if_neg hn]
      exact if_neg hn

theorem writeString_ofChars (ascii : Bool) (cs : List Char) :
    writeString ascii (Text.ofChars cs) = Text.ofChars ('"' :: cs.flatMap (spelling ascii) ++ ['"']) := by
  have hbody : (Text.ofChars cs).flatMap (writePoint ascii) = Text.ofChars (cs.flatMap (spelling ascii)) := by
    induction cs with
    | nil => rfl
    | cons c cs ih =>
      rw [Text.ofChars_cons, List.flatMap_cons, List.flatMap_cons, ih, writePoint_scalar, Text.ofChars_append]
  rw [writeString, hbody]
  simp [Text.ofChars]

/-- A string without escapes for all but ASCII keeps the surrogates that the text has. -/
theorem isChars_writeString (t : Text) : (writeString false t).IsChars ↔ t.IsChars := by
  constructor
  · intro h p hp
    cases p with
    | scalar c => exact ⟨c, rfl⟩
    | surrogate offset =>
      refine h _ (List.mem_cons_of_mem _ (List.mem_append_left _ ?_))
      exact List.mem_flatMap.mpr ⟨_, hp, by simp [writePoint]⟩
  · intro h
    obtain ⟨cs, rfl⟩ := h.exists_ofChars
    rw [writeString_ofChars]
    exact Text.isChars_ofChars _

/-- What reading puts in front of the pieces of a string. -/
def prepend (front : List Piece) (read : List Piece × List Char) : List Piece × List Char :=
  (front ++ read.1, read.2)

/-- A unit is read apart from the next one. Two halves of a character are put together only when the string is
complete. -/
theorem stringBody_unitEscape {opening rest : List Char} {n : Nat} (h : n < 0x10000) (hrest : rest ≠ []) :
    stringBody opening (unitEscape n ++ rest) = (stringBody opening rest).map (prepend [.unit n]) := by
  obtain ⟨d, more, rfl⟩ := List.exists_cons_of_ne_nil hrest
  rw [unitEscape, hexadecimal_four h]
  simp only [List.cons_append, List.nil_append]
  rw [stringBody.eq_def]
  simp only [hexUnit?_digits h, Char.reduceEq, ↓reduceIte]
  cases stringBody opening (d :: more) <;> rfl

theorem stringBody_units {opening rest : List Char} {units : List Nat} (h : ∀ n ∈ units, n < 0x10000)
    (hrest : rest ≠ []) : stringBody opening (units.flatMap unitEscape ++ rest) =
      (stringBody opening rest).map (prepend (units.map .unit)) := by
  induction units with
  | nil =>
    change stringBody opening rest = (stringBody opening rest).map _
    cases stringBody opening rest <;> rfl
  | cons n units ih =>
    have hmore : units.flatMap unitEscape ++ rest ≠ [] := fun he => hrest (List.append_eq_nil_iff.mp he).2
    rw [List.flatMap_cons, List.append_assoc, stringBody_unitEscape (h n List.mem_cons_self) hmore,
      ih fun m hm => h m (List.mem_cons_of_mem _ hm)]
    cases stringBody opening rest <;> rfl

theorem units_of_lt {c : Char} (h : c.toNat < 0x10000) : (CodePoint.scalar c).units = [c.toNat] :=
  if_pos h

theorem units_of_le {c : Char} (h : 0x10000 ≤ c.toNat) : (CodePoint.scalar c).units =
    [0xd800 + (c.toNat - 0x10000) / 0x400, 0xdc00 + (c.toNat - 0x10000) % 0x400] :=
  if_neg (Nat.not_lt.mpr h)

theorem toNat_valid (c : Char) : c.toNat < 0xd800 ∨ 0xdfff < c.toNat ∧ c.toNat < 0x110000 := c.valid

theorem units_lt (c : Char) : ∀ n ∈ (CodePoint.scalar c).units, n < 0x10000 := by
  intro n hn
  have hvalid := toNat_valid c
  by_cases h : c.toNat < 0x10000
  · rw [units_of_lt h] at hn
    obtain rfl := List.mem_singleton.mp hn
    exact h
  · rw [units_of_le (Nat.not_lt.mp h)] at hn
    simp only [List.mem_cons, List.not_mem_nil, or_false] at hn
    omega

/-- Short escapes are read as what they are written for. -/
theorem escaped?_shortEscape? {c e : Char} (h : shortEscape? c = some e) : escaped? e = some c ∧ e ≠ 'u' := by
  unfold shortEscape? at h
  repeat' split at h
  all_goals first
    | (obtain rfl := Option.some.inj h
       subst_vars
       decide)
    | contradiction

theorem stringBody_spelling {ascii : Bool} {opening rest : List Char} (c : Char) (hrest : rest ≠ []) :
    stringBody opening (spelling ascii c ++ rest) =
      (stringBody opening rest).map (prepend (piecesOf ascii c)) := by
  unfold spelling piecesOf
  cases hs : shortEscape? c with
  | some e =>
    obtain ⟨he, hu⟩ := escaped?_shortEscape? hs
    simp only [List.cons_append, List.nil_append]
    rw [stringBody.eq_def]
    simp only [he, hu, Char.reduceEq, ↓reduceIte]
    cases stringBody opening rest <;> rfl
  | none =>
    by_cases hn : isNumbered ascii c
    · simp only [hn, ↓reduceIte]
      exact stringBody_units (units_lt c) hrest
    · simp only [hn, ↓reduceIte, List.cons_append, List.nil_append]
      have hq : c ≠ '"' := by
        rintro rfl
        contradiction
      have hb : c ≠ '\\' := by
        rintro rfl
        contradiction
      have hc : ¬ c.toNat < 0x20 := fun hlt => hn (.inl hlt)
      rw [stringBody.eq_def]
      simp only [hq, hb, hc, ↓reduceIte]
      cases stringBody opening rest <;> rfl

theorem stringBody_flatMap_spelling {ascii : Bool} {opening rest : List Char} (cs : List Char) :
    stringBody opening (cs.flatMap (spelling ascii) ++ '"' :: rest) =
      .ok (cs.flatMap (piecesOf ascii), rest) := by
  induction cs with
  | nil =>
    rw [List.flatMap_nil, List.nil_append, stringBody.eq_def]
    simp
  | cons c cs ih =>
    rw [List.flatMap_cons, List.append_assoc, stringBody_spelling c (by simp), ih]
    rfl

theorem ofUnit_toNat (c : Char) : CodePoint.ofUnit c.toNat = .scalar c := by
  have hvalid := toNat_valid c
  rw [CodePoint.ofUnit, if_neg (by omega), Char.ofNat_toNat]

theorem joinPieces_unit {n : Nat} (h : ¬ (0xd800 ≤ n ∧ n < 0xdc00)) (rest : List Piece) :
    joinPieces (.unit n :: rest) = CodePoint.ofUnit n :: joinPieces rest := by
  cases rest with
  | nil => rfl
  | cons piece rest =>
    cases piece with
    | char c => rfl
    | unit low =>
      rw [joinPieces, if_neg]
      exact fun hp => h ⟨hp.1, hp.2.1⟩

/-- The two halves of a character are joined again, and no others are taken for them. -/
theorem joinPieces_units (c : Char) (rest : List Piece) :
    joinPieces ((CodePoint.scalar c).units.map .unit ++ rest) = .scalar c :: joinPieces rest := by
  have hvalid := toNat_valid c
  by_cases h : c.toNat < 0x10000
  · rw [units_of_lt h]
    change joinPieces (.unit c.toNat :: rest) = _
    rw [joinPieces_unit (by omega), ofUnit_toNat]
  · rw [units_of_le (Nat.not_lt.mp h)]
    simp only [List.map_cons, List.map_nil, List.cons_append, List.nil_append]
    have hjoin : 0x10000 + (0xd800 + (c.toNat - 0x10000) / 0x400 - 0xd800) * 0x400 +
        (0xdc00 + (c.toNat - 0x10000) % 0x400 - 0xdc00) = c.toNat := by omega
    rw [joinPieces, if_pos (by omega), joinSurrogates, hjoin, Char.ofNat_toNat]

theorem joinPieces_piecesOf {ascii : Bool} (c : Char) (rest : List Piece) :
    joinPieces (piecesOf ascii c ++ rest) = .scalar c :: joinPieces rest := by
  unfold piecesOf
  cases shortEscape? c with
  | some e => rfl
  | none =>
    by_cases hn : isNumbered ascii c
    · simp only [hn, ↓reduceIte]
      exact joinPieces_units c rest
    · simp only [hn, ↓reduceIte]
      rfl

theorem joinPieces_flatMap {ascii : Bool} (cs : List Char) :
    joinPieces (cs.flatMap (piecesOf ascii)) = Text.ofChars cs := by
  induction cs with
  | nil => rfl
  | cons c cs ih => rw [List.flatMap_cons, joinPieces_piecesOf, ih, Text.ofChars_cons]

/-- A string is read from behind its opening quote. -/
theorem string_spelling {ascii : Bool} (opening cs rest : List Char) :
    string opening (cs.flatMap (spelling ascii) ++ '"' :: rest) = .ok (Text.ofChars cs, rest) := by
  rw [string, stringBody_flatMap_spelling]
  change Except.ok (joinPieces (cs.flatMap (piecesOf ascii)), rest) = _
  rw [joinPieces_flatMap]

end TableServer.Json
