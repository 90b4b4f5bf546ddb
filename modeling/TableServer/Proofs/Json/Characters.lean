import TableServer.Proofs.Json.Values

namespace TableServer.Json

/-- Code points that are no control characters below a space. -/
def IsVisible (p : CodePoint) : Prop := ∀ c, p = .scalar c → 0x20 ≤ c.toNat

/-- Characters of ASCII that stand for themselves wherever they are printed. -/
def IsPlain (p : CodePoint) : Prop := ∃ c, p = .scalar c ∧ 0x20 ≤ c.toNat ∧ c.toNat < 0x7f

theorem isPlain_scalar {c : Char} (h : 0x20 ≤ c.toNat ∧ c.toNat < 0x7f) : IsPlain (.scalar c) := ⟨c, rfl, h⟩

theorem IsPlain.isVisible {p : CodePoint} (h : IsPlain p) : IsVisible p := by
  obtain ⟨c, rfl, hlow, _⟩ := h
  rintro d hd
  obtain rfl := CodePoint.scalar.inj hd
  exact hlow

theorem forall_mem_ofChars {P : CodePoint → Prop} {cs : List Char} :
    (∀ p ∈ Text.ofChars cs, P p) ↔ ∀ c ∈ cs, P (.scalar c) := by
  simp [Text.ofChars]

theorem isPlain_digitChar : ∀ d < 16, IsPlain (.scalar (Nat.digitChar d)) := by
  have hall : ∀ d < 16, 0x20 ≤ (Nat.digitChar d).toNat ∧ (Nat.digitChar d).toNat < 0x7f := by decide
  exact fun d hd => isPlain_scalar (hall d hd)

theorem isPlain_of_isDigit {c : Char} (h : c.isDigit = true) : IsPlain (.scalar c) := by
  refine isPlain_scalar ?_
  have hbounds := toNat_of_isDigit h
  omega

theorem isPlain_unitEscape {n : Nat} (h : n < 0x10000) : ∀ c ∈ unitEscape n, IsPlain (.scalar c) := by
  rw [unitEscape, hexadecimal_four h]
  simp only [List.forall_mem_cons, List.not_mem_nil, false_imp_iff, implies_true, and_true]
  exact ⟨isPlain_scalar (by decide), isPlain_scalar (by decide), isPlain_digitChar _ (by omega),
    isPlain_digitChar _ (by omega), isPlain_digitChar _ (by omega), isPlain_digitChar _ (by omega)⟩

theorem isPlain_shortEscape {c e : Char} (h : shortEscape? c = some e) : IsPlain (.scalar e) := by
  refine isPlain_scalar ?_
  unfold shortEscape? at h
  repeat' split at h
  all_goals first
    | (obtain rfl := Option.some.inj h
       decide)
    | contradiction

theorem surrogate_units (offset : Fin 0x800) :
    ∀ n ∈ (CodePoint.surrogate offset).units, n < 0x10000 := by
  intro n hn
  have hlt : 0xd800 + offset.val < 0x10000 := by omega
  rw [CodePoint.units, CodePoint.toNat, if_pos hlt] at hn
  obtain rfl := List.mem_singleton.mp hn
  exact hlt

theorem isPlain_units {units : List Nat} (h : ∀ n ∈ units, n < 0x10000) :
    ∀ p ∈ Text.ofChars (units.flatMap unitEscape), IsPlain p := by
  refine forall_mem_ofChars.mpr fun c hc => ?_
  obtain ⟨n, hn, hc⟩ := List.mem_flatMap.mp hc
  exact isPlain_unitEscape (h n hn) c hc

/-- What is not escaped is plain, unless all is let through that is no control character. -/
theorem mem_writePoint (ascii : Bool) (p : CodePoint) :
    ∀ q ∈ writePoint ascii p, IsPlain q ∨ ascii = false ∧ IsVisible q := by
  cases p with
  | scalar c =>
    rw [writePoint_scalar, forall_mem_ofChars, spelling]
    cases hs : shortEscape? c with
    | some e =>
      simp only [List.forall_mem_cons, List.not_mem_nil, false_imp_iff, implies_true, and_true]
      exact ⟨.inl (isPlain_scalar (by decide)), .inl (isPlain_shortEscape hs)⟩
    | none =>
      by_cases hn : isNumbered ascii c
      · simp only [hn, ↓reduceIte]
        exact fun d hd => .inl (forall_mem_ofChars.mp (isPlain_units (units_lt c)) d hd)
      · simp only [hn, ↓reduceIte, List.forall_mem_singleton]
        rw [isNumbered, not_or, not_and, Nat.not_lt, Nat.not_le] at hn
        cases ascii with
        | true => exact .inl (isPlain_scalar ⟨hn.1, hn.2 rfl⟩)
        | false => exact .inr ⟨rfl, fun d hd => CodePoint.scalar.inj hd ▸ hn.1⟩
  | surrogate offset =>
    unfold writePoint
    cases ascii with
    | true => exact fun q hq => .inl (isPlain_units (surrogate_units offset) q hq)
    | false =>
      intro q hq
      obtain rfl := List.mem_singleton.mp hq
      exact .inr ⟨rfl, fun c hc => nomatch hc⟩

/-- A string has no control character in it, and nothing that is not plain either if it is escaped to ASCII. -/
theorem mem_writeString (ascii : Bool) (t : Text) :
    ∀ p ∈ writeString ascii t, IsPlain p ∨ ascii = false ∧ IsVisible p := by
  intro p hp
  rw [writeString, List.mem_append, List.mem_cons, List.mem_flatMap, List.mem_singleton] at hp
  rcases hp with (rfl | ⟨q, _, hp⟩) | rfl
  · exact .inl (isPlain_scalar (by decide))
  · exact mem_writePoint ascii q p hp
  · exact .inl (isPlain_scalar (by decide))

theorem isVisible_writeString (ascii : Bool) (t : Text) : ∀ p ∈ writeString ascii t, IsVisible p := fun p hp =>
  (mem_writeString ascii t p hp).elim IsPlain.isVisible And.right

theorem isPlain_writeString (t : Text) : ∀ p ∈ writeString true t, IsPlain p := fun p hp =>
  (mem_writeString true t p hp).elim id nofun

theorem isPlain_writeInteger {n : Int} {w : Text} (h : writeInteger n = .ok w) : ∀ p ∈ w, IsPlain p := by
  obtain ⟨_, rfl⟩ := writeInteger_eq h
  rw [forall_mem_ofChars]
  have hdigits : ∀ c ∈ Nat.toDigits 10 n.natAbs, IsPlain (.scalar c) :=
    fun c hc => isPlain_of_isDigit (isDigit_toDigits hc)
  split
  · exact List.forall_mem_cons.mpr ⟨isPlain_scalar (by decide), hdigits⟩
  · exact hdigits

/-- Layouts in which all that is written has a property of code points. -/
structure Layout.Admits (layout : Layout) (P : CodePoint → Prop) : Prop where
  plain : ∀ p, IsPlain p → P p
  string : ∀ t, ∀ p ∈ writeString layout.ascii t, P p
  comma : ∀ p ∈ layout.afterComma, P p
  colon : ∀ p ∈ layout.afterColon, P p
  line : ∀ level, ∀ p ∈ layout.line level, P p

/-- Layouts whose gaps keep to a property of code points. -/
structure Layout.Keeps (layout : Layout) (P : CodePoint → Prop) : Prop where
  visible : ∀ p, IsVisible p → P p
  comma : ∀ p ∈ layout.afterComma, P p
  colon : ∀ p ∈ layout.afterColon, P p
  line : ∀ level, ∀ p ∈ layout.line level, P p

variable {layout : Layout} {P : CodePoint → Prop}

/-- Beside its gaps a layout writes visible characters only. -/
theorem Layout.Keeps.admits (h : layout.Keeps P) : layout.Admits P where
  plain p hp := h.visible p hp.isVisible
  string t p hp := h.visible p (isVisible_writeString layout.ascii t p hp)
  comma := h.comma
  colon := h.colon
  line := h.line

theorem Layout.Admits.enclose (h : layout.Admits P) {level : Nat} {opening closing : Char} {items : List Text}
    (hopening : 0x20 ≤ opening.toNat ∧ opening.toNat < 0x7f) (hclosing : 0x20 ≤ closing.toNat ∧ closing.toNat < 0x7f)
    (hitems : ∀ t ∈ items, ∀ p ∈ t, P p) : ∀ p ∈ layout.enclose level opening closing items, P p := by
  have hopen := h.plain _ (isPlain_scalar hopening)
  have hclose := h.plain _ (isPlain_scalar hclosing)
  have hcomma := h.plain _ (isPlain_scalar (c := ',') (by decide))
  cases items with
  | nil =>
    intro p hp
    simp only [Layout.enclose, List.mem_cons, List.not_mem_nil, or_false] at hp
    rcases hp with rfl | rfl
    · exact hopen
    · exact hclose
  | cons t items =>
    obtain ⟨ht, hitems⟩ := List.forall_mem_cons.mp hitems
    intro p hp
    simp only [Layout.enclose, List.cons_append, List.mem_cons, List.mem_append, List.mem_flatMap,
      List.not_mem_nil, or_false] at hp
    rcases hp with rfl | (((hp | hp) | ⟨i, hi, hp⟩) | hp) | rfl
    · exact hopen
    · exact h.line _ p hp
    · exact ht p hp
    · rcases hp with rfl | (hp | hp) | hp
      · exact hcomma
      · exact h.comma p hp
      · exact h.line _ p hp
      · exact hitems i hi p hp
    · exact h.line _ p hp
    · exact hclose

theorem Layout.Admits.leaf (h : layout.Admits P) {depth : Nat} {v : Value} {level : Nat} {w : Text}
    (hleaf : IsLeaf v) (hv : Fits (fun _ => True) depth v) (hw : writeAt layout level v = .ok w) :
    ∀ p ∈ w, P p := by
  cases v with
  | null =>
    obtain rfl := Except.ok.inj hw
    have hword : ∀ c ∈ ['n', 'u', 'l', 'l'], 0x20 ≤ c.toNat ∧ c.toNat < 0x7f := by simp
    exact forall_mem_ofChars.mpr fun c hc => h.plain _ (isPlain_scalar (hword c hc))
  | boolean b =>
    obtain rfl := Except.ok.inj hw
    have htrue : ∀ c ∈ ['t', 'r', 'u', 'e'], 0x20 ≤ c.toNat ∧ c.toNat < 0x7f := by simp
    have hfalse : ∀ c ∈ ['f', 'a', 'l', 's', 'e'], 0x20 ≤ c.toNat ∧ c.toNat < 0x7f := by simp
    cases b with
    | true => exact forall_mem_ofChars.mpr fun c hc => h.plain _ (isPlain_scalar (htrue c hc))
    | false => exact forall_mem_ofChars.mpr fun c hc => h.plain _ (isPlain_scalar (hfalse c hc))
  | integer n => exact fun p hp => h.plain p (isPlain_writeInteger hw p hp)
  | real x =>
    rw [Fits] at hv
    exact hv.elim
  | string t =>
    obtain rfl := Except.ok.inj hw
    exact h.string t
  | array vs => exact hleaf.elim
  | object ms => exact hleaf.elim

theorem Layout.Admits.memberText (h : layout.Admits P) {name w : Text} (hw : ∀ p ∈ w, P p) :
    ∀ p ∈ memberText layout name w, P p := by
  intro p hp
  simp only [Json.memberText, List.cons_append, List.append_assoc, List.mem_append, List.mem_cons] at hp
  rcases hp with hp | rfl | hp | hp
  · exact h.string name p hp
  · exact h.plain _ (isPlain_scalar (by decide))
  · exact h.colon p hp
  · exact hw p hp

/-- What is written for a value has the property. -/
theorem Layout.Admits.writeAt (h : layout.Admits P) {depth : Nat} {v : Value} {level : Nat} {w : Text}
    (hv : Fits (fun _ => True) depth v) (hw : writeAt layout level v = .ok w) : ∀ p ∈ w, P p := by
  induction depth generalizing v level w with
  | zero =>
    cases v with
    | array vs => exact hv.elim
    | object ms => exact hv.elim
    | _ => exact h.leaf (by exact trivial) hv hw
  | succ depth ih =>
    cases v with
    | array vs =>
      obtain ⟨ws, hws, rfl⟩ := writeAt_array_iff.mp hw
      refine h.enclose (by decide) (by decide) ?_
      have hall := writeItems_eq_ok_iff.mp hws
      change ∀ v ∈ vs, Fits (fun _ => True) depth v at hv
      clear hw hws
      induction hall with
      | nil => exact fun t ht => absurd ht List.not_mem_nil
      | cons hone hrest ihl =>
        obtain ⟨hfirst, hmore⟩ := List.forall_mem_cons.mp hv
        exact List.forall_mem_cons.mpr ⟨ih hfirst hone, ihl hmore⟩
    | object ms =>
      obtain ⟨ws, hws, rfl⟩ := writeAt_object_iff.mp hw
      refine h.enclose (by decide) (by decide) ?_
      have hall := writeMembers_eq_ok_iff.mp hws
      replace hv := hv.2
      clear hw hws
      induction hall with
      | nil => exact fun t ht => absurd ht List.not_mem_nil
      | cons hone hrest ihl =>
        obtain ⟨x, hx, rfl⟩ := hone
        obtain ⟨hfirst, hmore⟩ := List.forall_mem_cons.mp hv
        exact List.forall_mem_cons.mpr ⟨h.memberText (ih hfirst.2 hx), ihl hmore⟩
    | _ => exact h.leaf (by exact trivial) hv hw

/-- What is written in a layout has no control characters but those of its gaps. -/
theorem Layout.Keeps.writeAt (h : layout.Keeps P) {depth : Nat} {v : Value} {level : Nat} {w : Text}
    (hv : Fits (fun _ => True) depth v) (hw : writeAt layout level v = .ok w) : ∀ p ∈ w, P p :=
  h.admits.writeAt hv hw

/-- A table file has no carriage return, which would be read as a newline. -/
theorem Layout.keeps_indented : Layout.indented.Keeps (· ≠ .scalar '\r') where
  visible p hp := by
    rintro rfl
    exact absurd (hp '\r' rfl) (by decide)
  comma p hp := by contradiction
  colon p hp := by
    obtain rfl := List.mem_singleton.mp hp
    decide
  line level p hp := by
    rcases List.mem_cons.mp hp with rfl | hp
    · decide
    · rw [(List.mem_replicate.mp hp).2]
      decide

/-- A line of an answer has no newline in it. -/
theorem Layout.keeps_compact : Layout.compact.Keeps (· ≠ .scalar '\n') where
  visible p hp := by
    rintro rfl
    exact absurd (hp '\n' rfl) (by decide)
  comma p hp := by contradiction
  colon p hp := by contradiction
  line level p hp := by contradiction

/-- A line for a terminal is printed as it is. -/
theorem Layout.admits_terminal : Layout.terminal.Admits IsPlain where
  plain _ hp := hp
  string t := isPlain_writeString t
  comma p hp := by
    obtain rfl := List.mem_singleton.mp hp
    exact isPlain_scalar (by decide)
  colon p hp := by
    obtain rfl := List.mem_singleton.mp hp
    exact isPlain_scalar (by decide)
  line level p hp := by contradiction

end TableServer.Json
