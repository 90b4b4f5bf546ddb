import Mathlib.Data.List.Forall2
import TableServer.Proofs.Json.Numbers
import TableServer.Proofs.Json.Strings
import TableServer.Proofs.Outcomes

namespace TableServer.Json

open Text

/-- A value without reals, nested so deep at most, with all its texts as said and all names of an object different.
Such a value is read as itself once it has been written, in any layout: readers merge members of one name, and go no
deeper than they allow. -/
def Fits (texts : Text → Prop) : Nat → Value → Prop
  | _, .null => True
  | _, .boolean _ => True
  | _, .integer _ => True
  | _, .real _ => False
  | _, .string t => texts t
  | 0, .array _ => False
  | 0, .object _ => False
  | depth + 1, .array vs => ∀ v ∈ vs, Fits texts depth v
  | depth + 1, .object ms => (ms.map (·.1)).Nodup ∧ ∀ m ∈ ms, texts m.1 ∧ Fits texts depth m.2

/-- Characters that readers skip. -/
def Blanks (cs : List Char) : Prop := ∀ c ∈ cs, isJsonBlank c = true

theorem skipBlanks_append {blanks rest : List Char} (h : Blanks blanks) :
    skipBlanks (blanks ++ rest) = skipBlanks rest :=
  List.dropWhile_append_of_pos h

theorem skipBlanks_cons {c : Char} {rest : List Char} (h : isJsonBlank c = false) :
    skipBlanks (c :: rest) = c :: rest :=
  List.dropWhile_cons_of_neg (by simp [h])

theorem skipBlanks_all {blanks : List Char} (h : Blanks blanks) : skipBlanks blanks = [] :=
  (List.append_nil blanks ▸ skipBlanks_append h : skipBlanks blanks = skipBlanks [])

theorem Blanks.endsNumber_append {blanks rest : List Char} (h : Blanks blanks) (hrest : EndsNumber rest) :
    EndsNumber (blanks ++ rest) := by
  cases blanks with
  | nil => exact hrest
  | cons c blanks =>
    have hc : isJsonBlank c = true := h c List.mem_cons_self
    simp only [isJsonBlank, Bool.or_eq_true, decide_eq_true_eq] at hc
    rcases hc with ((rfl | rfl) | rfl) | rfl <;> exact endsNumber_cons

/-- Layouts that put blanks only around values. -/
structure Layout.Spaced (layout : Layout) : Prop where
  comma : ∃ cs, layout.afterComma = ofChars cs ∧ Blanks cs
  colon : ∃ cs, layout.afterColon = ofChars cs ∧ Blanks cs

theorem Layout.spaced_compact : Layout.compact.Spaced :=
  ⟨⟨[], rfl, by simp [Blanks]⟩, ⟨[], rfl, by simp [Blanks]⟩⟩

theorem Layout.spaced_indented : Layout.indented.Spaced :=
  ⟨⟨[], rfl, by simp [Blanks]⟩, ⟨[' '], rfl, by simp [Blanks, isJsonBlank]⟩⟩

theorem Layout.spaced_terminal : Layout.terminal.Spaced :=
  ⟨⟨[' '], rfl, by simp [Blanks, isJsonBlank]⟩, ⟨[' '], rfl, by simp [Blanks, isJsonBlank]⟩⟩

/-- New lines and their indents are blanks, so that no layout changes what is read. -/
theorem Layout.line_blanks (layout : Layout) (level : Nat) :
    ∃ cs, layout.line level = ofChars cs ∧ Blanks cs := by
  unfold Layout.line
  cases layout.indent with
  | none => exact ⟨[], rfl, by simp [Blanks]⟩
  | some width =>
    refine ⟨'\n' :: List.replicate (width * level) ' ', ?_, ?_⟩
    · simp [ofChars]
    · intro c hc
      rcases List.mem_cons.mp hc with rfl | hc
      · rfl
      · rw [(List.mem_replicate.mp hc).2]
        rfl

/-- Items behind a first one, each after a comma and blanks. -/
def moreItems (between : List Char) (items : List (List Char)) : List Char :=
  items.flatMap fun i => ',' :: (between ++ i)

theorem moreItems_cons (between item : List Char) (items : List (List Char)) :
    moreItems between (item :: items) = ',' :: (between ++ (item ++ moreItems between items)) := by
  simp [moreItems]

/-- Items between brackets, with the blanks before the first item, after a comma and after the last item. -/
theorem Layout.enclose_ofChars {layout : Layout} (h : layout.Spaced) (level : Nat) :
    ∃ first between last, Blanks first ∧ Blanks between ∧ Blanks last ∧
      ∀ (opening closing : Char) (item : List Char) (items : List (List Char)),
        layout.enclose level opening closing (ofChars item :: items.map ofChars) =
          ofChars (opening :: (first ++ (item ++ (moreItems between items ++ (last ++ [closing]))))) := by
  obtain ⟨comma, hcomma, hcb⟩ := h.comma
  obtain ⟨first, hfirst, hfb⟩ := layout.line_blanks (level + 1)
  obtain ⟨last, hlast, hlb⟩ := layout.line_blanks level
  refine ⟨first, comma ++ first, last, hfb, ?_, hlb, ?_⟩
  · intro c hc
    exact (List.mem_append.mp hc).elim (hcb c) (hfb c)
  · intro opening closing item items
    have hitems : (items.map ofChars).flatMap (fun i => .scalar ',' :: layout.afterComma ++ layout.line (level + 1) ++ i) =
        ofChars (moreItems (comma ++ first) items) := by
      induction items with
      | nil => rfl
      | cons i items ih =>
        rw [List.map_cons, List.flatMap_cons, moreItems_cons, ih, hcomma, hfirst]
        simp [ofChars]
    rw [Layout.enclose, hitems, hfirst, hlast]
    simp [ofChars]

/-- An array or object holds lone surrogates where its items do. -/
theorem Layout.isChars_enclose {layout : Layout} (h : layout.Spaced) (level : Nat) (opening closing : Char)
    (items : List Text) : (layout.enclose level opening closing items).IsChars ↔ ∀ t ∈ items, t.IsChars := by
  obtain ⟨comma, hcomma, _⟩ := h.comma
  obtain ⟨first, hfirst, _⟩ := layout.line_blanks (level + 1)
  obtain ⟨last, hlast, _⟩ := layout.line_blanks level
  cases items with
  | nil => simp [Layout.enclose, IsChars]
  | cons t items =>
    have hnil : IsChars [] := fun _ h => by contradiction
    simp only [Layout.enclose, hcomma, hfirst, hlast, List.cons_append, isChars_cons_scalar, isChars_append,
      isChars_flatMap, isChars_ofChars, true_and, and_true, hnil, List.forall_mem_cons]

theorem writeItems_eq_ok_iff {layout : Layout} {level : Nat} {vs : List Value} {ws : List Text} :
    writeItems layout level vs = .ok ws ↔ List.Forall₂ (fun v w => writeAt layout level v = .ok w) vs ws := by
  induction vs generalizing ws with
  | nil =>
    rw [writeItems, List.forall₂_nil_left_iff]
    exact ⟨fun h => (Except.ok.inj h).symm, fun h => congrArg _ h.symm⟩
  | cons v vs ih =>
    rw [writeItems, List.forall₂_cons_left_iff]
    constructor
    · intro h
      obtain ⟨w, hv, h⟩ := bind_ok.mp h
      obtain ⟨ws', hvs, h⟩ := bind_ok.mp h
      exact ⟨w, ws', hv, ih.mp hvs, (Except.ok.inj h).symm⟩
    · rintro ⟨w, ws', hv, hvs, rfl⟩
      rw [hv, ih.mpr hvs]
      rfl

/-- The text of a member with a written value. -/
def memberText (layout : Layout) (name : Text) (w : Text) : Text :=
  writeString layout.ascii name ++ .scalar ':' :: layout.afterColon ++ w

theorem writeMembers_eq_ok_iff {layout : Layout} {level : Nat} {ms : List (Text × Value)} {ws : List Text} :
    writeMembers layout level ms = .ok ws ↔
      List.Forall₂ (fun m w => ∃ x, writeAt layout level m.2 = .ok x ∧ w = memberText layout m.1 x) ms ws := by
  induction ms generalizing ws with
  | nil =>
    rw [writeMembers, List.forall₂_nil_left_iff]
    exact ⟨fun h => (Except.ok.inj h).symm, fun h => congrArg _ h.symm⟩
  | cons m ms ih =>
    rw [writeMembers, List.forall₂_cons_left_iff]
    constructor
    · intro h
      obtain ⟨x, hv, h⟩ := bind_ok.mp h
      obtain ⟨ws', hms, h⟩ := bind_ok.mp h
      exact ⟨_, ws', ⟨x, hv, rfl⟩, ih.mp hms, (Except.ok.inj h).symm⟩
    · rintro ⟨w, ws', ⟨x, hv, rfl⟩, hms, rfl⟩
      rw [hv, ih.mpr hms]
      rfl

theorem writeAt_array_iff {layout : Layout} {level : Nat} {vs : List Value} {w : Text} :
    writeAt layout level (.array vs) = .ok w ↔
      ∃ ws, writeItems layout (level + 1) vs = .ok ws ∧ w = layout.enclose level '[' ']' ws := by
  rw [writeAt, bind_ok]
  simp only [Except.ok.injEq, eq_comm]

theorem writeAt_object_iff {layout : Layout} {level : Nat} {ms : List (Text × Value)} {w : Text} :
    writeAt layout level (.object ms) = .ok w ↔
      ∃ ws, writeMembers layout (level + 1) ms = .ok ws ∧ w = layout.enclose level '\x7b' '\x7d' ws := by
  rw [writeAt, bind_ok]
  simp only [Except.ok.injEq, eq_comm]

/-- A lone surrogate in a member comes from its name or from its value. -/
theorem isChars_memberText {layout : Layout} (hl : layout.Spaced) (ha : layout.ascii = false) (name w : Text) :
    (memberText layout name w).IsChars ↔ name.IsChars ∧ w.IsChars := by
  obtain ⟨colon, hcolon, _⟩ := hl.colon
  rw [memberText, hcolon, ha, isChars_append, isChars_append, isChars_writeString, isChars_cons_scalar]
  simp only [isChars_ofChars, and_true]

/-- Values without others inside. -/
def IsLeaf : Value → Prop
  | .array _ => False
  | .object _ => False
  | _ => True

theorem isChars_leaf {layout : Layout} (ha : layout.ascii = false) {depth : Nat} {v : Value} {level : Nat}
    {w : Text} (hleaf : IsLeaf v) (hv : Fits (fun _ => True) depth v) (hw : writeAt layout level v = .ok w) :
    w.IsChars ↔ Fits IsChars depth v := by
  cases v with
  | null =>
    obtain rfl := Except.ok.inj hw
    simp [Fits, ofString, isChars_ofChars]
  | boolean b =>
    obtain rfl := Except.ok.inj hw
    simp [Fits, ofString, isChars_ofChars]
  | integer n =>
    obtain ⟨_, rfl⟩ := writeInteger_eq hw
    simp [Fits, isChars_ofChars]
  | real x =>
    rw [Fits] at hv
    exact hv.elim
  | string t =>
    obtain rfl := Except.ok.inj hw
    rw [ha, isChars_writeString, Fits]
  | array vs => exact hleaf.elim
  | object ms => exact hleaf.elim

/-- What is written without escapes for all but ASCII has lone surrogates where the value has. -/
theorem isChars_writeAt {layout : Layout} (hl : layout.Spaced) (ha : layout.ascii = false) {depth : Nat}
    {v : Value} {level : Nat} {w : Text} (hv : Fits (fun _ => True) depth v)
    (hw : writeAt layout level v = .ok w) : w.IsChars ↔ Fits IsChars depth v := by
  induction depth generalizing v level w with
  | zero =>
    cases v with
    | array vs => exact hv.elim
    | object ms => exact hv.elim
    | _ => exact isChars_leaf ha trivial hv hw
  | succ depth ih =>
    cases v with
    | array vs =>
      obtain ⟨ws, hws, rfl⟩ := writeAt_array_iff.mp hw
      rw [Layout.isChars_enclose hl]
      have hall := writeItems_eq_ok_iff.mp hws
      clear hw hws
      change ∀ v ∈ vs, Fits (fun _ => True) depth v at hv
      change _ ↔ ∀ v ∈ vs, Fits IsChars depth v
      induction hall with
      | nil => simp
      | cons hone hrest ihl =>
        obtain ⟨hfirst, hmore⟩ := List.forall_mem_cons.mp hv
        rw [List.forall_mem_cons, List.forall_mem_cons]
        exact and_congr (ih hfirst hone) (ihl hmore)
    | object ms =>
      obtain ⟨ws, hws, rfl⟩ := writeAt_object_iff.mp hw
      rw [Layout.isChars_enclose hl]
      have hall := writeMembers_eq_ok_iff.mp hws
      obtain ⟨hnames, hv⟩ := hv
      change _ ↔ (ms.map (·.1)).Nodup ∧ ∀ m ∈ ms, m.1.IsChars ∧ Fits IsChars depth m.2
      rw [and_iff_right hnames]
      clear hw hws hnames
      induction hall with
      | nil => simp
      | cons hone hrest ihl =>
        obtain ⟨x, hx, rfl⟩ := hone
        obtain ⟨hfirst, hmore⟩ := List.forall_mem_cons.mp hv
        rw [List.forall_mem_cons, List.forall_mem_cons, isChars_memberText hl ha]
        exact and_congr (and_congr_right fun _ => ih hfirst.2 hx) (ihl hmore)
    | _ => exact isChars_leaf ha trivial hv hw

end TableServer.Json
