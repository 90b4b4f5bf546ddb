import TableServer.Proofs.Outcomes
import TableServer.Proofs.Statement.Grammar
import TableServer.Proofs.Text.Runs
import TableServer.Store.Template

namespace TableServer.Template

section

variable {name : List Char} {c : Char}

/-- A character that names of tables have. -/
def isWordChar (c : Char) : Bool := c.isAlphanum || c = '_'

theorem isWordChar_of_mem (h : Grammar.IsWord name) (hc : c ∈ name) : isWordChar c = true := by
  obtain hword | rfl := h.2 c hc
  · simp [isWordChar, hword]
  · decide

theorem isWord_replicate (h : isWordChar c = true) {n : Nat} (hn : n ≠ 0) : Grammar.IsWord (List.replicate n c) := by
  refine ⟨by simpa using hn, fun d hd => ?_⟩
  obtain rfl := List.eq_of_mem_replicate hd
  simpa [isWordChar] using h

end

namespace Layout

variable {l : Layout} {cs ds : List Char} {c : Char}

/-- A text cut to the precision, if there is one. -/
def cut (l : Layout) (cs : List Char) : List Char := (l.precision.map fun n => cs.take n).getD cs

/-- A text is cut first, and stands then with its filling on either side. -/
theorem text_eq (l : Layout) (cs : List Char) : ∃ before after,
    before + after = l.width.getD 0 - (l.cut cs).length ∧
      l.text cs = List.replicate before l.fill ++ l.cut cs ++ List.replicate after l.fill := by
  have hcut : (l.precision.map fun n => cs.take n).getD cs = l.cut cs := rfl
  simp only [text, pad, hcut, List.length_nil, Nat.zero_add, List.nil_append, List.append_nil]
  generalize hroom : l.width.getD 0 - (l.cut cs).length = room
  cases l.alignment.getD .left with
  | left => exact ⟨0, room, by simp⟩
  | right => exact ⟨room, 0, by simp⟩
  | centre => exact ⟨room / 2, room - room / 2, by omega, rfl⟩
  | afterSign => exact ⟨room, 0, by simp⟩

theorem length_text (l : Layout) (cs : List Char) :
    (l.text cs).length = max (l.width.getD 0) (l.cut cs).length := by
  obtain ⟨before, after, hroom, htext⟩ := l.text_eq cs
  rw [htext]
  simp only [List.length_append, List.length_replicate]
  omega

theorem length_cut_mono (l : Layout) (h : cs.length ≤ ds.length) : (l.cut cs).length ≤ (l.cut ds).length := by
  unfold cut
  cases l.precision with
  | none => simpa using h
  | some n =>
    simp only [Option.map_some, Option.getD_some, List.length_take]
    omega

/-- A longer text is not laid out shorter. -/
theorem length_text_mono (l : Layout) (h : cs.length ≤ ds.length) : (l.text cs).length ≤ (l.text ds).length := by
  have hcut := l.length_cut_mono h
  rw [length_text, length_text]
  omega

theorem mem_cut (h : c ∈ l.cut cs) : c ∈ cs := by
  unfold cut at h
  cases hn : l.precision with
  | none => simpa [hn] using h
  | some n =>
    rw [hn] at h
    exact List.mem_of_mem_take h

/-- A text that is laid out has its own characters and the filling. -/
theorem mem_text (h : c ∈ l.text cs) : c = l.fill ∨ c ∈ cs := by
  obtain ⟨before, after, _, htext⟩ := l.text_eq cs
  simp only [htext, List.mem_append, List.mem_replicate] at h
  obtain (⟨_, hfill⟩ | hcut) | ⟨_, hfill⟩ := h
  · exact .inl hfill
  · exact .inr (mem_cut hcut)
  · exact .inl hfill

/-- Texts that are cut to the same are laid out the same. -/
theorem text_eq_of_cut_eq (l : Layout) (h : l.cut cs = l.cut ds) : l.text cs = l.text ds := by
  have hcs : (l.precision.map fun n => cs.take n).getD cs = l.cut cs := rfl
  have hds : (l.precision.map fun n => ds.take n).getD ds = l.cut ds := rfl
  rw [text, text, hcs, hds, h]

/-- A run of the filling is not told from a shorter one. -/
theorem text_replicate (hprecision : l.precision = none) {n : Nat} (hn : n ≤ l.width.getD 0) :
    l.text (List.replicate n l.fill) = List.replicate (l.width.getD 0) l.fill := by
  obtain ⟨before, after, hroom, htext⟩ := l.text_eq (List.replicate n l.fill)
  have hcut : l.cut (List.replicate n l.fill) = List.replicate n l.fill := by
    rw [cut, hprecision]
    rfl
  rw [hcut, List.length_replicate] at hroom
  rw [htext, hcut, List.replicate_append_replicate, List.replicate_append_replicate]
  congr 1
  omega

end Layout

theorem mem_of_readAlignment {cs rest : List Char} {c : Char} {alignment : Option Alignment}
    (h : readAlignment cs = (some c, alignment, rest)) : c ∈ cs := by
  unfold readAlignment at h
  split at h
  · split at h <;> cases h
    simp
  · cases h
  · cases h

theorem takeOne_eq {p : Char → Bool} {cs rest : List Char} {c : Char} (h : takeOne p cs = (some c, rest)) :
    p c = true := by
  unfold takeOne at h
  split at h
  · split at h
    · next hp =>
      cases h
      exact hp
    · cases h
  · cases h

/-- The filling is a blank or a zero, or is written in the layout. -/
theorem fill_of_readLayout {k : Kind} {text : List Char} {l : Layout} (h : readLayout k text = .ok l) :
    l.fill = ' ' ∨ l.fill = '0' ∨ l.fill ∈ text := by
  unfold readLayout at h
  rcases hread : readAlignment text with ⟨fill, alignment, cs⟩
  rw [hread] at h
  dsimp only at h
  generalize hpadding : (if fill.isSome then _ else _ : Option Char × List Char) = padded at h
  have hfill : l.fill = (fill.or padded.1).getD ' ' := by
    simp only [bind_ok] at h
    obtain ⟨_, _, ⟨separator, _⟩, _, ⟨_, kind⟩, _, h⟩ := h
    rcases kind with _ | ⟨c, _ | ⟨_, _⟩⟩
    case cons.cons => cases h
    all_goals
      cases separator with
      | none =>
        cases h
        rfl
      | some mark =>
        obtain ⟨_, _, h⟩ := bind_ok.mp h
        dsimp only at h
        split at h
        · cases h
          rfl
        · cases h
  rw [hfill]
  cases fill with
  | some c => exact .inr (.inr (mem_of_readAlignment hread))
  | none =>
    rw [if_neg (by simp)] at hpadding
    obtain ⟨padding, rest⟩ := padded
    cases padding with
    | none => exact .inl rfl
    | some c => exact .inr (.inl (of_decide_eq_true (takeOne_eq hpadding)))

/-- Nothing is asked for in an empty layout. -/
theorem readLayout_nil : readLayout .text [] = .ok ⟨' ', none, none, false, false, none, none, none, none⟩ := rfl

variable {name other : List Char} {c d : Char}

theorem ne_of_isWordChar (hc : isWordChar c = true) (hd : isWordChar d = false) : c ≠ d := by
  intro h
  rw [h, hd] at hc
  contradiction

theorem toNat_of_isWordChar (h : isWordChar c = true) : 0x30 ≤ c.toNat ∧ c.toNat ≤ 0x7a := by
  simp only [isWordChar, Bool.or_eq_true, decide_eq_true_eq] at h
  obtain h | rfl := h
  · delta Char.isAlphanum Char.isAlpha Char.isUpper Char.isLower Char.isDigit at h
    simp only [Bool.or_eq_true, Bool.and_eq_true, decide_eq_true_eq, ge_iff_le, UInt32.le_iff_toNat_le] at h
    change ((65 ≤ c.toNat ∧ c.toNat ≤ 90) ∨ (97 ≤ c.toNat ∧ c.toNat ≤ 122)) ∨ (48 ≤ c.toNat ∧ c.toNat ≤ 57) at h
    omega
  · decide

theorem isPrintable_of_isWordChar (h : isWordChar c = true) : isPrintable c = true := by
  obtain ⟨hfirst, hlast⟩ := toNat_of_isWordChar h
  have hrange : 0x20 ≤ c.toNat ∧ c.toNat ≤ 0x7e := by omega
  refine List.any_eq_true.mpr ⟨(0x20, 0x7e), List.mem_cons_self, ?_⟩
  simpa using hrange

/-- A word needs no escapes in quotes. -/
theorem literalWith_of_isWord {keep : Char → Bool} (hkeep : ∀ c, isWordChar c = true → keep c = true)
    (h : Grammar.IsWord name) : (literalWith keep (String.ofList name)).toList = '\'' :: name ++ ['\''] := by
  have hno : ∀ d, isWordChar d = false → d ∉ name := by
    intro d hd hmem
    exact ne_of_isWordChar (isWordChar_of_mem h hmem) hd rfl
  have hquote : literalQuote name = '\'' := by
    have hsingle : '\'' ∉ name := hno '\'' (by decide)
    simp [literalQuote, hsingle]
  have hkept : ∀ c ∈ name, literalChar keep '\'' c = [c] := by
    intro c hc
    have hword := isWordChar_of_mem h hc
    have hescaped : ∀ d, isWordChar d = false → c ≠ d := fun d hd => ne_of_isWordChar hword hd
    simp [literalChar, hkeep c hword, hescaped '\'' (by decide), hescaped '\\' (by decide), hescaped '\n' (by decide),
      hescaped '\r' (by decide), hescaped '\t' (by decide)]
  have hchars : name.flatMap (literalChar keep '\'') = name := by
    rw [List.flatMap_def, List.map_congr_left hkept, ← List.flatMap_def, List.flatMap_singleton']
  simp [literalWith, hquote, hchars]

namespace Field

variable {f : Field} {l : Layout}

/-- A field that stands for the whole name, in a layout that does not depend on the name itself. -/
def IsDirect (f : Field) : Prop := f.path = tableName ∧ '\x7b' ∉ f.layout

/-- A field that starts from anything else than the name of the table. -/
def IsForeign (f : Field) : Prop := (f.path.takeWhile fun c => !startsSelector c) ≠ tableName

/-- The choices of a conversion: none, the text itself in two ways, and in quotes in two ways. -/
def conversions : List (Option Char) := [none, some 's', some '\x00', some 'r', some 'a']

/-- A direct field with a conversion that there is, and a layout that makes sense for texts. -/
structure Takes (f : Field) (l : Layout) : Prop where
  direct : f.IsDirect
  conversion : f.conversion ∈ conversions
  layout : readLayout .text f.layout = .ok l
  sense : l.checkText = .ok ()

/-- What a direct field shows of a name. -/
def shows (f : Field) (name : List Char) : Except Fault (List Char) := do
  layOut f.layout (← convert f.conversion (.text name))

/-- Whether a field puts names in quotes. -/
def IsQuoting (f : Field) : Prop := f.conversion = some 'r' ∨ f.conversion = some 'a'

instance : Decidable f.IsQuoting := inferInstanceAs (Decidable (_ ∨ _))

/-- A name as it is laid out. -/
def body (f : Field) (name : List Char) : List Char := if f.IsQuoting then '\'' :: name ++ ['\''] else name

/-- A text is converted to a text, and only where there is the conversion. -/
theorem convert_eq_ok {conversion : Option Char} {s : Subject} (h : convert conversion (.text name) = .ok s) :
    conversion ∈ conversions ∧ ∃ cs, s = .text cs := by
  unfold convert at h
  cases conversion with
  | none =>
    cases h
    exact ⟨by decide, _, rfl⟩
  | some c =>
    dsimp only at h
    split at h
    · next hc =>
      cases h
      exact ⟨by simp [conversions, hc], _, rfl⟩
    split at h
    · next hc =>
      cases h
      exact ⟨by simp [conversions, hc], _, rfl⟩
    split at h
    · next hc =>
      cases h
      exact ⟨by simp [conversions, hc], _, rfl⟩
    split at h
    · next hc =>
      cases h
      exact ⟨by simp [conversions, hc], _, rfl⟩
    · cases h

/-- A conversion that there is leaves a word as it is, or puts it in quotes. -/
theorem convert_of_takes (h : f.Takes l) (hname : Grammar.IsWord name) :
    convert f.conversion (.text name) = .ok (.text (f.body name)) := by
  have hconversion := h.conversion
  have hprintable : ∀ c, isWordChar c = true → isPrintable c = true := fun _ => isPrintable_of_isWordChar
  have hascii : ∀ c, isWordChar c = true → (isPrintable c && c.toNat < 0x80) = true := by
    intro c hc
    obtain ⟨_, hlast⟩ := toNat_of_isWordChar hc
    have hbelow : c.toNat < 0x80 := by omega
    simp [isPrintable_of_isWordChar hc, hbelow]
  simp only [conversions, List.mem_cons, List.not_mem_nil, or_false] at hconversion
  unfold convert body IsQuoting
  obtain h | h | h | h | h := hconversion
  · simp [h]
  · simp [h, Subject.shown]
  · simp [h]
  · simp [h, Subject.quotedBy, quoted, literalWith_of_isWord hprintable hname]
  · simp [h, Subject.quotedBy, quotedAscii, literalWith_of_isWord hascii hname]

theorem layOut_of_takes (h : f.Takes l) (cs : List Char) : layOut f.layout (.text cs) = .ok (l.text cs) := by
  unfold layOut
  split
  · next hempty =>
    have hread := h.layout
    rw [List.isEmpty_iff.mp hempty] at hread
    obtain rfl := Except.ok.inj (readLayout_nil.symm.trans hread)
    simp [Layout.text, Layout.pad, Subject.shown]
  · rw [h.layout]
    change (do l.checkText; .ok (l.text cs)) = _
    rw [h.sense]
    rfl

/-- A field that can be used shows every name. -/
theorem shows_of_takes (h : f.Takes l) (hname : Grammar.IsWord name) : f.shows name = .ok (l.text (f.body name)) := by
  rw [shows, convert_of_takes h hname]
  exact layOut_of_takes h (f.body name)

/-- A direct field that cannot be used shows none. -/
theorem shows_of_not_takes (h : ∀ l, ¬ f.Takes l) (hdirect : f.IsDirect) (name : List Char) :
    ∃ fault, f.shows name = .error fault := by
  unfold shows
  cases hconvert : convert f.conversion (.text name) with
  | error fault => exact ⟨fault, rfl⟩
  | ok s =>
    obtain ⟨hconversion, cs, rfl⟩ := convert_eq_ok hconvert
    change ∃ fault, layOut f.layout (.text cs) = .error fault
    unfold layOut
    split
    · next hempty =>
      have hread := readLayout_nil
      rw [← List.isEmpty_iff.mp hempty] at hread
      exact absurd ⟨hdirect, hconversion, hread, rfl⟩ (h _)
    · dsimp only
      cases hread : readLayout .text f.layout with
      | error fault => exact ⟨fault, rfl⟩
      | ok l =>
        cases hsense : l.checkText with
        | error fault =>
          refine ⟨fault, ?_⟩
          change (do l.checkText; .ok (l.text cs)) = _
          rw [hsense]
          rfl
        | ok u => exact absurd ⟨hdirect, hconversion, hread, hsense⟩ (h l)

theorem length_body (f : Field) (name : List Char) :
    (f.body name).length = name.length + if f.IsQuoting then 2 else 0 := by
  unfold body
  split
  · simp
  · rfl

/-- What a field shows of a longer name is not shorter. -/
theorem length_shows_mono (h : f.Takes l) (hname : Grammar.IsWord name) (hother : Grammar.IsWord other)
    (hle : name.length ≤ other.length) {shown shown' : List Char} (hshown : f.shows name = .ok shown)
    (hshown' : f.shows other = .ok shown') : shown.length ≤ shown'.length := by
  obtain rfl := Except.ok.inj ((shows_of_takes h hname).symm.trans hshown)
  obtain rfl := Except.ok.inj ((shows_of_takes h hother).symm.trans hshown')
  apply l.length_text_mono
  rw [length_body, length_body]
  omega

/-- A field that shows the whole of a name, with no filling that could be a part of the name. It tells any two names
apart. -/
def IsWhole (f : Field) : Prop :=
  ∃ l, f.Takes l ∧ l.precision = none ∧ (f.IsQuoting ∨ isWordChar l.fill = false ∨ l.width.getD 0 ≤ 1)

/-- A field that shows the start of a name alone, and tells none apart that start alike. -/
def IsCut (f : Field) (n : Nat) : Prop := ∃ l, f.Takes l ∧ l.precision = some n

/-- A field that fills short names up with a character as it is in names, so that the filling is not told from it. -/
def FillsWith (f : Field) (c : Char) : Prop :=
  ∃ l, f.Takes l ∧ l.precision = none ∧ ¬ f.IsQuoting ∧ l.fill = c ∧ 2 ≤ l.width.getD 0

theorem cut_of_precision (hprecision : l.precision = none) (cs : List Char) : l.cut cs = cs := by
  rw [Layout.cut, hprecision]
  rfl

/-- The characters of a name that are left of it as it is laid out, between filling that no name has. -/
theorem filter_filled (f : Field) (hname : Grammar.IsWord name) (hfill : isWordChar c = false) (before after : Nat) :
    (List.replicate before c ++ f.body name ++ List.replicate after c).filter isWordChar = name := by
  have hquote : isWordChar '\'' = false := by decide
  have hkept : name.filter isWordChar = name := List.filter_eq_self.mpr fun d hd => isWordChar_of_mem hname hd
  have hbody : (f.body name).filter isWordChar = name := by
    unfold body
    split
    · simp [List.filter_append, hquote, hkept]
    · exact hkept
  simp [List.filter_append, hfill, hbody]

/-- The characters between two quotes. -/
def betweenQuotes (cs : List Char) : List Char := (cs.dropWhile (· ≠ '\'')).tail.takeWhile (· ≠ '\'')

/-- A name that is in quotes stands between filling without quotes. -/
theorem betweenQuotes_filled (hquoting : f.IsQuoting) (hname : Grammar.IsWord name) (hfill : isWordChar c = true)
    (before after : Nat) :
    betweenQuotes (List.replicate before c ++ f.body name ++ List.replicate after c) = name := by
  have hquote : isWordChar '\'' = false := by decide
  have hrun : ∀ d ∈ List.replicate before c, decide (d ≠ '\'') = true := by
    intro d hd
    obtain rfl := List.eq_of_mem_replicate hd
    simpa using ne_of_isWordChar hfill hquote
  have hword : ∀ d ∈ name, decide (d ≠ '\'') = true := by
    intro d hd
    simpa using ne_of_isWordChar (isWordChar_of_mem hname hd) hquote
  have hshape : List.replicate before c ++ f.body name ++ List.replicate after c =
      List.replicate before c ++ '\'' :: (name ++ '\'' :: List.replicate after c) := by
    simp [body, hquoting]
  rw [betweenQuotes, hshape, dropWhile_run hrun (by simp), List.tail_cons, takeWhile_run hword (by simp)]

/-- A field that shows the whole of names tells any two apart. -/
theorem eq_of_shows_eq (h : f.IsWhole) (hname : Grammar.IsWord name) (hother : Grammar.IsWord other)
    (heq : f.shows name = f.shows other) : name = other := by
  obtain ⟨l, htakes, hprecision, hwhole⟩ := h
  rw [shows_of_takes htakes hname, shows_of_takes htakes hother] at heq
  obtain ⟨before, after, hroom, htext⟩ := l.text_eq (f.body name)
  obtain ⟨before', after', hroom', htext'⟩ := l.text_eq (f.body other)
  rw [cut_of_precision hprecision] at hroom htext hroom' htext'
  have hsame := Except.ok.inj heq
  rw [htext, htext'] at hsame
  cases hfill : isWordChar l.fill with
  | false =>
    have hchars := congrArg (List.filter isWordChar) hsame
    rwa [filter_filled f hname hfill, filter_filled f hother hfill] at hchars
  | true =>
    obtain hquoting | hno | hwidth := hwhole
    · have hquoted := congrArg betweenQuotes hsame
      rwa [betweenQuotes_filled hquoting hname hfill, betweenQuotes_filled hquoting hother hfill] at hquoted
    · rw [hfill] at hno
      contradiction
    · -- A name has a character, so that there is nothing to fill up.
      have hlength : 0 < name.length := List.length_pos_iff.mpr hname.1
      have hlength' : 0 < other.length := List.length_pos_iff.mpr hother.1
      rw [length_body] at hroom hroom'
      obtain ⟨rfl, rfl⟩ : before = 0 ∧ after = 0 := by omega
      obtain ⟨rfl, rfl⟩ : before' = 0 ∧ after' = 0 := by omega
      have hblank : isWordChar ' ' = false := by decide
      rw [← filter_filled f hname hblank 0 0, ← filter_filled f hother hblank 0 0]
      exact congrArg (List.filter isWordChar) hsame

/-- A field that cuts names shows the same of those that start alike. -/
theorem shows_eq_of_take_eq {n : Nat} (h : f.IsCut n) (hname : Grammar.IsWord name) (hother : Grammar.IsWord other)
    (heq : name.take n = other.take n) : f.shows name = f.shows other := by
  obtain ⟨l, htakes, hprecision⟩ := h
  rw [shows_of_takes htakes hname, shows_of_takes htakes hother]
  congr 1
  apply l.text_eq_of_cut_eq
  rw [Layout.cut, Layout.cut, hprecision]
  change (f.body name).take n = (f.body other).take n
  unfold body
  split
  · cases n with
    | zero => rfl
    | succ m =>
      have hlengths := congrArg List.length heq
      simp only [List.length_take] at hlengths
      have hrest : m - name.length = m - other.length := by omega
      have hstart : name.take m = other.take m := by
        have htaken := congrArg (List.take m) heq
        simpa [List.take_take] using htaken
      simp [List.take_append, hrest, hstart]
  · exact heq

/-- A field that fills up with a character does not tell it from the same one twice. -/
theorem shows_eq_of_fillsWith (h : f.FillsWith c) (hword : isWordChar c = true) : f.shows [c] = f.shows [c, c] := by
  obtain ⟨l, htakes, hprecision, hquoting, rfl, hwidth⟩ := h
  have hshort : Grammar.IsWord [l.fill] := isWord_replicate hword (Nat.succ_ne_zero 0)
  have hlong : Grammar.IsWord [l.fill, l.fill] := isWord_replicate hword (Nat.succ_ne_zero 1)
  rw [shows_of_takes htakes hshort, shows_of_takes htakes hlong]
  have hone : f.body [l.fill] = List.replicate 1 l.fill := if_neg hquoting
  have htwo : f.body [l.fill, l.fill] = List.replicate 2 l.fill := if_neg hquoting
  rw [hone, htwo, Layout.text_replicate hprecision (by omega), Layout.text_replicate hprecision hwidth]

end Field

end TableServer.Template
