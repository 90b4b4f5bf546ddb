import TableServer.Proofs.Json.Bounds
import TableServer.Proofs.Json.RoundTrip

namespace TableServer

namespace Json

/-- A reader that leaves an end of its text. -/
def Reader.Leaves {α : Type} (reader : Reader α) : Prop :=
  ∀ cs a rest, reader cs = .ok (a, rest) → rest <:+ cs

variable {cs rest : List Char}

theorem skipBlanks_suffix (cs : List Char) : skipBlanks cs <:+ cs := List.dropWhile_suffix _

/-- What is left behind a blank and a mark. -/
theorem suffix_of_skipBlanks {c : Char} {more : List Char} (h : skipBlanks cs = c :: more) : more <:+ cs :=
  (List.suffix_cons c more).trans (h ▸ skipBlanks_suffix cs)

theorem leaves_stringBody (opening : List Char) : (stringBody opening).Leaves := by
  intro cs pieces rest h
  fun_induction stringBody opening cs generalizing pieces rest with
  | case2 more =>
    obtain ⟨_, rfl⟩ := Prod.mk.inj (Except.ok.inj h)
    exact List.suffix_cons _ _
  | case4 a b c d unit e more _ _ ih =>
    obtain ⟨⟨pieces', rest'⟩, hbody, h⟩ := bind_ok.mp h
    obtain ⟨_, rfl⟩ := Prod.mk.inj (Except.ok.inj h)
    exact (ih _ _ hbody).trans (List.suffix_append ['\\', 'u', a, b, c, d] _)
  | case7 c more _ d _ _ ih =>
    obtain ⟨⟨pieces', rest'⟩, hbody, h⟩ := bind_ok.mp h
    obtain ⟨_, rfl⟩ := Prod.mk.inj (Except.ok.inj h)
    exact (ih _ _ hbody).trans (List.suffix_append ['\\', c] more)
  | case10 c more _ _ _ ih =>
    obtain ⟨⟨pieces', rest'⟩, hbody, h⟩ := bind_ok.mp h
    obtain ⟨_, rfl⟩ := Prod.mk.inj (Except.ok.inj h)
    exact (ih _ _ hbody).trans (List.suffix_cons c more)
  | _ => contradiction

theorem leaves_string (opening : List Char) : (string opening).Leaves := by
  intro cs t rest h
  obtain ⟨⟨pieces, rest'⟩, hbody, h⟩ := bind_ok.mp h
  obtain ⟨_, rfl⟩ := Prod.mk.inj (Except.ok.inj h)
  exact leaves_stringBody opening cs pieces _ hbody

theorem wholePart_suffix {whole : List Char} (h : wholePart cs = some (whole, rest)) : cs = whole ++ rest := by
  unfold wholePart at h
  split at h
  · obtain ⟨rfl, rfl⟩ := Prod.mk.inj (Option.some.inj h)
    rfl
  · split at h
    · obtain ⟨rfl, rfl⟩ := Prod.mk.inj (Option.some.inj h)
      exact List.takeWhile_append_dropWhile.symm
    · contradiction
  · contradiction

theorem fraction_suffix {places : List Char} (h : fraction cs = some (places, rest)) : rest <:+ cs := by
  unfold fraction at h
  split at h
  · dsimp only [takeDigits] at h
    split at h
    · contradiction
    · obtain ⟨_, rfl⟩ := Prod.mk.inj (Option.some.inj h)
      exact (List.dropWhile_suffix _).trans (List.suffix_cons _ _)
  · contradiction

theorem exponent_suffix {power : Int} (h : exponent cs = some (power, rest)) : rest <:+ cs := by
  unfold exponent at h
  split at h
  · next e more =>
    split at h
    · split at h
      next negative unsigned hsign =>
      have hunsigned : unsigned <:+ more := by
        split at hsign
        all_goals
          obtain ⟨_, rfl⟩ := Prod.mk.inj hsign
        · exact List.suffix_cons _ _
        · exact List.suffix_cons _ _
        · exact List.suffix_rfl
      dsimp only [takeDigits] at h
      split at h
      · contradiction
      · obtain ⟨_, rfl⟩ := Prod.mk.inj (Option.some.inj h)
        exact (List.dropWhile_suffix _).trans (hunsigned.trans (List.suffix_cons e more))
    · contradiction
  · contradiction

/-- A number without its sign. -/
theorem unsigned_suffix {negative : Bool} {unsigned : List Char}
    (h : (match cs with
      | '-' :: rest => (true, rest)
      | cs => (false, cs)) = (negative, unsigned)) : unsigned <:+ cs := by
  split at h
  · obtain ⟨_, rfl⟩ := Prod.mk.inj h
    exact List.suffix_cons _ _
  · obtain ⟨_, rfl⟩ := Prod.mk.inj h
    exact List.suffix_rfl

theorem leaves_number : Reader.Leaves number := by
  intro cs v rest h
  unfold number at h
  split at h
  next negative unsigned hsign =>
  split at h
  · contradiction
  · next whole after hwhole =>
    have hafter : after <:+ cs := by
      apply List.IsSuffix.trans _ (unsigned_suffix hsign)
      rw [wholePart_suffix hwhole]
      exact List.suffix_append whole after
    have hplaces : ((fraction after).getD ([], after)).2 <:+ after := by
      cases hfraction : fraction after with
      | none => exact List.suffix_rfl
      | some read => exact fraction_suffix hfraction
    dsimp only at h
    split at h
    · split at h
      · contradiction
      · obtain ⟨_, rfl⟩ := Prod.mk.inj (Except.ok.inj h)
        exact hafter
    · obtain ⟨_, rfl⟩ := Prod.mk.inj (Except.ok.inj h)
      apply List.IsSuffix.trans _ (hplaces.trans hafter)
      cases hexponent : exponent ((fraction after).getD ([], after)).2 with
      | none => exact List.suffix_rfl
      | some read => exact exponent_suffix hexponent

theorem leaves_scalar : Reader.Leaves scalar := by
  intro cs v rest h
  unfold scalar at h
  split at h
  · obtain ⟨_, rfl⟩ := Prod.mk.inj (Except.ok.inj h)
    exact List.drop_suffix _ _
  · exact leaves_number cs v rest h

variable {item : Reader Value}

theorem leaves_member (hitem : item.Leaves) : (member item).Leaves := by
  intro cs m rest h
  obtain ⟨body, colon, before, rfl, hname, hcolon, hvalue⟩ := member_eq_ok h
  have hbehind := (leaves_string _ _ _ _ hname).trans (List.suffix_cons '"' body)
  have hbefore := (skipBlanks_suffix before).trans ((suffix_of_skipBlanks hcolon).trans hbehind)
  exact (hitem _ _ _ hvalue).trans hbefore

section

variable {α : Type} {closing : Char} {entry : Reader α}

theorem Entered.suffix {as : List α} (h : Entered closing entry cs as rest) (hentry : entry.Leaves) : rest <:+ cs := by
  induction h with
  | last hone hmark => exact (suffix_of_skipBlanks hmark).trans (hentry _ _ _ hone)
  | more hone hmark _ ih =>
    exact ih.trans ((skipBlanks_suffix _).trans ((suffix_of_skipBlanks hmark).trans (hentry _ _ _ hone)))

theorem leaves_entries (hentry : entry.Leaves) (fuel : Nat) : (entries closing entry fuel).Leaves :=
  fun _ _ _ h => (entered_of_entries h).suffix hentry

theorem leaves_bracketed {list : Reader (List α)} (hlist : list.Leaves) (build : List α → Value) :
    (bracketed closing list build).Leaves := by
  intro cs v rest h
  rcases bracketed_eq_ok h with ⟨hmark, _⟩ | ⟨as, hentries, _⟩
  · exact suffix_of_skipBlanks hmark
  · exact (hlist _ _ _ hentries).trans (skipBlanks_suffix cs)

end

theorem leaves_array (hitem : item.Leaves) (fuel : Nat) : (array item fuel).Leaves := by
  rw [array_eq]
  exact leaves_bracketed (leaves_entries hitem fuel) _

theorem leaves_object (hitem : item.Leaves) (fuel : Nat) : (object item fuel).Leaves := by
  rw [object_eq]
  exact leaves_bracketed (leaves_entries (leaves_member hitem) fuel) _

/-- A value leaves an end of its text, however deep it goes. So whatever is refused behind it stands in the text. -/
theorem leaves_value (fuel depth : Nat) : (value fuel depth).Leaves := by
  induction depth using Nat.strongRecOn with
  | ind depth ih =>
    intro cs v rest h
    unfold value at h
    split at h
    · next body =>
      obtain ⟨⟨t, rest'⟩, hstring, h⟩ := bind_ok.mp h
      obtain ⟨_, rfl⟩ := Prod.mk.inj (Except.ok.inj h)
      exact (leaves_string _ _ _ _ hstring).trans (List.suffix_cons '"' body)
    · contradiction
    · exact (leaves_array (ih _ (Nat.lt_succ_self _)) fuel _ _ _ h).trans (List.suffix_cons _ _)
    · contradiction
    · exact (leaves_object (ih _ (Nat.lt_succ_self _)) fuel _ _ _ h).trans (List.suffix_cons _ _)
    · exact leaves_scalar _ _ _ h

/-- The brackets that open an array or an object. -/
def isOpening (c : Char) : Bool := c = '[' || c = '\x7b'

/-- What a failure says of the text, with so many levels of nesting allowed in it. Reading breaks off without finding
a fault only at an integer of too many digits, or at arrays and objects that stand too deep inside each other, and
either is in the text then. -/
inductive Failure.Shown (depth : Nat) (cs : List Char) : Failure → Prop
  | malformed (complaint : Complaint) (rest : List Char) : Shown depth cs (.malformed complaint rest)
  | tooDeep (h : depth < cs.countP isOpening) : Shown depth cs .tooDeep
  | tooLong {digits : List Char} (hdigits : ∀ c ∈ digits, c.isDigit = true) (hlong : digitLimit < digits.length)
    (hthere : digits <:+: cs) : Shown depth cs (.tooLong digits.length)

variable {depth : Nat} {e : Failure}

theorem Failure.Shown.of_suffix (h : e.Shown depth rest) (hrest : rest <:+ cs) : e.Shown depth cs := by
  cases h with
  | malformed complaint more => exact .malformed complaint more
  | tooDeep hdeep => exact .tooDeep (Nat.lt_of_lt_of_le hdeep (hrest.sublist.countP_le))
  | tooLong hdigits hlong hthere => exact .tooLong hdigits hlong (hthere.trans hrest.isInfix)

theorem countP_isOpening_pos {c : Char} (h : isOpening c = true) : 0 < (c :: cs).countP isOpening := by
  rw [List.countP_cons_of_pos h]
  exact Nat.succ_pos _

/-- A bracket in front takes one level. -/
theorem Failure.Shown.opened {c : Char} (h : e.Shown depth cs) (hc : isOpening c = true) :
    e.Shown (depth + 1) (c :: cs) := by
  cases h with
  | malformed complaint more => exact .malformed complaint more
  | tooDeep hdeep =>
    apply Failure.Shown.tooDeep
    rw [List.countP_cons_of_pos hc]
    exact Nat.succ_lt_succ hdeep
  | tooLong hdigits hlong hthere => exact .tooLong hdigits hlong (List.infix_cons hthere)

/-- A string has no limits. -/
theorem stringBody_error {opening : List Char} (h : stringBody opening cs = .error e) :
    ∃ complaint rest, e = .malformed complaint rest := by
  fun_induction stringBody opening cs with
  | case2 => contradiction
  | case4 _ _ _ _ _ _ _ _ _ ih =>
    rcases bind_error.mp h with hbody | ⟨_, _, h⟩
    · exact ih hbody
    · contradiction
  | case7 _ _ _ _ _ _ ih =>
    rcases bind_error.mp h with hbody | ⟨_, _, h⟩
    · exact ih hbody
    · contradiction
  | case10 _ _ _ _ _ ih =>
    rcases bind_error.mp h with hbody | ⟨_, _, h⟩
    · exact ih hbody
    · contradiction
  | _ => exact ⟨_, _, (Except.error.inj h).symm⟩

theorem shown_string {opening : List Char} (h : string opening cs = .error e) : e.Shown depth rest := by
  rcases bind_error.mp h with hbody | ⟨_, _, h⟩
  · obtain ⟨complaint, more, rfl⟩ := stringBody_error hbody
    exact .malformed complaint more
  · contradiction

/-- A number is too long only if it has that many digits in a row. -/
theorem shown_number (h : number cs = .error e) : e.Shown depth cs := by
  unfold number at h
  split at h
  next negative unsigned hsign =>
  split at h
  · obtain rfl := Except.error.inj h
    exact .malformed _ _
  · next whole after hwhole =>
    dsimp only at h
    split at h
    · split at h
      · next hlimit =>
        obtain rfl := Except.error.inj h
        apply Failure.Shown.tooLong (isDigit_wholePart hwhole) hlimit
        apply List.IsInfix.trans _ (unsigned_suffix hsign).isInfix
        rw [wholePart_suffix hwhole]
        exact (List.prefix_append whole after).isInfix
      · contradiction
    · contradiction

theorem shown_scalar (h : scalar cs = .error e) : e.Shown depth cs := by
  unfold scalar at h
  split at h
  · contradiction
  · exact shown_number h

theorem shown_entries {α : Type} {closing : Char} {entry : Reader α} (hleaves : entry.Leaves)
    (hentry : ∀ cs e, entry cs = .error e → e.Shown depth cs) {fuel : Nat} (h : entries closing entry fuel cs = .error e) :
    e.Shown depth cs := by
  induction fuel generalizing cs with
  | zero =>
    obtain rfl := Except.error.inj h
    exact .malformed _ _
  | succ fuel ih =>
    rw [entries] at h
    rcases bind_error.mp h with hone | ⟨⟨a, after⟩, hone, h⟩
    · exact hentry cs e hone
    · dsimp only at h
      split at h
      · obtain rfl := Except.error.inj h
        exact .malformed _ _
      · next hmark =>
        split at h
        · contradiction
        · split at h
          · rcases bind_error.mp h with hmore | ⟨_, _, h⟩
            · have hbehind := (skipBlanks_suffix _).trans (suffix_of_skipBlanks hmark)
              exact (ih hmore).of_suffix (hbehind.trans (hleaves cs a after hone))
            · contradiction
          · obtain rfl := Except.error.inj h
            exact .malformed _ _

theorem shown_member (hitem : ∀ cs e, item cs = .error e → e.Shown depth cs) (h : member item cs = .error e) :
    e.Shown depth cs := by
  rcases member_eq_error h with ⟨complaint, rest, rfl⟩ | ⟨body, rfl, hname | ⟨name, colon, before, hname, hcolon, hvalue⟩⟩
  · exact .malformed complaint rest
  · exact shown_string hname
  · have hbehind := (leaves_string _ _ _ _ hname).trans (List.suffix_cons '"' body)
    exact (hitem _ e hvalue).of_suffix ((skipBlanks_suffix before).trans ((suffix_of_skipBlanks hcolon).trans hbehind))

theorem shown_array (hleaves : item.Leaves) (hitem : ∀ cs e, item cs = .error e → e.Shown depth cs) {fuel : Nat}
    (h : array item fuel cs = .error e) : e.Shown depth cs := by
  rw [array_eq] at h
  exact (shown_entries hleaves hitem (bracketed_eq_error h)).of_suffix (skipBlanks_suffix cs)

theorem shown_object (hleaves : item.Leaves) (hitem : ∀ cs e, item cs = .error e → e.Shown depth cs) {fuel : Nat}
    (h : object item fuel cs = .error e) : e.Shown depth cs := by
  rw [object_eq] at h
  have hmembers := shown_entries (leaves_member hleaves) (fun _ _ => shown_member hitem) (bracketed_eq_error h)
  exact hmembers.of_suffix (skipBlanks_suffix cs)

/-- The induction over the levels of nesting: each bracket that is opened leaves one less for what is inside. -/
theorem shown_value {fuel : Nat} (h : value fuel depth cs = .error e) : e.Shown depth cs := by
  induction depth using Nat.strongRecOn generalizing cs e with
  | ind depth ih =>
    unfold value at h
    split at h
    · rcases bind_error.mp h with hstring | ⟨_, _, h⟩
      · exact shown_string hstring
      · contradiction
    · obtain rfl := Except.error.inj h
      exact .tooDeep (countP_isOpening_pos rfl)
    · exact (shown_array (leaves_value fuel _) (fun _ _ => ih _ (Nat.lt_succ_self _)) h).opened rfl
    · obtain rfl := Except.error.inj h
      exact .tooDeep (countP_isOpening_pos rfl)
    · exact (shown_object (leaves_value fuel _) (fun _ _ => ih _ (Nat.lt_succ_self _)) h).opened rfl
    · exact shown_scalar h

/-- Whatever a text is refused for is shown by it. -/
theorem shown_readWhole (h : readWhole cs = .error e) : e.Shown nestingLimit cs := by
  unfold readWhole at h
  split at h
  · obtain rfl := Except.error.inj h
    exact .malformed _ _
  · rcases bind_error.mp h with hvalue | ⟨⟨v, rest⟩, _, h⟩
    · exact (shown_value hvalue).of_suffix (skipBlanks_suffix cs)
    · dsimp only at h
      split at h
      · contradiction
      · obtain rfl := Except.error.inj h
        exact .malformed _ _

theorem array_eq_error {fuel : Nat} {c : Char} {more : List Char} (hblank : isJsonBlank c = false)
    (hclosing : c ≠ ']') (h : item (c :: more) = .error e) : array item (fuel + 1) (c :: more) = .error e := by
  unfold array
  rw [skipBlanks_cons hblank]
  split
  · next heq => exact absurd (List.cons.inj heq).1 hclosing
  · rw [items, h]
    rfl

theorem value_brackets (fuel depth : Nat) (cs : List Char) :
    value (fuel + 1) depth (List.replicate (depth + 1) '[' ++ cs) = .error .tooDeep := by
  induction depth with
  | zero => rw [value.eq_def]; rfl
  | succ depth ih =>
    rw [List.replicate_succ, List.cons_append] at ih ⊢
    rw [value]
    exact array_eq_error rfl (by decide) ih

theorem readWhole_eq_error {c : Char} {more : List Char} (hblank : isJsonBlank c = false) (hmark : c ≠ '\ufeff')
    (h : value (more.length + 1) nestingLimit (c :: more) = .error e) : readWhole (c :: more) = .error e := by
  have hfront : (c :: more).head? ≠ some '\ufeff' := fun heq => hmark (Option.some.inj heq)
  unfold readWhole
  rw [if_neg hfront, skipBlanks_cons hblank, List.length_cons, h]
  rfl

/-- Brackets deeper than the limit are not read, whatever comes behind them. -/
theorem readWhole_brackets (cs : List Char) :
    readWhole (List.replicate (nestingLimit + 1) '[' ++ cs) = .error .tooDeep := by
  have hvalue := value_brackets (List.replicate nestingLimit '[' ++ cs).length nestingLimit cs
  rw [List.replicate_succ, List.cons_append] at hvalue ⊢
  exact readWhole_eq_error rfl (by decide) hvalue

theorem number_tooLong {n : Nat} (h : digitLimit < (Nat.toDigits 10 n).length) (hrest : EndsNumber rest) :
    number (Nat.toDigits 10 n ++ rest) = .error (.tooLong (Nat.toDigits 10 n).length) := by
  unfold number
  split
  next negative unsigned hsign =>
  have hunsigned : unsigned = Nat.toDigits 10 n ++ rest := by
    split at hsign
    · next more hminus =>
      obtain ⟨d, ds, hds, hdigit⟩ := exists_cons_toDigits n
      rw [hds, List.cons_append] at hminus
      rw [(List.cons.inj hminus).1] at hdigit
      contradiction
    · exact (Prod.mk.inj hsign).2.symm
  subst hunsigned
  simp only [wholePart_toDigits n hrest, fraction_eq_none hrest, exponent_eq_none hrest, Option.getD_none]
  exact if_pos h

theorem value_tooLong {n : Nat} (h : digitLimit < (Nat.toDigits 10 n).length) (hrest : EndsNumber rest)
    (fuel depth : Nat) :
    value fuel depth (Nat.toDigits 10 n ++ rest) = .error (.tooLong (Nat.toDigits 10 n).length) := by
  have hnumber := number_tooLong h hrest
  obtain ⟨d, ds, hds, hdigit⟩ := exists_cons_toDigits n
  have hstart := (startsScalar_of_digit (.inl hdigit)).2
  simp only [List.mem_cons, List.not_mem_nil, or_false, not_or] at hstart
  rw [hds, List.cons_append] at hnumber ⊢
  rw [value_eq_scalar hstart.1 hstart.2.1 hstart.2.2.2.1, scalar, words_find?_eq_none hdigit ⟨_, .inl rfl⟩]
  exact hnumber

/-- A text that opens with a record, of which the id comes first. -/
def firstId (cs : List Char) : List Char := '[' :: '\x7b' :: '"' :: 'i' :: 'd' :: '"' :: ':' :: cs

theorem skipBlanks_toDigits (n : Nat) (rest : List Char) :
    skipBlanks (Nat.toDigits 10 n ++ rest) = Nat.toDigits 10 n ++ rest := by
  obtain ⟨d, ds, hds, hdigit⟩ := exists_cons_toDigits n
  rw [hds, List.cons_append, skipBlanks_cons (startsScalar_of_digit (.inl hdigit)).1]

/-- A record with an id of more digits than the limit is not read, whatever comes behind the id. -/
theorem readWhole_longId {n : Nat} (h : digitLimit < (Nat.toDigits 10 n).length) (hrest : EndsNumber rest) :
    readWhole (firstId (Nat.toDigits 10 n ++ rest)) = .error (.tooLong (Nat.toDigits 10 n).length) := by
  apply readWhole_eq_error rfl (by decide)
  generalize hfuel : List.length _ = fuel
  apply array_eq_error rfl (by decide)
  change object (value (fuel + 1) 988) (fuel + 1) _ = _
  unfold object
  rw [skipBlanks_cons rfl]
  change (members (value (fuel + 1) 988) (fuel + 1) _ >>= _) = _
  have hid : ∀ opening more, string opening ('i' :: 'd' :: '"' :: more) = .ok (Text.ofString "id", more) := by
    intro opening more
    exact @string_spelling false opening ['i', 'd'] more
  rw [members, hid]
  have hvalue := value_tooLong h hrest (fuel + 1) 988
  simp only [bind, Except.bind, skipBlanks_cons (c := ':') rfl, skipBlanks_toDigits, hvalue]

end Json

end TableServer
