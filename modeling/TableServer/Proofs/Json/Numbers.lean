import TableServer.Json.Reader
import TableServer.Proofs.Text.CodePoints
import TableServer.Proofs.Text.Runs

namespace TableServer.Json

/-- What comes behind a number does not go on with it. -/
def EndsNumber (rest : List Char) : Prop :=
  ∀ c, rest.head? = some c → c.isDigit = false ∧ c ≠ '.' ∧ c ≠ 'e' ∧ c ≠ 'E'

theorem endsNumber_nil : EndsNumber [] := fun _ h => by contradiction

theorem endsNumber_cons {c : Char} {rest : List Char} (h : c.isDigit = false := by rfl)
    (hpoint : c ≠ '.' := by decide) (he : c ≠ 'e' := by decide) (hE : c ≠ 'E' := by decide) :
    EndsNumber (c :: rest) := by
  intro d hd
  obtain rfl := Option.some.inj hd
  exact ⟨h, hpoint, he, hE⟩

theorem toNat_of_isDigit {c : Char} (h : c.isDigit = true) : 48 ≤ c.toNat ∧ c.toNat ≤ 57 := by
  simpa [Char.isDigit, UInt32.le_iff_toNat_le] using h

theorem isDigit_toDigits {n : Nat} {c : Char} (h : c ∈ Nat.toDigits 10 n) : c.isDigit = true :=
  Nat.isDigit_of_mem_toDigits (by decide) (by decide) h

theorem exists_cons_toDigits (n : Nat) : ∃ d ds, Nat.toDigits 10 n = d :: ds ∧ d.isDigit = true := by
  obtain ⟨d, ds, hds⟩ := List.exists_cons_of_ne_nil (Nat.toDigits_ne_nil (n := n) (b := 10))
  exact ⟨d, ds, hds, isDigit_toDigits (hds ▸ List.mem_cons_self)⟩

/-- Only zero is written with a zero in front, which readers refuse of longer numbers. -/
theorem toDigits_head {n : Nat} (h : 0 < n) : (Nat.toDigits 10 n).head? ≠ some '0' := by
  induction n using Nat.strongRecOn with
  | ind n ih =>
    by_cases hn : n < 10
    · rw [Nat.toDigits_of_lt_base hn]
      have hall : ∀ d < 10, 0 < d → [Nat.digitChar d].head? ≠ some '0' := by decide
      exact hall n hn h
    · have hsmaller := ih (n / 10) (by omega) (by omega)
      rw [Nat.toDigits_of_base_le (by decide) (by omega), List.head?_append]
      obtain ⟨d, ds, hd, _⟩ := exists_cons_toDigits (n / 10)
      rw [hd] at hsmaller ⊢
      exact hsmaller

theorem takeDigits_append {digits rest : List Char} (h : ∀ c ∈ digits, c.isDigit = true)
    (hrest : EndsNumber rest) : takeDigits (digits ++ rest) = (digits, rest) := by
  have hhead : ∀ c, rest.head? = some c → c.isDigit = false := fun c hc => (hrest c hc).1
  rw [takeDigits, takeWhile_run h hhead, dropWhile_run h hhead]

theorem wholePart_toDigits (n : Nat) {rest : List Char} (hrest : EndsNumber rest) :
    wholePart (Nat.toDigits 10 n ++ rest) = some (Nat.toDigits 10 n, rest) := by
  by_cases hn : n = 0
  · subst hn
    rfl
  · obtain ⟨d, ds, hd, hdigit⟩ := exists_cons_toDigits n
    have hzero : d ≠ '0' := by
      have hhead := toDigits_head (Nat.pos_of_ne_zero hn)
      rw [hd] at hhead
      exact fun he => hhead (congrArg some he)
    have htake : takeDigits (Nat.toDigits 10 n ++ rest) = (Nat.toDigits 10 n, rest) :=
      takeDigits_append (fun _ => isDigit_toDigits) hrest
    rw [hd] at htake ⊢
    rw [List.cons_append, wholePart]
    · rw [if_pos hdigit]
      exact congrArg some htake
    · exact fun he => hzero he

theorem fraction_eq_none {rest : List Char} (h : EndsNumber rest) : fraction rest = none := by
  unfold fraction
  split
  · exact absurd rfl (h '.' rfl).2.1
  · rfl

theorem exponent_eq_none {rest : List Char} (h : EndsNumber rest) : exponent rest = none := by
  cases rest with
  | nil => rfl
  | cons c rest =>
    obtain ⟨_, _, he, hE⟩ := h c rfl
    rw [exponent.eq_def]
    exact if_neg (not_or.mpr ⟨he, hE⟩)

theorem writeInteger_eq {n : Int} {w : Text} (h : writeInteger n = .ok w) :
    (Nat.toDigits 10 n.natAbs).length ≤ digitLimit ∧
      w = Text.ofChars (if n < 0 then '-' :: Nat.toDigits 10 n.natAbs else Nat.toDigits 10 n.natAbs) := by
  unfold writeInteger at h
  simp only at h
  split at h
  · contradiction
  · next hlimit => exact ⟨Nat.le_of_not_lt hlimit, (Except.ok.inj h).symm⟩

theorem writeInteger_isOk_iff (n : Int) :
    (∃ w, writeInteger n = .ok w) ↔ (Nat.toDigits 10 n.natAbs).length ≤ digitLimit := by
  constructor
  · rintro ⟨w, hw⟩
    exact (writeInteger_eq hw).1
  · intro h
    unfold writeInteger
    exact ⟨_, if_neg (Nat.not_lt.mpr h)⟩

/-- Digits are read as the number that they spell. -/
theorem number_unsigned {n : Nat} (h : (Nat.toDigits 10 n).length ≤ digitLimit) {rest : List Char}
    (hrest : EndsNumber rest) : number (Nat.toDigits 10 n ++ rest) = .ok (.integer n, rest) := by
  have hwhole := wholePart_toDigits n hrest
  unfold number
  split
  · next negative unsigned heq =>
    have hplain : negative = false ∧ unsigned = Nat.toDigits 10 n ++ rest := by
      split at heq
      · next more hd =>
        obtain ⟨d, ds, hds, hdigit⟩ := exists_cons_toDigits n
        rw [hds, List.cons_append] at hd
        rw [(List.cons.inj hd).1] at hdigit
        contradiction
      · exact ⟨(Prod.mk.inj heq).1.symm, (Prod.mk.inj heq).2.symm⟩
    obtain ⟨rfl, rfl⟩ := hplain
    simp only [hwhole, fraction_eq_none hrest, exponent_eq_none hrest, Option.getD_none,
      Nat.ofDigitChars_ten_toDigits]
    rw [if_neg (Nat.not_lt.mpr h)]
    rfl

theorem number_negative {n : Nat} (h : (Nat.toDigits 10 n).length ≤ digitLimit) {rest : List Char}
    (hrest : EndsNumber rest) :
    number ('-' :: (Nat.toDigits 10 n ++ rest)) = .ok (.integer (-(n : Int)), rest) := by
  unfold number
  simp only [wholePart_toDigits n hrest, fraction_eq_none hrest, exponent_eq_none hrest, Option.getD_none,
    Nat.ofDigitChars_ten_toDigits]
  rw [if_neg (Nat.not_lt.mpr h)]
  rfl

/-- No word starts like a number. -/
theorem words_find?_eq_none {cs : List Char} {d : Char} (hd : d.isDigit = true)
    (h : ∃ more, cs = d :: more ∨ cs = '-' :: d :: more) :
    (words.find? fun (word, _) => word.isPrefixOf cs) = none := by
  have hne : ∀ c : Char, c.isDigit = false → (c == d) = false := by
    intro c hc
    refine beq_eq_false_iff_ne.mpr ?_
    rintro rfl
    rw [hd] at hc
    contradiction
  obtain ⟨more, rfl | rfl⟩ := h
  · simp [words, List.isPrefixOf, hne]
  · simp [words, List.isPrefixOf, hne]

/-- What an integer is written as is read as that integer, wherever it ends. -/
theorem scalar_integer {n : Int} {cs : List Char} (h : writeInteger n = .ok (Text.ofChars cs))
    {rest : List Char} (hrest : EndsNumber rest) : scalar (cs ++ rest) = .ok (.integer n, rest) := by
  obtain ⟨hlimit, hcs⟩ := writeInteger_eq h
  obtain rfl := Text.ofChars_inj hcs
  obtain ⟨d, ds, hd, hdigit⟩ := exists_cons_toDigits n.natAbs
  unfold scalar
  by_cases hn : n < 0
  · rw [if_pos hn, List.cons_append, words_find?_eq_none hdigit ⟨ds ++ rest, .inr (by rw [hd]; rfl)⟩]
    refine (number_negative hlimit hrest).trans ?_
    rw [Int.ofNat_natAbs_of_nonpos (Int.le_of_lt hn), Int.neg_neg]
  · rw [if_neg hn, words_find?_eq_none hdigit ⟨ds ++ rest, .inl (by rw [hd]; rfl)⟩]
    refine (number_unsigned hlimit hrest).trans ?_
    rw [Int.natAbs_of_nonneg (Int.not_lt.mp hn)]

end TableServer.Json
