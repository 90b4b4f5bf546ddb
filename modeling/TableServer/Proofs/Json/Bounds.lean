import TableServer.Proofs.Json.Entries
import TableServer.Proofs.Json.Numbers
import TableServer.Validation.Coercion

namespace TableServer

namespace Json

/-- Digits spell a number below the power of ten that they count. -/
theorem ofDigitChars_lt {cs : List Char} (h : ∀ c ∈ cs, c.isDigit = true) (init : Nat) :
    Nat.ofDigitChars 10 cs init < (init + 1) * Nat.pow 10 cs.length := by
  induction cs generalizing init with
  | nil =>
    change init < (init + 1) * 1
    omega
  | cons c cs ih =>
    obtain ⟨hc, hcs⟩ := List.forall_mem_cons.mp h
    have hdigit : c.toNat - '0'.toNat ≤ 9 := by
      have hbounds := toNat_of_isDigit hc
      have hzero : '0'.toNat = 48 := rfl
      omega
    have hstep : Nat.ofDigitChars 10 (c :: cs) init =
        Nat.ofDigitChars 10 cs (10 * init + (c.toNat - '0'.toNat)) := rfl
    have hpow : Nat.pow 10 (c :: cs).length = 10 * Nat.pow 10 cs.length := Nat.mul_comm _ _
    rw [hstep, hpow, ← Nat.mul_assoc]
    exact Nat.lt_of_lt_of_le (ih hcs _) (Nat.mul_le_mul_right _ (by omega))

theorem length_toDigits_le {n k limit : Nat} (h : n < Nat.pow 10 k) (hk : k ≤ limit) (hlimit : 0 < limit) :
    (Nat.toDigits 10 n).length ≤ limit :=
  (Nat.length_toDigits_le_iff (by decide) hlimit).mpr (Nat.lt_of_lt_of_le h (Nat.pow_le_pow_right (by decide) hk))

/-- An integer that can be written. One that comes from a text is no longer, whichever way it is spelled there. -/
def IsShort (n : Int) : Prop := (Nat.toDigits 10 n.natAbs).length ≤ digitLimit

theorem isShort_of_lt {n : Int} {k : Nat} (h : n.natAbs < Nat.pow 10 k) (hk : k ≤ digitLimit) : IsShort n :=
  length_toDigits_le h hk (by decide)

/-- Leading zeros count as digits that are read, so that the number itself is no longer than they say. -/
theorem isShort_ofDigitChars {digits : List Char} (hdigits : ∀ c ∈ digits, c.isDigit = true)
    (hlength : digits.length ≤ digitLimit) (negative : Bool) {n : Nat} (hn : n = Nat.ofDigitChars 10 digits 0) :
    IsShort (if negative then -(n : Int) else n) := by
  have hlt := ofDigitChars_lt hdigits 0
  rw [Nat.zero_add, Nat.one_mul, ← hn] at hlt
  refine isShort_of_lt ?_ hlength
  cases negative with
  | true => rwa [if_pos rfl, Int.natAbs_neg, Int.natAbs_natCast]
  | false => rwa [if_neg Bool.false_ne_true, Int.natAbs_natCast]

theorem isDigit_takeWhile (cs : List Char) : ∀ c ∈ cs.takeWhile Char.isDigit, c.isDigit = true :=
  List.all_eq_true.mp List.all_takeWhile

theorem isDigit_wholePart {cs whole rest : List Char} (h : wholePart cs = some (whole, rest)) :
    ∀ c ∈ whole, c.isDigit = true := by
  unfold wholePart at h
  split at h
  · obtain ⟨rfl, _⟩ := Prod.mk.inj (Option.some.inj h)
    exact List.forall_mem_singleton.mpr rfl
  · split at h
    · obtain ⟨rfl, _⟩ := Prod.mk.inj (Option.some.inj h)
      exact isDigit_takeWhile _
    · contradiction
  · contradiction

/-- Values whose integers can all be written. -/
inductive Bounded : Value → Prop
  | null : Bounded .null
  | boolean (b : Bool) : Bounded (.boolean b)
  | integer {n : Int} (h : IsShort n) : Bounded (.integer n)
  | real (x : Binary64) : Bounded (.real x)
  | string (t : Text) : Bounded (.string t)
  | array {vs : List Value} (h : ∀ v ∈ vs, Bounded v) : Bounded (.array vs)
  | object {ms : List (Text × Value)} (h : ∀ m ∈ ms, Bounded m.2) : Bounded (.object ms)

/-- The reader refuses more digits than the limit, and a real is no integer. -/
theorem bounded_number {cs rest : List Char} {v : Value} (h : number cs = .ok (v, rest)) : Bounded v := by
  unfold number at h
  split at h
  next negative unsigned _ =>
  split at h
  · contradiction
  · next whole rest' hwhole =>
    dsimp only at h
    split at h
    · split at h
      · contradiction
      · next hlimit =>
        obtain ⟨rfl, _⟩ := Prod.mk.inj (Except.ok.inj h)
        exact .integer (isShort_ofDigitChars (isDigit_wholePart hwhole) (Nat.le_of_not_lt hlimit) negative rfl)
    · obtain ⟨rfl, _⟩ := Prod.mk.inj (Except.ok.inj h)
      exact .real _

theorem bounded_scalar {cs rest : List Char} {v : Value} (h : scalar cs = .ok (v, rest)) : Bounded v := by
  have hwords : ∀ word ∈ words, Bounded word.2 := by
    simp only [words, List.forall_mem_cons, List.not_mem_nil, false_imp_iff, implies_true, and_true]
    exact ⟨.null, .boolean true, .boolean false, .real _, .real _, .real _⟩
  unfold scalar at h
  split at h
  · next word v' hfind =>
    obtain ⟨rfl, _⟩ := Prod.mk.inj (Except.ok.inj h)
    exact hwords _ (List.mem_of_find?_eq_some hfind)
  · exact bounded_number h

variable {item : Reader Value} {P : Value → Prop}

theorem setMember_forall {name : Text} {v : Value} {ms : List (Text × Value)} (hv : P v)
    (hms : ∀ m ∈ ms, P m.2) : ∀ m ∈ setMember name v ms, P m.2 := by
  induction ms with
  | nil => exact List.forall_mem_singleton.mpr hv
  | cons m ms ih =>
    obtain ⟨hfirst, hmore⟩ := List.forall_mem_cons.mp hms
    rw [setMember]
    split
    · exact List.forall_mem_cons.mpr ⟨hv, hmore⟩
    · exact List.forall_mem_cons.mpr ⟨hfirst, ih hmore⟩

theorem mergeMembers_forall {ms : List (Text × Value)} (h : ∀ m ∈ ms, P m.2) :
    ∀ m ∈ mergeMembers ms, P m.2 := by
  have hfold : ∀ seen : List (Text × Value), (∀ m ∈ seen, P m.2) →
      ∀ m ∈ ms.foldl (fun members m => setMember m.1 m.2 members) seen, P m.2 := by
    induction ms with
    | nil => exact fun seen hseen => hseen
    | cons m ms ih =>
      obtain ⟨hfirst, hmore⟩ := List.forall_mem_cons.mp h
      exact fun seen hseen => ih hmore _ (setMember_forall hfirst hseen)
  exact hfold [] (fun m hm => absurd hm List.not_mem_nil)

theorem bounded_array (hitem : ∀ cs v rest, item cs = .ok (v, rest) → Bounded v) {fuel : Nat}
    {cs rest : List Char} {v : Value} (h : array item fuel cs = .ok (v, rest)) : Bounded v := by
  rw [array_eq] at h
  rcases bracketed_eq_ok h with ⟨_, rfl⟩ | ⟨vs, hitems, rfl⟩
  · exact .array fun v hv => absurd hv List.not_mem_nil
  · exact .array ((entered_of_entries hitems).forall hitem)

theorem bounded_object (hitem : ∀ cs v rest, item cs = .ok (v, rest) → Bounded v) {fuel : Nat}
    {cs rest : List Char} {v : Value} (h : object item fuel cs = .ok (v, rest)) : Bounded v := by
  rw [object_eq] at h
  rcases bracketed_eq_ok h with ⟨_, rfl⟩ | ⟨ms, hmembers, rfl⟩
  · exact .object fun m hm => absurd hm List.not_mem_nil
  · have hmember : ∀ cs m rest, member item cs = .ok (m, rest) → Bounded m.2 := by
      intro cs m rest hone
      obtain ⟨_, _, _, _, _, _, hvalue⟩ := member_eq_ok hone
      exact hitem _ _ _ hvalue
    exact .object (mergeMembers_forall ((entered_of_entries hmembers).forall hmember))

/-- The integers in a value that has been read can be written. -/
theorem bounded_value {fuel depth : Nat} {cs rest : List Char} {v : Value}
    (h : value fuel depth cs = .ok (v, rest)) : Bounded v := by
  induction depth using Nat.strongRecOn generalizing cs rest v with
  | ind depth ih =>
    unfold value at h
    split at h
    · next body =>
      obtain ⟨_, _, h⟩ := bind_ok.mp h
      obtain ⟨rfl, _⟩ := Prod.mk.inj (Except.ok.inj h)
      exact .string _
    · contradiction
    · exact bounded_array (fun cs v rest hone => ih _ (Nat.lt_succ_self _) hone) h
    · contradiction
    · exact bounded_object (fun cs v rest hone => ih _ (Nat.lt_succ_self _) hone) h
    · exact bounded_scalar h

theorem bounded_read {text : List Char} {v : Value} (h : read text = .ok v) : Bounded v := by
  have h := mapError_ok.mp h
  unfold readWhole at h
  split at h
  · contradiction
  · obtain ⟨⟨v', rest⟩, hvalue, h⟩ := bind_ok.mp h
    dsimp only at h
    split at h
    · obtain rfl := Except.ok.inj h
      exact bounded_value hvalue
    · contradiction

end Json

namespace Numeral

theorem isShort_readPlain {cs : List Char} {n : Int} (h : readPlain cs = .ok n) : Json.IsShort n := by
  unfold readPlain at h
  split at h
  next negative unsigned _ =>
  dsimp only at h
  split at h
  · split at h
    · obtain rfl := Except.ok.inj h
      exact Json.isShort_of_lt (k := 1) (by decide) (by decide)
    · contradiction
  · split at h
    · contradiction
    · next hlimit =>
      split at h
      · contradiction
      · obtain rfl := Except.ok.inj h
        exact Json.isShort_ofDigitChars (Json.isDigit_takeWhile _) (Nat.le_of_not_lt hlimit) negative rfl

/-- Integers are read from strings as well, with signs, underscores and a point, by a reader with the same limit. -/
theorem isShort_read {cs : List Char} {n : Int} (h : read cs = .ok n) : Json.IsShort n := by
  unfold read at h
  split at h
  · split at h
    · next m htidied =>
      obtain rfl := Except.ok.inj h
      obtain ⟨ds, _, hplain⟩ := Option.map_eq_some_iff.mp htidied
      exact isShort_readPlain hplain
    · contradiction
  · exact isShort_readPlain h

end Numeral

namespace Json

theorem isShort_asInteger {v : Value} (hv : Bounded v) {n : Int} (h : v.asInteger = .ok n) : IsShort n := by
  cases hv with
  | integer hn =>
    obtain rfl := Except.ok.inj h
    exact hn
  | boolean b =>
    obtain rfl := Except.ok.inj h
    cases b <;> exact isShort_of_lt (k := 1) (by decide) (by decide)
  | real x =>
    unfold Value.asInteger at h
    dsimp only at h
    split at h
    · contradiction
    · split at h
      · contradiction
      · split at h
        · next m _ hbounds =>
          obtain rfl := Except.ok.inj h
          have hbound : Value.integerBound = 9223372036854775808 := rfl
          have hpow : Nat.pow 10 19 = 10000000000000000000 := rfl
          rw [hbound] at hbounds
          exact isShort_of_lt (k := 19) (by omega) (by decide)
        · contradiction
  | string t =>
    unfold Value.asInteger at h
    dsimp only at h
    split at h
    · contradiction
    · next cs _ =>
      cases hread : Numeral.read cs with
      | error fault => cases fault <;> simp [hread] at h
      | ok m =>
        rw [hread] at h
        obtain rfl := Except.ok.inj h
        exact Numeral.isShort_read hread
  | null => contradiction
  | array _ => contradiction
  | object _ => contradiction

end Json

end TableServer
