import TableServer.Text.Utf8

namespace TableServer.Utf8

theorem encode_append (cs ds : List Char) : encode (cs ++ ds) = encode cs ++ encode ds :=
  List.flatMap_append

theorem encode_cons (c : Char) (cs : List Char) : encode (c :: cs) = String.utf8EncodeChar c ++ encode cs :=
  rfl

/-- A character has a byte at least. -/
theorem length_le_encode (cs : List Char) : cs.length ≤ (encode cs).length := by
  induction cs with
  | nil => exact Nat.le_refl _
  | cons c cs ih =>
    have hpos : 0 < (String.utf8EncodeChar c).length := by
      rw [String.length_utf8EncodeChar]
      exact Char.utf8Size_pos c
    rw [encode_cons, List.length_append, List.length_cons]
    omega

theorem toNat_ofNat {n : Nat} (h : n < 256) : (UInt8.ofNat n).toNat = n := by
  simp [Nat.mod_eq_of_lt h]

theorem continuation?_ofNat {bits : Nat} (h : bits < 0x40) :
    continuation? (UInt8.ofNat (bits + 0x80)) = some bits := by
  rw [continuation?, toNat_ofNat (by omega), if_pos (by omega), Nat.add_sub_cancel]

theorem isValidChar_toNat (c : Char) : c.toNat.isValidChar := c.valid

theorem toNat_lt (c : Char) : c.toNat < 0x110000 := by
  have h := isValidChar_toNat c
  simp only [Nat.isValidChar] at h
  omega

/-- The number of a character is read as that character in any form that is not longer than it needs. -/
theorem scalar?_toNat {c : Char} {least value : Nat} (hvalue : value = c.toNat) (hleast : least ≤ c.toNat) :
    scalar? least value = some c := by
  subst hvalue
  rw [scalar?, if_pos ⟨hleast, isValidChar_toNat c⟩, Char.ofNat_toNat]

theorem decode_single {a : UInt8} {ch : Char} {rest : Bytes} (ha : a.toNat < 0x80) (hch : Char.ofNat a.toNat = ch) :
    decode (a :: rest) = (decode rest).map (ch :: ·) := by
  rw [decode.eq_def]
  simp only [ha, hch, ↓reduceIte]
  cases decode rest <;> rfl

/-- Two bytes are a character that needs two. Those that would fit into one are refused by `scalar?`, here and in the
longer forms. -/
theorem decode_double {a b : UInt8} {x : Nat} {ch : Char} {rest : Bytes} (ha : 0xc0 ≤ a.toNat)
    (ha' : a.toNat < 0xe0) (hb : continuation? b = some x)
    (hch : scalar? 0x80 ((a.toNat - 0xc0) * 0x40 + x) = some ch) :
    decode (a :: b :: rest) = (decode rest).map (ch :: ·) := by
  rw [decode.eq_def]
  simp only [show ¬ a.toNat < 0x80 by omega, show ¬ a.toNat < 0xc0 by omega, ha', hb, hch, ↓reduceIte,
    Option.bind_eq_bind, Option.bind_some]
  cases decode rest <;> rfl

theorem decode_triple {a b c : UInt8} {x y : Nat} {ch : Char} {rest : Bytes} (ha : 0xe0 ≤ a.toNat)
    (ha' : a.toNat < 0xf0) (hb : continuation? b = some x) (hc : continuation? c = some y)
    (hch : scalar? 0x800 ((a.toNat - 0xe0) * 0x1000 + x * 0x40 + y) = some ch) :
    decode (a :: b :: c :: rest) = (decode rest).map (ch :: ·) := by
  rw [decode.eq_def]
  simp only [show ¬ a.toNat < 0x80 by omega, show ¬ a.toNat < 0xc0 by omega, show ¬ a.toNat < 0xe0 by omega,
    ha', hb, hc, hch, ↓reduceIte, Option.bind_eq_bind, Option.bind_some]
  cases decode rest <;> rfl

theorem decode_quadruple {a b c d : UInt8} {x y z : Nat} {ch : Char} {rest : Bytes} (ha : 0xf0 ≤ a.toNat)
    (hb : continuation? b = some x) (hc : continuation? c = some y) (hd : continuation? d = some z)
    (hch : scalar? 0x10000 ((a.toNat - 0xf0) * 0x40000 + x * 0x1000 + y * 0x40 + z) = some ch) :
    decode (a :: b :: c :: d :: rest) = (decode rest).map (ch :: ·) := by
  have h₁ : ¬ a.toNat < 0x80 := by omega
  have h₂ : ¬ a.toNat < 0xc0 := by omega
  have h₃ : ¬ a.toNat < 0xe0 := by omega
  have h₄ : ¬ a.toNat < 0xf0 := by omega
  rw [decode.eq_def]
  simp only [h₁, h₂, h₃, hb, hc, ↓reduceIte, Option.bind_eq_bind, Option.bind_some]
  -- Here `simp` would have the kernel count down the factors.
  rw [if_neg h₄, hd, Option.bind_some, hch, Option.bind_some]
  cases decode rest <;> rfl

/-- A character in front is decoded first. -/
theorem decode_encodeChar (c : Char) (rest : Bytes) :
    decode (String.utf8EncodeChar c ++ rest) = (decode rest).map (c :: ·) := by
  have hlt := toNat_lt c
  have hv : c.val.toNat = c.toNat := rfl
  unfold String.utf8EncodeChar
  simp only [hv]
  split
  · have ha := toNat_ofNat (n := c.toNat) (by omega)
    exact decode_single (by omega) (by rw [ha, Char.ofNat_toNat])
  split
  · have ha := toNat_ofNat (n := c.toNat / 64 % 0x20 + 0xc0) (by omega)
    refine decode_double (by omega) (by omega) (continuation?_ofNat (by omega)) ?_
    rw [ha]
    exact scalar?_toNat (by omega) (by omega)
  split
  · have ha := toNat_ofNat (n := c.toNat / 4096 % 0x10 + 0xe0) (by omega)
    refine decode_triple (by omega) (by omega) (continuation?_ofNat (by omega))
      (continuation?_ofNat (by omega)) ?_
    rw [ha]
    exact scalar?_toNat (by omega) (by omega)
  · have ha := toNat_ofNat (n := c.toNat / 262144 % 0x08 + 0xf0) (by omega)
    refine decode_quadruple (by omega) (continuation?_ofNat (by omega)) (continuation?_ofNat (by omega))
      (continuation?_ofNat (by omega)) ?_
    rw [ha]
    exact scalar?_toNat (by omega) (by omega)

theorem decode_encode (cs : List Char) : decode (encode cs) = some cs := by
  induction cs with
  | nil => rfl
  | cons c cs ih => rw [encode_cons, decode_encodeChar, ih, Option.map_some]

/-- A byte below 0x80 stands for itself wherever it is. -/
theorem toNat_of_mem_encodeChar {b : UInt8} {c : Char} (h : b ∈ String.utf8EncodeChar c) (hb : b.toNat < 0x80) :
    c.toNat = b.toNat := by
  have hv : c.val.toNat = c.toNat := rfl
  have hhigh : ∀ n, 0x80 ≤ n → n < 0x100 → b ≠ UInt8.ofNat n := by
    rintro n hn hlt rfl
    rw [toNat_ofNat hlt] at hb
    omega
  unfold String.utf8EncodeChar at h
  simp only [hv] at h
  split at h
  · obtain rfl := List.mem_singleton.mp h
    rw [toNat_ofNat (by omega)]
  · exfalso
    split at h
    · simp only [List.mem_cons, List.not_mem_nil, or_false] at h
      rcases h with h | h <;> exact hhigh _ (by omega) (by omega) h
    split at h
    · simp only [List.mem_cons, List.not_mem_nil, or_false] at h
      rcases h with h | h | h <;> exact hhigh _ (by omega) (by omega) h
    · simp only [List.mem_cons, List.not_mem_nil, or_false] at h
      rcases h with h | h | h | h <;> exact hhigh _ (by omega) (by omega) h

/-- A newline byte comes from a newline only. -/
theorem newline_mem_of_encode {cs : List Char} (h : (10 : UInt8) ∈ encode cs) : '\n' ∈ cs := by
  obtain ⟨c, hc, hbyte⟩ := List.mem_flatMap.mp h
  have hcode := toNat_of_mem_encodeChar hbyte (by decide)
  have hnewline : c = '\n' := Char.ext (UInt32.toNat_inj.mp hcode)
  exact hnewline ▸ hc

theorem toNat_charOfNat {n : Nat} (h : n.isValidChar) : (Char.ofNat n).toNat = n := by
  have hchar : Char.ofNat n = Char.ofNatAux n h := dif_pos h
  rw [hchar]
  rfl

theorem ofNat_eq_of_toNat {n : Nat} {a : UInt8} (h : n = a.toNat) : UInt8.ofNat n = a := by
  rw [h, UInt8.ofNat_toNat]

theorem continuation?_eq_some {b : UInt8} {x : Nat} (h : continuation? b = some x) :
    b.toNat = x + 0x80 ∧ x < 0x40 := by
  unfold continuation? at h
  split at h
  · obtain rfl := Option.some.inj h
    omega
  · contradiction

theorem scalar?_eq_some {least value : Nat} {c : Char} (h : scalar? least value = some c) :
    c.toNat = value ∧ least ≤ value := by
  unfold scalar? at h
  split at h
  · next hvalue =>
    obtain rfl := Option.some.inj h
    exact ⟨toNat_charOfNat hvalue.2, hvalue.1⟩
  · contradiction

theorem encodeChar_single {a : UInt8} (ha : a.toNat < 0x80) : String.utf8EncodeChar (Char.ofNat a.toNat) = [a] := by
  have hvalid : a.toNat.isValidChar := .inl (by omega)
  have hv : (Char.ofNat a.toNat).val.toNat = a.toNat := toNat_charOfNat hvalid
  unfold String.utf8EncodeChar
  simp only [hv]
  rw [if_pos (by omega), ofNat_eq_of_toNat rfl]

/-- A character that is decoded from two bytes is encoded in these two: it has no shorter form, and no other bits. -/
theorem encodeChar_double {a b : UInt8} {x : Nat} {ch : Char} (ha : 0xc0 ≤ a.toNat)
    (ha' : a.toNat < 0xe0) (hb : continuation? b = some x)
    (hch : scalar? 0x80 ((a.toNat - 0xc0) * 0x40 + x) = some ch) : String.utf8EncodeChar ch = [a, b] := by
  obtain ⟨hvalue, hleast⟩ := scalar?_eq_some hch
  obtain ⟨hbyte, hx⟩ := continuation?_eq_some hb
  have hv : ch.val.toNat = ch.toNat := rfl
  unfold String.utf8EncodeChar
  simp only [hv, hvalue]
  rw [if_neg (by omega), if_pos (by omega), ofNat_eq_of_toNat (a := a) (by omega),
    ofNat_eq_of_toNat (a := b) (by omega)]

theorem encodeChar_triple {a b c : UInt8} {x y : Nat} {ch : Char} (ha : 0xe0 ≤ a.toNat)
    (ha' : a.toNat < 0xf0) (hb : continuation? b = some x) (hc : continuation? c = some y)
    (hch : scalar? 0x800 ((a.toNat - 0xe0) * 0x1000 + x * 0x40 + y) = some ch) :
    String.utf8EncodeChar ch = [a, b, c] := by
  obtain ⟨hvalue, hleast⟩ := scalar?_eq_some hch
  obtain ⟨hbyte, hx⟩ := continuation?_eq_some hb
  obtain ⟨hbyte', hy⟩ := continuation?_eq_some hc
  have hv : ch.val.toNat = ch.toNat := rfl
  unfold String.utf8EncodeChar
  simp only [hv, hvalue]
  rw [if_neg (by omega), if_neg (by omega), if_pos (by omega), ofNat_eq_of_toNat (a := a) (by omega),
    ofNat_eq_of_toNat (a := b) (by omega), ofNat_eq_of_toNat (a := c) (by omega)]

theorem encodeChar_quadruple {a b c d : UInt8} {x y z : Nat} {ch : Char} (ha : 0xf0 ≤ a.toNat)
    (hb : continuation? b = some x) (hc : continuation? c = some y) (hd : continuation? d = some z)
    (hch : scalar? 0x10000 ((a.toNat - 0xf0) * 0x40000 + x * 0x1000 + y * 0x40 + z) = some ch) :
    String.utf8EncodeChar ch = [a, b, c, d] := by
  obtain ⟨hvalue, hleast⟩ := scalar?_eq_some hch
  obtain ⟨hbyte, hx⟩ := continuation?_eq_some hb
  obtain ⟨hbyte', hy⟩ := continuation?_eq_some hc
  obtain ⟨hbyte'', hz⟩ := continuation?_eq_some hd
  have hlt := toNat_lt ch
  have hv : ch.val.toNat = ch.toNat := rfl
  unfold String.utf8EncodeChar
  simp only [hv, hvalue]
  rw [if_neg (by omega), if_neg (by omega), if_neg (by omega), ofNat_eq_of_toNat (a := a) (by omega),
    ofNat_eq_of_toNat (a := b) (by omega), ofNat_eq_of_toNat (a := c) (by omega),
    ofNat_eq_of_toNat (a := d) (by omega)]

/-- Only what encodes characters is decoded to them. -/
theorem encode_of_decode {bytes : Bytes} {cs : List Char} (h : decode bytes = some cs) : encode cs = bytes := by
  fun_induction decode bytes generalizing cs with
  | case1 =>
    obtain rfl := Option.some.inj h
    rfl
  | case2 a rest ha ih =>
    obtain ⟨ds, hds, h⟩ := Option.bind_eq_some_iff.mp h
    obtain rfl := Option.some.inj h
    rw [encode_cons, encodeChar_single ha, ih hds]
    rfl
  | case5 a ha ha' b rest ih ih' =>
    obtain ⟨x, hb, h⟩ := Option.bind_eq_some_iff.mp h
    split at h
    · obtain ⟨ch, hch, h⟩ := Option.bind_eq_some_iff.mp h
      obtain ⟨ds, hds, h⟩ := Option.bind_eq_some_iff.mp h
      obtain rfl := Option.some.inj h
      rw [encode_cons, encodeChar_double (by omega) (by assumption) hb hch, ih hds]
      rfl
    · split at h
      · contradiction
      · next c rest =>
        obtain ⟨y, hc, h⟩ := Option.bind_eq_some_iff.mp h
        split at h
        · obtain ⟨ch, hch, h⟩ := Option.bind_eq_some_iff.mp h
          obtain ⟨ds, hds, h⟩ := Option.bind_eq_some_iff.mp h
          obtain rfl := Option.some.inj h
          rw [encode_cons, encodeChar_triple (by omega) (by assumption) hb hc hch, ih'.1 hds]
          rfl
        · split at h
          · contradiction
          · next d rest =>
            obtain ⟨z, hd, h⟩ := Option.bind_eq_some_iff.mp h
            obtain ⟨ch, hch, h⟩ := Option.bind_eq_some_iff.mp h
            obtain ⟨ds, hds, h⟩ := Option.bind_eq_some_iff.mp h
            obtain rfl := Option.some.inj h
            rw [encode_cons, encodeChar_quadruple (by omega) hb hc hd hch, ih'.2 hds]
            rfl
  | _ => contradiction

/-- Whole characters in front are decoded whatever bytes stand behind them, also if those are none. -/
theorem decode_encode_append (cs : List Char) (rest : Bytes) : decode (encode cs ++ rest) = (decode rest).map (cs ++ ·) := by
  induction cs with
  | nil =>
    change decode rest = (decode rest).map id
    rw [Option.map_id_fun, id_eq]
  | cons c cs ih =>
    rw [encode_cons, List.append_assoc, decode_encodeChar, ih, Option.map_map]
    rfl

/-- The first bytes of a text are the first characters of it, if they are characters at all. -/
theorem prefix_of_decode {bytes : Bytes} {cs ds : List Char} (h : bytes <+: encode cs) (hd : decode bytes = some ds) :
    ds <+: cs := by
  obtain ⟨rest, hrest⟩ := h
  have hwhole := decode_encode_append ds rest
  rw [encode_of_decode hd, hrest, decode_encode] at hwhole
  obtain ⟨es, _, hes⟩ := Option.map_eq_some_iff.mp hwhole.symm
  exact ⟨es, hes⟩

end TableServer.Utf8
