import TableServer.Text.CodePoint

namespace TableServer.Text

theorem ofChars_cons (c : Char) (cs : List Char) : ofChars (c :: cs) = .scalar c :: ofChars cs := rfl

theorem ofChars_append (cs ds : List Char) : ofChars (cs ++ ds) = ofChars cs ++ ofChars ds :=
  List.map_append

theorem ofChars_inj {cs ds : List Char} (h : ofChars cs = ofChars ds) : cs = ds :=
  List.map_inj_right (fun _ _ => CodePoint.scalar.inj) |>.mp h

theorem chars?_ofChars (cs : List Char) : (ofChars cs).chars? = some cs := by
  induction cs with
  | nil => rfl
  | cons c cs ih =>
    rw [ofChars_cons, chars?, List.mapM_cons]
    rw [chars?] at ih
    rw [ih]
    rfl

theorem chars?_eq_some_iff {t : Text} {cs : List Char} : t.chars? = some cs ↔ t = ofChars cs := by
  constructor
  · intro h
    induction t generalizing cs with
    | nil =>
      obtain rfl := Option.some.inj h
      rfl
    | cons p t ih =>
      rw [chars?, List.mapM_cons] at h
      obtain ⟨c, hc, h⟩ := Option.bind_eq_some_iff.mp h
      obtain ⟨ts, ht, h⟩ := Option.bind_eq_some_iff.mp h
      obtain rfl := Option.some.inj h
      rw [ih ht, ofChars_cons]
      cases p with
      | scalar d =>
        obtain rfl := Option.some.inj hc
        rfl
      | surrogate offset => contradiction
  · rintro rfl
    exact chars?_ofChars cs

/-- Whether a text is made of characters alone, without lone surrogates. -/
def IsChars (t : Text) : Prop := ∀ p ∈ t, ∃ c, p = .scalar c

theorem isChars_ofChars (cs : List Char) : (ofChars cs).IsChars := by
  intro p hp
  obtain ⟨c, _, rfl⟩ := List.mem_map.mp hp
  exact ⟨c, rfl⟩

theorem IsChars.exists_ofChars {t : Text} (h : t.IsChars) : ∃ cs, t = ofChars cs := by
  induction t with
  | nil => exact ⟨[], rfl⟩
  | cons p t ih =>
    obtain ⟨c, rfl⟩ := h p List.mem_cons_self
    obtain ⟨cs, rfl⟩ := ih fun q hq => h q (List.mem_cons_of_mem _ hq)
    exact ⟨c :: cs, rfl⟩

theorem isChars_append {t u : Text} : (t ++ u).IsChars ↔ t.IsChars ∧ u.IsChars :=
  List.forall_mem_append

theorem isChars_cons_scalar {c : Char} {t : Text} : IsChars (.scalar c :: t) ↔ t.IsChars := by
  refine List.forall_mem_cons.trans ⟨fun h => h.2, fun h => ⟨⟨c, rfl⟩, h⟩⟩

/-- One lone surrogate in any part is one in the whole, and there is none in it otherwise. -/
theorem isChars_flatMap {α : Type} {xs : List α} {f : α → Text} :
    IsChars (xs.flatMap f) ↔ ∀ x ∈ xs, (f x).IsChars := by
  constructor
  · intro h x hx p hp
    exact h p (List.mem_flatMap.mpr ⟨x, hx, hp⟩)
  · intro h p hp
    obtain ⟨x, hx, hp⟩ := List.mem_flatMap.mp hp
    exact h x hx p hp

end TableServer.Text
