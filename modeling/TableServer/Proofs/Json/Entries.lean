import TableServer.Json.Reader
import TableServer.Proofs.Outcomes

namespace TableServer.Json

section

variable {α : Type}

/-- Entries up to a closing bracket, the first of them next, with a comma behind each but the last. Items and members
are read alike: what is told of entries holds of both. -/
def entries (closing : Char) (entry : Reader α) : Nat → Reader (List α)
  | 0, cs => .error (.malformed .value cs)
  | fuel + 1, cs => do
    let (a, rest) ← entry cs
    match skipBlanks rest with
    | [] => .error (.malformed .comma [])
    | c :: rest =>
      if c = closing then .ok ([a], rest)
      else if c = ',' then do
        let (more, rest) ← entries closing entry fuel (skipBlanks rest)
        .ok (a :: more, rest)
      else .error (.malformed .comma (c :: rest))

variable {closing : Char} {entry : Reader α} {a : α} {as : List α} {cs rest after : List Char} (fuel : Nat)

theorem entries_closed (h : entry cs = .ok (a, rest)) (hrest : skipBlanks rest = closing :: after) :
    entries closing entry (fuel + 1) cs = .ok ([a], after) := by
  rw [entries, h]
  simp only [bind, Except.bind, hrest, ↓reduceIte]

theorem entries_comma (hclosing : closing ≠ ',') (h : entry cs = .ok (a, rest)) (hrest : skipBlanks rest = ',' :: after) :
    entries closing entry (fuel + 1) cs =
      entries closing entry fuel (skipBlanks after) >>= fun read => .ok (a :: read.1, read.2) := by
  rw [entries, h]
  simp only [bind, Except.bind, hrest, hclosing.symm, ↓reduceIte]

/-- Entries that a text begins with, the last of them in front of the closing bracket, and the text behind that. -/
inductive Entered (closing : Char) (entry : Reader α) : List Char → List α → List Char → Prop
  | last {a : α} {cs rest after : List Char} (hone : entry cs = .ok (a, rest)) (hmark : skipBlanks rest = closing :: after) :
    Entered closing entry cs [a] after
  | more {a : α} {as : List α} {cs rest after end_ : List Char} (hone : entry cs = .ok (a, rest))
    (hmark : skipBlanks rest = ',' :: after) (hmore : Entered closing entry (skipBlanks after) as end_) :
    Entered closing entry cs (a :: as) end_

variable {fuel}

/-- Entries that have been read were all there, with the marks between them. Fuel does not matter any more. -/
theorem entered_of_entries (h : entries closing entry fuel cs = .ok (as, rest)) : Entered closing entry cs as rest := by
  induction fuel generalizing cs as with
  | zero => contradiction
  | succ fuel ih =>
    rw [entries] at h
    obtain ⟨⟨a, behind⟩, hone, h⟩ := bind_ok.mp h
    dsimp only at h
    split at h
    · contradiction
    · next c after hmark =>
      split at h
      · next hclosing =>
        obtain ⟨rfl, rfl⟩ := Prod.mk.inj (Except.ok.inj h)
        exact .last hone (hclosing ▸ hmark)
      · split at h
        · next hcomma =>
          obtain ⟨⟨more, end_⟩, hmore, h⟩ := bind_ok.mp h
          obtain ⟨rfl, rfl⟩ := Prod.mk.inj (Except.ok.inj h)
          exact .more hone (hcomma ▸ hmark) (ih hmore)
        · contradiction

/-- Each entry takes a piece of fuel. -/
theorem Entered.entries_eq (h : Entered closing entry cs as rest) (hclosing : closing ≠ ',') (hfuel : as.length ≤ fuel) :
    entries closing entry fuel cs = .ok (as, rest) := by
  induction h generalizing fuel with
  | last hone hmark =>
    obtain ⟨fuel, rfl⟩ := Nat.exists_eq_add_of_lt hfuel
    exact entries_closed _ hone hmark
  | more hone hmark hmore ih =>
    obtain ⟨fuel, rfl⟩ := Nat.exists_eq_add_one_of_ne_zero (Nat.ne_zero_of_lt hfuel)
    rw [entries_comma fuel hclosing hone hmark, ih (Nat.le_of_succ_le_succ hfuel)]
    rfl

/-- What holds of every entry that can be taken holds of those that are. -/
theorem Entered.forall {P : α → Prop} (h : Entered closing entry cs as rest)
    (hentry : ∀ cs a rest, entry cs = .ok (a, rest) → P a) : ∀ a ∈ as, P a := by
  induction h with
  | last hone _ => exact List.forall_mem_singleton.mpr (hentry _ _ _ hone)
  | more hone _ _ ih => exact List.forall_mem_cons.mpr ⟨hentry _ _ _ hone, ih⟩

end

theorem items_eq (item : Reader Value) (fuel : Nat) : items item fuel = entries ']' item fuel := by
  induction fuel with
  | zero => rfl
  | succ fuel ih =>
    funext cs
    rw [items, entries, ← ih]
    congr 1
    funext read
    obtain ⟨v, rest⟩ := read
    dsimp only
    generalize skipBlanks rest = after
    split
    · simp
    · simp
    · next hclosing hcomma =>
      cases after with
      | nil => rfl
      | cons c more =>
        dsimp only
        rw [if_neg (fun hc => hclosing more (by rw [hc])), if_neg (fun hc => hcomma more (by rw [hc]))]

/-- A member with its value, its name next. -/
def member (item : Reader Value) : Reader (Text × Value) := fun cs =>
  match cs with
  | '"' :: body => do
    let (name, rest) ← string cs body
    match skipBlanks rest with
    | ':' :: rest => do
      let (v, rest) ← item (skipBlanks rest)
      .ok ((name, v), rest)
    | rest => .error (.malformed .colon rest)
  | cs => .error (.malformed .name cs)

section

variable {item : Reader Value} {cs body colon rest : List Char} {name : Text} {m : Text × Value}

theorem member_error {e : Failure} (hname : string ('"' :: body) body = .error e) :
    member item ('"' :: body) = .error e := by
  rw [member, hname]
  rfl

theorem member_colon {before : List Char} (hname : string ('"' :: body) body = .ok (name, colon))
    (hcolon : skipBlanks colon = ':' :: before) :
    member item ('"' :: body) = (item (skipBlanks before)).map fun read => ((name, read.1), read.2) := by
  rw [member, hname]
  simp only [bind, Except.bind, hcolon]
  cases item (skipBlanks before) <;> rfl

theorem member_no_colon (hname : string ('"' :: body) body = .ok (name, colon))
    (hcolon : ∀ before, skipBlanks colon ≠ ':' :: before) :
    member item ('"' :: body) = .error (.malformed .colon (skipBlanks colon)) := by
  rw [member, hname]
  simp only [bind, Except.bind]

theorem member_no_name (h : ∀ body, cs ≠ '"' :: body) : member item cs = .error (.malformed .name cs) := by
  unfold member
  split
  · next body => exact absurd rfl (h body)
  · rfl

/-- A member that is taken has a name, a colon and a value. -/
theorem member_eq_ok (h : member item cs = .ok (m, rest)) : ∃ body colon before, cs = '"' :: body ∧
    string ('"' :: body) body = .ok (m.1, colon) ∧ skipBlanks colon = ':' :: before ∧
      item (skipBlanks before) = .ok (m.2, rest) := by
  unfold member at h
  split at h
  · next body =>
    obtain ⟨⟨name, colon⟩, hname, h⟩ := bind_ok.mp h
    dsimp only at h
    split at h
    · next before hcolon =>
      obtain ⟨⟨v, after⟩, hone, h⟩ := bind_ok.mp h
      obtain ⟨rfl, rfl⟩ := Prod.mk.inj (Except.ok.inj h)
      exact ⟨body, colon, before, rfl, hname, hcolon, hone⟩
    · contradiction
  · contradiction

/-- A member that is refused is malformed, or its name or its value is refused. -/
theorem member_eq_error {e : Failure} (h : member item cs = .error e) : (∃ complaint rest, e = .malformed complaint rest) ∨
    ∃ body, cs = '"' :: body ∧ (string ('"' :: body) body = .error e ∨ ∃ name colon before,
      string ('"' :: body) body = .ok (name, colon) ∧ skipBlanks colon = ':' :: before ∧
        item (skipBlanks before) = .error e) := by
  unfold member at h
  split at h
  · next body =>
    rcases bind_error.mp h with hname | ⟨⟨name, colon⟩, hname, h⟩
    · exact .inr ⟨body, rfl, .inl hname⟩
    · dsimp only at h
      split at h
      · next before hcolon =>
        rcases bind_error.mp h with hone | ⟨_, _, h⟩
        · exact .inr ⟨body, rfl, .inr ⟨name, colon, before, hname, hcolon, hone⟩⟩
        · contradiction
      · exact .inl ⟨_, _, (Except.error.inj h).symm⟩
  · exact .inl ⟨_, _, (Except.error.inj h).symm⟩

end

theorem members_eq (item : Reader Value) (fuel : Nat) : members item fuel = entries '\x7d' (member item) fuel := by
  induction fuel with
  | zero => rfl
  | succ fuel ih =>
    funext cs
    rw [members.eq_def, entries, ← ih]
    dsimp only
    split
    · next body =>
      cases hname : string ('"' :: body) body with
      | error e =>
        rw [member_error hname]
        rfl
      | ok read =>
        obtain ⟨name, colon⟩ := read
        simp only [bind, Except.bind]
        split
        · next before hcolon =>
          rw [member_colon hname hcolon]
          cases item (skipBlanks before) with
          | error e => rfl
          | ok read =>
            obtain ⟨v, rest⟩ := read
            simp only [Except.map]
            generalize skipBlanks rest = after
            split
            · simp
            · simp
            · next hclosing hcomma =>
              cases after with
              | nil => rfl
              | cons c more =>
                dsimp only
                rw [if_neg (fun hc => hclosing more (by rw [hc])), if_neg (fun hc => hcomma more (by rw [hc]))]
        · next hcolon => rw [member_no_colon hname hcolon]
    · next hname =>
      rw [member_no_name hname]
      rfl

/-- What stands behind an opening bracket: the closing one, or entries up to that. -/
def bracketed {α : Type} (closing : Char) (list : Reader (List α)) (build : List α → Value) : Reader Value := fun cs =>
  if (skipBlanks cs).head? = some closing then .ok (build [], (skipBlanks cs).tail)
  else list (skipBlanks cs) >>= fun read => .ok (build read.1, read.2)

theorem head?_ne {c : Char} {cs : List Char} (h : ∀ rest, cs ≠ c :: rest) : cs.head? ≠ some c := by
  intro heq
  obtain ⟨rest, hrest⟩ := List.head?_eq_some_iff.mp heq
  exact h rest hrest

theorem array_eq (item : Reader Value) (fuel : Nat) :
    array item fuel = bracketed ']' (entries ']' item fuel) .array := by
  funext cs
  rw [array, bracketed, items_eq]
  generalize skipBlanks cs = after
  split
  · rfl
  · next hclosing => rw [if_neg (head?_ne hclosing)]

theorem object_eq (item : Reader Value) (fuel : Nat) : object item fuel =
    bracketed '\x7d' (entries '\x7d' (member item) fuel) fun ms => .object (mergeMembers ms) := by
  funext cs
  rw [object, bracketed, members_eq]
  generalize skipBlanks cs = after
  split
  · rfl
  · next hclosing => rw [if_neg (head?_ne hclosing)]

section

variable {α : Type} {closing : Char} {list : Reader (List α)} {build : List α → Value} {cs rest : List Char}

theorem bracketed_eq_ok {v : Value} (h : bracketed closing list build cs = .ok (v, rest)) :
    (skipBlanks cs = closing :: rest ∧ v = build []) ∨ ∃ as, list (skipBlanks cs) = .ok (as, rest) ∧ v = build as := by
  unfold bracketed at h
  split at h
  · next hclosing =>
    obtain ⟨rfl, rfl⟩ := Prod.mk.inj (Except.ok.inj h)
    obtain ⟨after, hafter⟩ := List.head?_eq_some_iff.mp hclosing
    exact .inl ⟨by rw [hafter]; rfl, rfl⟩
  · obtain ⟨⟨as, after⟩, hlist, h⟩ := bind_ok.mp h
    obtain ⟨rfl, rfl⟩ := Prod.mk.inj (Except.ok.inj h)
    exact .inr ⟨as, hlist, rfl⟩

theorem bracketed_eq_error {e : Failure} (h : bracketed closing list build cs = .error e) :
    list (skipBlanks cs) = .error e := by
  unfold bracketed at h
  split at h
  · contradiction
  · rcases bind_error.mp h with hlist | ⟨_, _, h⟩
    · exact hlist
    · contradiction

end

end TableServer.Json
