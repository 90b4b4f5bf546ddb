import TableServer.Proofs.Connection.Answers
import TableServer.Proofs.Execution.Growth
import TableServer.Proofs.Execution.Turns
import TableServer.Proofs.Store.Backends

namespace TableServer

theorem record_pair (table name description : String) (id : Nat) :
    (⟨table, [("name", name), ("description", description)]⟩ : Insertion).record id =
      .ok ⟨id, Text.ofString name, Text.ofString description⟩ := by
  rfl

/-- Ids ascend, so that the first record with an id is the only one. -/
theorem find?_id {records more : List Record} {r : Record} (h : ∀ other ∈ records, other.id < r.id) :
    (records ++ r :: more).find? (fun other => (other.id : Int) = r.id) = some r := by
  rw [List.find?_append, List.find?_eq_none.mpr, Option.none_or]
  · simp
  · intro other hother
    have := h other hother
    simp
    omega

/-- What a client writes for the record, as it reads it. -/
def recordAnswer (id : Nat) (name description : String) : Json.Value := .object [
  (Text.ofString "id", .integer id), (Text.ofString "name", .string (Text.ofString name)),
  (Text.ofString "description", .string (Text.ofString description))]

open Lexeme in
theorem handleChunk_insertChars {store : Store} {table name description : String} {q q' : Char}
    (htable : Grammar.IsWord table.toList) (hq : isQuote q = true) (hq' : isQuote q' = true)
    (hname : q ∉ name.toList) (hdescription : q' ∉ description.toList) :
    handleChunk store (Utf8.encode (insertChars table q name q' description)) =
      insert store ⟨table, [("name", name), ("description", description)]⟩ := by
  refine handleChunk_of_command (c := .insert ⟨table, [("name", name), ("description", description)]⟩) store ?_
  unfold Wire.command Wire.decode
  rw [Utf8.decode_encode]
  dsimp only
  rw [parse_insertChars _ htable hq hq' hname hdescription]

theorem handleChunk_selectById {store : Store} {table : String} {id : Nat}
    (htable : Grammar.IsWord table.toList) (hdigits : (Nat.toDigits 10 id).length ≤ 4300) :
    handleChunk store (Utf8.encode (Command.selectById table id).printChars) = selectById store table id := by
  refine handleChunk_of_command (c := .selectById table id) store ?_
  unfold Wire.command Wire.decode
  rw [Utf8.decode_encode]
  dsimp only
  have hparse := parse_printSelectById statementDigits htable hdigits (.inr hdigits)
  rw [Command.print] at hparse
  rw [hparse]

/-- A record that is the first with its id is told when the id is asked for. -/
theorem select_of_contents {store : Store} (hunarmed : store.Unarmed) {table : String}
    (htable : Store.IsNamed table) {records more : List Record} {r : Record}
    (hheld : store.contents table = .ok (records ++ r :: more)) (hfirst : ∀ other ∈ records, other.id < r.id)
    (hshort : r.IsShort) (hchars : r.IsChars) :
    ∃ line, Wire.encode (handleChunk store
        (Utf8.encode (Command.selectById table r.id).printChars)).1 = .ok line ∧
      Client.readLine line = .ok (Record.listToJson [r]) := by
  have hload : (TableStore.load store table).1 = .ok (records ++ r :: more) := by
    rw [Store.load_of_unarmed hunarmed, hheld]
  have hfind := @find?_id records more r hfirst
  have hselect : (selectById store table r.id).1 = .rows [r] := by
    unfold selectById
    rcases hl : TableStore.load store table with ⟨result, s⟩
    rw [hl] at hload
    obtain rfl : result = .ok (records ++ r :: more) := hload
    dsimp only
    rw [hfind]
  obtain ⟨line, hline⟩ := @Wire.encode_rows_isOk [r] fun other hother =>
    List.mem_singleton.mp hother ▸ ⟨hshort, hchars⟩
  refine ⟨line, ?_, Wire.readLine_encode hline⟩
  rw [handleChunk_selectById htable hshort, hselect, hline]

/-- An insertion that a client is told to have succeeded has stored the texts as they were written, under an id
above all that the table held; and whatever chunks come then, the id is answered with the same texts. -/
theorem insert_durable {store : Store} (hstore : store.IsUsual) {table name description : String} {q q' : Char}
    (htable : Grammar.IsWord table.toList) (hq : q = '\'' ∨ q = '"') (hq' : q' = '\'' ∨ q' = '"')
    (hname : q ∉ name.toList) (hdescription : q' ∉ description.toList) {line : Bytes} {v : Json.Value}
    (hline : Wire.encode (handleChunk store
      (Utf8.encode (insertChars table q name q' description))).1 = .ok line)
    (hread : Client.readLine line = .ok v) (hsuccess : Client.isErrorAnswer v = false) :
    ∃ k records, (TableStore.load store table).1 = .ok records ∧ (∀ r ∈ records, r.id < k) ∧
      v = .object [(Text.ofString "success", .boolean true),
        (Text.ofString "newData", recordAnswer k name description)] ∧
      ∀ chunks, ∃ line', Wire.encode (handleChunk
          (afterChunks (handleChunk store (Utf8.encode (insertChars table q name q' description))).2 chunks)
          (Utf8.encode (Command.selectById table k).printChars)).1 = .ok line' ∧
        Client.readLine line' = .ok (.array [recordAnswer k name description]) := by
  have hchunk := @handleChunk_insertChars store table name description q q' htable
    ((Lexeme.isQuote_iff q).mpr hq) ((Lexeme.isQuote_iff q').mpr hq') hname hdescription
  rw [hchunk] at hline ⊢
  obtain rfl := Except.ok.inj ((Wire.readLine_encode hline).symm.trans hread)
  rw [Result.isErrorAnswer_payload] at hsuccess
  obtain ⟨records, r, hload, hr, hsave, hinsert⟩ := insert_eq_inserted hsuccess
  obtain rfl := Except.ok.inj ((record_pair table name description (nextId records)).symm.trans hr)
  rw [hinsert] at hline ⊢
  refine ⟨nextId records, records, hload, fun other hother => id_lt_nextId hother, rfl, fun chunks => ?_⟩
  obtain ⟨hshort, hchars⟩ := (Wire.encode_inserted_isOk_iff _).mp ⟨line, hline⟩
  obtain ⟨hsound, hheld⟩ := Store.sound_of_saved hstore htable hload hsave
  have hgrown := Contract.grows_afterChunks (fun _ h => h) hsound chunks
  obtain ⟨more, hmore⟩ := hgrown.keeps table _ htable hheld
  rw [List.append_assoc, List.singleton_append] at hmore
  have hselect := select_of_contents hgrown.sound.2 htable hmore (fun other hother => id_lt_nextId hother)
    hshort hchars
  exact hselect

/-- Each text in the quotes that the other holds. -/
theorem insert_durable_quotes :
    ∃ line v, Wire.encode (handleChunk (Store.memory .empty)
        (Utf8.encode (insertChars "t" '"' "it's" '\'' "\"x\""))).1 = .ok line ∧
      Client.readLine line = .ok v ∧ Client.isErrorAnswer v = false ∧
      ∃ k, v = .object [(Text.ofString "success", .boolean true),
        (Text.ofString "newData", recordAnswer k "it's" "\"x\"")] := by
  have hword : Grammar.IsWord "t".toList := Grammar.isWord_of_all (by decide) (by decide)
  have hchunk := @handleChunk_insertChars (Store.memory .empty) "t" "it's" "\"x\"" '"' '\'' hword rfl rfl
    (by decide) (by decide)
  have hinserted : (handleChunk (Store.memory .empty)
      (Utf8.encode (insertChars "t" '"' "it's" '\'' "\"x\""))).1 =
        .inserted ⟨1, Text.ofString "it's", Text.ofString "\"x\""⟩ := by
    rw [hchunk]
    rfl
  have husual : (Store.memory .empty).IsUsual := trivial
  have hshort : (Nat.toDigits 10 1).length ≤ Json.digitLimit := by decide
  obtain ⟨line, hline⟩ := (Wire.encode_inserted_isOk_iff ⟨1, Text.ofString "it's", Text.ofString "\"x\""⟩).mpr
    ⟨hshort, Record.isChars_ofString "it's", Record.isChars_ofString "\"x\""⟩
  rw [← hinserted] at hline
  have hread := Wire.readLine_encode hline
  have hsuccess : Client.isErrorAnswer (handleChunk (Store.memory .empty)
      (Utf8.encode (insertChars "t" '"' "it's" '\'' "\"x\""))).1.payload = false := by
    rw [hinserted]
    rfl
  obtain ⟨k, _, _, _, hv, _⟩ := insert_durable husual hword (.inr rfl) (.inl rfl) (by decide) (by decide)
    hline hread hsuccess
  exact ⟨line, _, hline, hread, hsuccess, k, hv⟩

end TableServer
