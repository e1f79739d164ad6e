import Presence.Json.Optional
import Presence.Proofs.Value.SimilarParts

/-!
Contract: the text and the documents of values that differ in nothing but kinds.

Owns: values that are similar, with nothing hidden, have the same text in either look
(`write_similar`) and the same document (`Json.write_similar`), or lack it for the same reason.

Does not own: what similar values hold (`Presence.Proofs.Value.SimilarParts`).
-/

namespace Presence

namespace Value

/-! ## Text -/

/-- What is similar to a value without parts is that value. -/
theorem scalar_iff_of_similar {hidden : Bool} {v w : Value} (similar : Similar hidden v w)
    (s : Scalar) : v = .scalar s ↔ w = .scalar s := by
  cases similar <;> simp

private theorem placeText_similar {file file' line line' : Value} (first : Similar false file file')
    (second : Similar false line line') : placeText file line = placeText file' line' := by
  have sameFile := scalar_iff_of_similar first
  have sameLine := scalar_iff_of_similar second
  unfold placeText
  split <;> split <;> grind

private theorem grammarPlace_similar {details details' : Value}
    (similar : Similar false details details') :
    grammarPlace details = grammarPlace details' := by
  cases similar with
  | list items | tuple items =>
      cases items with
      | nil => rfl
      | cons file rest =>
          cases rest with
          | nil => rfl
          | cons line _ => exact placeText_similar file line
  | _ => rfl

private theorem deviceText_similar {files files' : List Value}
    (similar : List.Forall₂ (Similar false) files files') (number reason : List Char)
    (texts : List (List Char)) :
    deviceText number reason files texts = deviceText number reason files' texts := by
  cases similar with
  | nil => rfl
  | cons first rest =>
      cases texts with
      | nil => rfl
      | cons one more =>
          simp only [deviceText, isNull_similar first]
          cases rest with
          | nil => rfl
          | cons _ rest =>
              cases rest with
              | nil => rfl
              | cons second rest =>
                  cases rest with
                  | nil => simp only [isNull_similar second]
                  | cons _ _ => rfl

private theorem dropsFiles_similar {files files' : List Value}
    (similar : List.Forall₂ (Similar false) files files') (kind : FaultKind) :
    dropsFiles kind files = dropsFiles kind files' := by
  have sameHead : (files.headD .null).isNull = (files'.headD .null).isNull := by
    cases similar with
    | nil => rfl
    | cons first _ => exact isNull_similar first
  rw [dropsFiles, dropsFiles, similar.length_eq, sameHead]

mutual

/-- Similar values have the same text. -/
theorem write_similar : (v : Value) → ∀ {w : Value} (look : Look), Similar false v w →
    write look v = write look w
  | .scalar s, _, _, similar => by
      cases similar
      rfl
  | .list xs, _, _, similar => by
      cases similar with
      | list items => rw [write, write, writeItems_similar xs items]
  | .tuple xs, _, _, similar => by
      cases similar with
      | tuple items => rw [write, write, writeItems_similar xs items]
  | .set xs, _, _, similar => by
      cases similar with
      | set items => rw [write, write, writeItems_similar xs (forall₂_similar items)]
  | .frozenSet xs, _, _, similar => by
      cases similar with
      | frozenSet items => rw [write, write, writeItems_similar xs (forall₂_similar items)]
  | .dictionary es, _, _, similar => by
      cases similar with
      | dictionary entries => rw [write, write, writeEntries_similar es entries]
  | .option (.ok v), _, _, similar => by
      cases similar with
      | ok payload => rw [write, write, write_similar v .quoted payload]
  | .option (.notOk _), _, _, similar => by
      cases similar with
      | notOk => rw [write, write]
  | .either (.left v _), _, _, similar => by
      cases similar with
      | left _ _ payload => rw [write, write, write_similar v .quoted payload]
  | .either (.right v _), _, _, similar => by
      cases similar with
      | right _ _ payload => rw [write, write, write_similar v .quoted payload]
  | .pair ⟨v, w⟩, _, _, similar => by
      cases similar with
      | pair first second =>
          rw [write, write, write_similar v .quoted first, write_similar w .quoted second]
  | .sequence ⟨v⟩, _, _, similar => by
      cases similar with
      | sequence container => rw [write, write, write_similar v .quoted container]
  | .managed ⟨_, v⟩, _, _, similar => by
      cases similar with
      | managed _ basic => rw [write, write, write_similar v .quoted basic]
  | .guarded ⟨v⟩, _, _, similar => by
      cases similar with
      | guarded payload => rw [write, write, write_similar v .quoted payload]
  | .deferred ⟨f⟩, _, _, similar => by
      cases similar with
      | deferred run => rw [write, write, write_similar f .quoted run]
  | .ternary ⟨c, v, none⟩, _, _, similar => by
      cases similar with
      | ternary condition payload =>
          rw [write, write, write_similar c .quoted condition, write_similar v .quoted payload]
  | .ternary ⟨c, v, some f⟩, _, _, similar => by
      cases similar with
      | ternaryCall condition payload call =>
          rw [write, write, write_similar c .quoted condition, write_similar v .quoted payload,
            write_similar f .quoted call]
  | .parseError ⟨v, reason, n⟩, _, _, similar => by
      cases similar with
      | parseError input why fallback =>
          rw [write, write, write_similar v .quoted input, write_similar reason .quoted why,
            write_similar n .quoted fallback]
  | .thrown ⟨_, kind, [], _⟩, _, look, similar => by
      cases similar with
      | thrown _ _ arguments _ =>
          cases arguments
          cases look <;> rfl
      | hiddenThrown hides => cases hides
  | .thrown ⟨_, kind, [only], _⟩, _, look, similar => by
      cases similar with
      | thrown _ _ arguments _ =>
          cases arguments with
          | cons first rest =>
              cases rest
              cases look with
              | quoted => rw [write, write, write_similar only .quoted first]
              | plain => exact write_similar only _ first
      | hiddenThrown hides => cases hides
  | .thrown ⟨_, kind, x :: y :: rest, _⟩, _, look, similar => by
      cases similar with
      | thrown _ _ arguments _ =>
          cases arguments with
          | cons first arguments =>
              cases arguments with
              | cons second others =>
                  cases look with
                  | quoted =>
                      simp only [write]
                      rw [write_similar x .quoted first, write_similar y .quoted second,
                        writeItems_similar rest others, dropsFiles_similar others]
                  | plain =>
                      simp only [write]
                      rw [write_similar x .quoted first, write_similar y .quoted second,
                        writeItems_similar rest others, write_similar x .plain first,
                        write_similar y .plain second, grammarPlace_similar second]
                      simp only [deviceText_similar others, others.length_eq,
                        isEmpty_eq_of_forall₂ others]
      | hiddenThrown hides => cases hides
  | .client ⟨_, v, w⟩, _, _, similar => by
      cases similar with
      | client _ users _ => rw [write, write, write_similar v .quoted users]
      | hiddenClient hides => cases hides

theorem writeItems_similar : (xs : List Value) → ∀ {ys : List Value},
    List.Forall₂ (Similar false) xs ys → writeItems xs = writeItems ys
  | [], _, similar => by
      cases similar
      rfl
  | x :: xs, _, similar => by
      cases similar with
      | cons first rest =>
          rw [writeItems, writeItems, write_similar x .quoted first, writeItems_similar xs rest]

theorem writeEntries_similar : (es : List (Value × Value)) → ∀ {fs : List (Value × Value)},
    List.Forall₂ (SimilarEntries false) es fs → writeEntries es = writeEntries fs
  | [], _, similar => by
      cases similar
      rfl
  | (key, v) :: es, _, similar => by
      cases similar with
      | cons first rest =>
          cases first with
          | entry under value =>
              rw [writeEntries, writeEntries, write_similar key .quoted under,
                write_similar v .quoted value, writeEntries_similar es rest]

end

/-- Similar values are shown alike. -/
theorem shown_similar {v w : Value} (similar : Similar false v w) : v.shown = w.shown := by
  rw [shown, shown, write_similar v .quoted similar]

theorem plain_similar {v w : Value} (similar : Similar false v w) : v.plain = w.plain := by
  rw [plain, plain, write_similar v .plain similar]

end Value

/-! ## Documents -/

namespace Json

open Value

private theorem keyText_similar {key key' : Value} (similar : Similar false key key') :
    keyText key = keyText key' := by
  cases similar with
  | scalar s => rfl
  | hiddenThrown hides => cases hides
  | _ => rfl

mutual

/-- Similar values have the same document, or none for the same part. -/
theorem write_similar (style : Style) : (v : Value) → ∀ {w : Value}, Similar false v w →
    write style v = write style w
  | .list xs, _, similar => by
      cases similar with
      | list items => rw [write, write, writeItems_similar style xs items]
  | .tuple xs, _, similar => by
      cases similar with
      | tuple items => rw [write, write, writeItems_similar style xs items]
  | .dictionary es, _, similar => by
      cases similar with
      | dictionary entries => rw [write, write, writeMembers_similar style es entries]
  | .option (.ok v), _, similar => by
      cases similar with
      | ok payload => rw [write, write, write_similar style v payload]
  | .option (.notOk _), _, similar => by
      cases similar with
      | notOk => rw [write, write]
  | .scalar _, _, similar | .set _, _, similar | .frozenSet _, _, similar | .either _, _, similar
  | .pair _, _, similar | .sequence _, _, similar | .managed _, _, similar
  | .guarded _, _, similar | .deferred _, _, similar | .ternary _, _, similar
  | .parseError _, _, similar => by
      cases similar <;> rfl
  | .thrown _, _, similar => by
      cases similar with
      | thrown => rfl
      | hiddenThrown hides => cases hides
  | .client _, _, similar => by
      cases similar with
      | client => rfl
      | hiddenClient hides => cases hides

theorem writeItems_similar (style : Style) : (xs : List Value) → ∀ {ys : List Value},
    List.Forall₂ (Similar false) xs ys → writeItems style xs = writeItems style ys
  | [], _, similar => by
      cases similar
      rfl
  | x :: xs, _, similar => by
      cases similar with
      | cons first rest =>
          rw [writeItems, writeItems, write_similar style x first,
            writeItems_similar style xs rest]

theorem writeMembers_similar (style : Style) : (es : List (Value × Value)) →
    ∀ {fs : List (Value × Value)}, List.Forall₂ (SimilarEntries false) es fs →
      writeMembers style es = writeMembers style fs
  | [], _, similar => by
      cases similar
      rfl
  | (key, v) :: es, _, similar => by
      cases similar with
      | cons first rest =>
          cases first with
          | entry under value =>
              rw [writeMembers, writeMembers, keyText_similar under,
                write_similar style v value, writeMembers_similar style es rest]

end

end Json

end Presence
