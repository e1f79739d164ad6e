import Presence.Proofs.Value.Equality

/-!
Contract: what stands under a text in entries whose other keys may be anything.

Owns: a key is found under a text only if it is this text (`found_text_iff`); how values that are
put under texts replace each other (`putStored_again`) and pass each other (`putStored_comm`).

Does not own: search under other keys (`Presence.Proofs.Value.Dictionary`).

A new key goes to the end, so that values pass each other only where one of the two is put under a
key that is there.
-/

namespace Presence.Value

/-- Only a text is found under itself. -/
theorem found_text_iff {key : Value} {name : String} :
    (hashesAgree key (.text name) && key == .text name) = true ↔ key = .text name := by
  rw [Bool.and_eq_true, beq_def]
  constructor
  · rintro ⟨_, equal⟩
    cases equals_of_same equal with
    | scalar equal =>
        rcases Scalar.same_cases equal with ⟨_, _, _, isNumber, _⟩ | ⟨_, _, _, _, isOctets⟩ |
          ⟨_, _, rfl⟩
        · cases isNumber
        · cases isOctets
        · rfl
  · rintro rfl
    have equal : same (.text name) (.text name) = true := by
      simp [same, Scalar.same, Scalar.number?, Scalar.octets?]
    exact ⟨hashesAgree_of_same equal rfl rfl, equal⟩

section Named

variable {name : String} {rest entries : List (Value × Value)}

theorem putStored_here (v held : Value) :
    putStored (.text name) v ((.text name, held) :: rest) = (.text name, v) :: rest := by
  rw [putStored, if_pos (found_text_iff.mpr rfl)]

theorem putStored_behind {entry : Value × Value} (isOther : entry.1 ≠ .text name) (v : Value) :
    putStored (.text name) v (entry :: rest) = entry :: putStored (.text name) v rest := by
  rw [putStored, if_neg (mt found_text_iff.mp isOther)]

/-- A value that is put replaces what was put under the same text. -/
theorem putStored_again (v held : Value) :
    putStored (.text name) v (putStored (.text name) held entries) =
      putStored (.text name) v entries := by
  induction entries with
  | nil => exact putStored_here v held
  | cons entry rest inductionHypothesis =>
      by_cases isHere : entry.1 = .text name
      · obtain ⟨key, first⟩ := entry
        subst isHere
        rw [putStored_here, putStored_here, putStored_here]
      · rw [putStored_behind isHere, putStored_behind isHere, putStored_behind isHere,
          inductionHypothesis]

/-- Putting a value under a text adds the text to the keys. -/
theorem mem_keys_putStored {key : Value} (v : Value) :
    key ∈ (putStored (.text name) v entries).map Prod.fst ↔
      key ∈ entries.map Prod.fst ∨ key = .text name := by
  induction entries with
  | nil => simp [putStored]
  | cons entry rest inductionHypothesis =>
      by_cases isHere : entry.1 = .text name
      · obtain ⟨first, held⟩ := entry
        subst isHere
        rw [putStored_here, List.map_cons, List.map_cons]
        exact ⟨.inl, fun either => either.elim id fun same => by simp [same]⟩
      · rw [putStored_behind isHere, List.map_cons, List.map_cons, List.mem_cons, List.mem_cons,
          inductionHypothesis, or_assoc]

/-- Values under texts pass each other if one of the texts is there. -/
theorem putStored_comm {other : String} (different : other ≠ name)
    (present : .text name ∈ entries.map Prod.fst) (v w : Value) :
    putStored (.text name) v (putStored (.text other) w entries) =
      putStored (.text other) w (putStored (.text name) v entries) := by
  have apart : Value.text other ≠ .text name := by simpa using different
  induction entries with
  | nil => simp at present
  | cons entry rest inductionHypothesis =>
      obtain ⟨key, held⟩ := entry
      by_cases isName : key = .text name
      · subst isName
        rw [putStored_behind apart.symm, putStored_here, putStored_here,
          putStored_behind apart.symm]
      · have behind : .text name ∈ rest.map Prod.fst :=
          (List.mem_cons.mp present).resolve_left (Ne.symm isName)
        by_cases isOther : key = .text other
        · subst isOther
          rw [putStored_here, putStored_behind apart, putStored_behind apart, putStored_here]
        · rw [putStored_behind isOther, putStored_behind isName, putStored_behind isName,
            putStored_behind isOther, inductionHypothesis behind]

end Named

end Presence.Value
