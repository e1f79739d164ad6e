import Presence.Proofs.Calls.Schedule
import Presence.Proofs.Json.Grammar

/-!
Contract: a document alone tells whether its option is absent.

Owns: `SpellsAbsence`, the texts of absence (`readWhole_eq_null_iff`); `LimitsNumerals`, that only
too many digits end a reading at a number; what reading an option comes to, and how often it calls
the function that decodes the payload (`ofDocument_outcome`).

Does not own: the grammar of documents (`Presence.Proofs.Json.Grammar`).
-/

namespace Presence.Json

/-! ## Texts of absence -/

/-- The word for nothing with blanks around it. -/
def SpellsAbsence (text : List Char) : Prop :=
  ∃ before after, text = before ++ "null".toList ++ after ∧
    ∀ c ∈ before ++ after, c = ' ' ∨ c = '\t' ∨ c = '\n' ∨ c = '\r'

private theorem isBlank_iff {c : Char} :
    isBlank c = true ↔ c = ' ' ∨ c = '\t' ∨ c = '\n' ∨ c = '\r' := by
  simp [isBlank, or_assoc]

private theorem eq_null_of_spellsPlain {text : List Char} (spells : SpellsPlain text .null) :
    text = "null".toList := by
  cases spells with
  | word isWord =>
      have each : ∀ word ∈ words, word.2.isNull = true → word.1 = "null".toList := by decide
      exact each _ isWord rfl

/-- Nothing is read only from its word. -/
private theorem eq_null_of_spellsValue {text rest : List Char}
    (spells : SpellsValue text .null rest) :
    text = "null".toList ++ rest := by
  cases spells with
  | plain spells => rw [eq_null_of_spellsPlain spells]

/-- Blanks are all that is skipped, and they are skipped up to the word. -/
theorem readWhole_eq_null_iff {text : List Char} :
    readWhole text = .ok .null ↔ SpellsAbsence text := by
  constructor
  · intro read
    obtain ⟨after, spells, ends⟩ := spellsValue_of_readWhole read
    refine ⟨text.takeWhile isBlank, after, ?_, ?_⟩
    · rw [List.append_assoc, ← eq_null_of_spellsValue spells]
      exact List.takeWhile_append_dropWhile.symm
    · intro c member
      rw [← isBlank_iff]
      rcases List.mem_append.mp member with isBefore | isAfter
      · exact List.mem_takeWhile_imp isBefore
      · exact List.dropWhile_eq_nil_iff.mp ends c isAfter
  · rintro ⟨before, after, rfl, blank⟩
    simp only [← isBlank_iff, List.forall_mem_append] at blank
    have start : skipBlanks (before ++ "null".toList ++ after) = "null".toList ++ after := by
      have shape : "null".toList = 'n' :: "ull".toList := rfl
      rw [List.append_assoc]
      exact skipBlanks_append blank.1 shape (by decide) after
    have ends : skipBlanks after = [] := List.dropWhile_eq_nil_iff.mpr blank.2
    have isNull : ∀ steps, readValue (steps + 1) ("null".toList ++ after) = .ok (.null, after) :=
      fun steps => readValue_plain steps _ (by decide)
    rw [readWhole, start, isNull]
    simp only [bind, Except.bind, ends]
    rfl

/-! ## Numbers with too many digits -/

section Limits

variable {α β : Type}

/-- Reading ends early at a number only if that has too many digits. -/
def LimitsNumerals (result : Except Halt α) : Prop :=
  ∀ digits, result = .error (.longNumeral digits) → Text.digitLimit < digits

theorem LimitsNumerals.ok (result : α) : LimitsNumerals (.ok result) := by
  rintro _ ⟨⟩

theorem LimitsNumerals.problem (what : Problem) (left : List Char) :
    LimitsNumerals (.error (.problem what left) : Except Halt α) := by
  rintro _ ⟨⟩

theorem LimitsNumerals.bind {first : Except Halt α} {next : α → Except Halt β}
    (begins : LimitsNumerals first) (goesOn : ∀ result, LimitsNumerals (next result)) :
    LimitsNumerals (first >>= next) := by
  intro digits halted
  cases first with
  | error halt =>
      cases halted
      exact begins digits rfl
  | ok result => exact goesOn result digits halted

theorem limitsNumerals_readCode (text : List Char) : LimitsNumerals (readCode text) := by
  unfold readCode
  split
  · split
    · exact .ok _
    · exact .problem _ _
  · exact .problem _ _

private theorem limitsNumerals_readSecondCode (text : List Char) :
    LimitsNumerals (readSecondCode text) := by
  unfold readSecondCode
  split
  · exact (limitsNumerals_readCode _).bind fun _ => .ok _
  · exact .ok _

private theorem limitsNumerals_readEscape (opening text : List Char) :
    LimitsNumerals (readEscape opening text) := by
  unfold readEscape
  split
  · exact .problem _ _
  · split
    · refine (limitsNumerals_readCode _).bind fun code => ?_
      split
      · refine (limitsNumerals_readSecondCode _).bind fun second => ?_
        split
        · split
          · exact .ok _
          · exact .ok _
        · exact .ok _
      · exact .ok _
    · split
      · exact .ok _
      · exact .problem _ _

theorem limitsNumerals_readText (opening : List Char) : (skip : Nat) → (text : List Char) →
    LimitsNumerals (readText opening skip text)
  | skip, [] => by
      rw [readText]
      exact .problem _ _
  | skip + 1, _ :: rest => limitsNumerals_readText opening skip rest
  | 0, c :: rest => by
      rw [readText]
      split
      · exact .ok _
      · split
        · refine (limitsNumerals_readEscape opening rest).bind fun meant => ?_
          exact (limitsNumerals_readText opening meant.2 rest).bind fun _ => .ok _
        · split
          · exact .problem _ _
          · exact (limitsNumerals_readText opening 0 rest).bind fun _ => .ok _

private theorem limitsNumerals_wholeNumber (negative : Bool) (digits : List Char) :
    LimitsNumerals (wholeNumber negative digits) := by
  unfold wholeNumber
  split
  · next long =>
      intro count halted
      cases halted
      exact long
  · exact .ok _

private theorem limitsNumerals_readUnsigned (negative : Bool) (text : List Char) :
    LimitsNumerals (readUnsigned negative text) := by
  unfold readUnsigned
  split
  · exact .ok _
  · split
    · exact (limitsNumerals_wholeNumber _ _).bind fun _ => .ok _
    · exact .ok _
    · exact .ok _
    · exact .ok _

private theorem limitsNumerals_readPlain (text : List Char) : LimitsNumerals (readPlain text) := by
  unfold readPlain
  split
  · exact .ok _
  · dsimp only
    split
    · refine (limitsNumerals_readUnsigned _ _).bind fun number => ?_
      split
      · exact .ok _
      · exact .problem _ _
    · refine (limitsNumerals_readUnsigned _ _).bind fun number => ?_
      split
      · exact .ok _
      · exact .problem _ _

mutual

theorem limitsNumerals_readValue : (steps : Nat) → (text : List Char) →
    LimitsNumerals (readValue steps text)
  | 0, _ => .problem _ _
  | steps + 1, text => by
      rw [readValue.eq_def]
      dsimp only
      split
      · exact (limitsNumerals_readText _ _ _).bind fun _ => .ok _
      · split
        · exact .ok _
        · exact (limitsNumerals_readItems steps _).bind fun _ => .ok _
      · split
        · exact .ok _
        · exact (limitsNumerals_readMembers steps _ _).bind fun _ => .ok _
      · exact limitsNumerals_readPlain _

theorem limitsNumerals_readItems : (steps : Nat) → (text : List Char) →
    LimitsNumerals (readItems steps text)
  | 0, _ => .problem _ _
  | steps + 1, text => by
      rw [readItems]
      refine (limitsNumerals_readValue steps text).bind fun found => ?_
      dsimp only
      split
      · exact .ok _
      · exact (limitsNumerals_readItems steps _).bind fun _ => .ok _
      · exact .problem _ _

theorem limitsNumerals_readMembers : (steps : Nat) → (sofar : List (Value × Value)) →
    (text : List Char) → LimitsNumerals (readMembers steps sofar text)
  | 0, _, _ => .problem _ _
  | steps + 1, sofar, text => by
      rw [readMembers.eq_def]
      dsimp only
      split
      · refine (limitsNumerals_readText _ _ _).bind fun name => ?_
        split
        · refine (limitsNumerals_readValue steps _).bind fun found => ?_
          split
          · exact .ok _
          · exact limitsNumerals_readMembers steps _ _
          · exact .problem _ _
        · exact .problem _ _
      · exact .problem _ _

end

private theorem limitsNumerals_readWhole (text : List Char) : LimitsNumerals (readWhole text) := by
  unfold readWhole
  refine (limitsNumerals_readValue _ _).bind fun found => ?_
  dsimp only
  split
  · exact .ok _
  · exact .problem _ _

end Limits

/-- A text that is not loaded is malformed, or holds a whole number with too many digits. -/
theorem load_text_eq_error {s : String} {fault : Fault} (rejected : load (.text s) = .error fault) :
    (∃ what place, fault = .malformed what place) ∨
      ∃ digits, fault = .longNumeral digits ∧ Text.digitLimit < digits := by
  unfold load at rejected
  dsimp only at rejected
  split at rejected
  · cases rejected
    exact .inl ⟨_, _, rfl⟩
  · unfold read at rejected
    cases isRead : readWhole s.toList with
    | ok found =>
        rw [isRead] at rejected
        cases rejected
    | error halt =>
        rw [isRead] at rejected
        cases rejected
        cases halt with
        | problem what left => exact .inl ⟨_, _, rfl⟩
        | longNumeral digits =>
            exact .inr ⟨digits, rfl, limitsNumerals_readWhole s.toList digits isRead⟩

end Presence.Json

/-! ## Options -/

namespace Presence.Optional

open Attempt Calls Json

section Outcome

variable {σ : Type} {source : Value} (decode : Value → Attempt (StateM σ) Value) (kind : Value)
  (start : σ)

private theorem runFrom_ofDocument_of_error {fault : Fault}
    (rejected : load source = .error fault) :
    (ofDocument source (recorded decode) kind).runFrom ⟨start, []⟩ =
      (.error fault, ⟨start, []⟩) := by
  unfold ofDocument
  rw [rejected]
  rfl

private theorem runFrom_ofDocument_of_null (loaded : load source = .ok .null) :
    (ofDocument source (recorded decode) kind).runFrom ⟨start, []⟩ =
      (.ok (.notOk kind), ⟨start, []⟩) := by
  unfold ofDocument
  rw [loaded]
  rfl

/-- A payload is decoded once, and whatever comes of it is the payload of the option. -/
theorem runFrom_ofDocument_of_ok {v : Value} (loaded : load source = .ok v) (present : v ≠ .null)
    {answered : Except Fault Value} {after : σ}
    (answers : (decode v).runFrom start = (answered, after)) :
    (ofDocument source (recorded decode) kind).runFrom ⟨start, []⟩ =
      (answered.map .ok, ⟨after, [⟨v, answered⟩]⟩) := by
  have notNull : v.isNull = false := by
    unfold Value.isNull
    split
    · exact absurd rfl present
    · rfl
  have isPresent : ofNullable v kind = .ok v := by
    rw [ofNullable, notNull]
    rfl
  have called := runFrom_recorded answers []
  unfold ofDocument
  rw [loaded]
  show ((ofNullable v kind).convert (recorded decode)).runFrom ⟨start, []⟩ = _
  rw [isPresent]
  cases answered with
  | error fault => exact runFrom_bind_of_error _ called
  | ok answer => exact runFrom_bind_of_ok _ called

end Outcome

/-- A document alone tells whether its option is absent: it is exactly for the word for nothing with
blanks around it. A text that is not loaded is the same fault for the option. Neither calls the
function. Every other document calls it once, with the value that it is loaded as, and whatever
comes of the call, a fault or any value, is what comes of the option. -/
theorem ofDocument_outcome {σ : Type} (s : String) (decode : Value → Attempt (StateM σ) Value)
    (kind : Value) (start : σ) :
    ∃ outcome after calls,
      (ofDocument (.text s) (recorded decode) kind).runFrom ⟨start, []⟩ =
        (outcome, ⟨after, calls⟩) ∧
      (outcome = .ok (.notOk kind) ↔ SpellsAbsence s.toList) ∧
      (SpellsAbsence s.toList → calls = [] ∧ after = start) ∧
      (∀ fault, load (.text s) = .error fault →
        outcome = .error fault ∧ calls = [] ∧ after = start ∧
          ((∃ what place, fault = .malformed what place) ∨
            ∃ digits, fault = .longNumeral digits ∧ Text.digitLimit < digits)) ∧
      ∀ v, load (.text s) = .ok v → ¬ SpellsAbsence s.toList →
        ∃ answered, (decode v).runFrom start = (answered, after) ∧ calls = [⟨v, answered⟩] ∧
          outcome = answered.map .ok := by
  have isAbsent : load (.text s) = .ok .null ↔ SpellsAbsence s.toList :=
    load_text_eq_ok_iff.trans readWhole_eq_null_iff
  rcases loaded : load (.text s) with fault | v
  · have notAbsent : ¬ SpellsAbsence s.toList := fun absent => by
      rw [isAbsent.mpr absent] at loaded
      cases loaded
    refine ⟨.error fault, start, [], runFrom_ofDocument_of_error decode kind start loaded,
      ⟨nofun, fun absent => absurd absent notAbsent⟩, fun _ => ⟨rfl, rfl⟩, ?_, nofun⟩
    intro _ same
    cases same
    exact ⟨rfl, rfl, rfl, load_text_eq_error loaded⟩
  · by_cases absent : SpellsAbsence s.toList
    · have isNull := isAbsent.mpr absent
      refine ⟨.ok (.notOk kind), start, [], runFrom_ofDocument_of_null decode kind start isNull,
        ⟨fun _ => absent, fun _ => rfl⟩, fun _ => ⟨rfl, rfl⟩, nofun,
        fun _ _ present => absurd absent present⟩
    · have present : v ≠ .null := by
        rintro rfl
        exact absent (isAbsent.mp loaded)
      rcases answers : (decode v).runFrom start with ⟨answered, after⟩
      refine ⟨answered.map .ok, after, [⟨v, answered⟩],
        runFrom_ofDocument_of_ok decode kind start loaded present answers, ?_,
        fun isAbsent => absurd isAbsent absent, nofun, ?_⟩
      · refine ⟨?_, fun isAbsent => absurd isAbsent absent⟩
        cases answered <;> nofun
      · intro _ same _
        cases same
        exact ⟨answered, answers, rfl, rfl⟩

end Presence.Optional
