import Presence.Json.Optional
import Presence.Proofs.Kinds.GoingThrough
import Presence.Session.General
import Presence.Session.Options

/-!
Contract: computations that cannot be told apart by those who do not see kinds.

Owns: `Indistinct`, computations that come to kindred values, with the rules for what goes on from
them; that what is asked of any values comes to kindred answers.

Does not own: kindred values (`Presence.Proofs.Kinds.Kindred`), and what is asked of options, sides
and sequences alone (`Presence.Proofs.Kinds.Options`, `Presence.Proofs.Kinds.Sides`,
`Presence.Proofs.Kinds.Unseen`).
-/

namespace Presence.Session

open Attempt Run Value

/-! ## Computations that cannot be told apart -/

/-- What was kindred stays so. -/
def Stays (before after : Store) : Prop := ∀ v w, Kindred before v w → Kindred after v w

/-- Computations that come to the same world and to kindred values there, or to the same fault, and
leave kindred what was. -/
def Indistinct (world : World) : Run Value → Run Value → Prop :=
  Alike world fun after v w => Kindred after.store v w ∧ Stays world.store after.store

/-- Computations with related results, or the same fault, that leave the world as it was. -/
abbrev Calm {α β : Type} (world : World) (related : α → β → Prop) : Run α → Run β → Prop :=
  Alike world fun after a b => after = world ∧ related a b

/-- Functions that give kindred values for kindred arguments. -/
def CannotTell (call : Caller) (f g : Value) : Prop :=
  ∀ world arguments arguments', List.Forall₂ (Kindred world.store) arguments arguments' →
    Indistinct world (call f arguments) (call g arguments')

theorem Stays.refl (store : Store) : Stays store store := fun _ _ kindred => kindred

theorem Stays.of_hasLists {world after : World} (hasLists : HasLists world.store after) :
    Stays world.store after.store := fun _ _ kindred => kindred.of_lists hasLists

section Rules

variable {α β : Type} {world : World} {related : α → β → Prop} {first : Run α} {second : Run β}

/-- What is made of related results cannot be told apart if what goes on from them cannot. -/
theorem Calm.indistinct (calm : Calm world related first second) {next : α → Run Value}
    {next' : β → Run Value}
    (goesOn : ∀ a b, related a b → Indistinct world (next a) (next' b)) :
    Indistinct world (first >>= next) (second >>= next') := by
  refine calm.bind ?_
  rintro _ a b ⟨rfl, relates⟩
  exact goesOn a b relates

theorem Indistinct.pure {v w : Value} (kindred : Kindred world.store v w) :
    Indistinct world (pure v) (pure w) := Alike.pure ⟨kindred, .refl _⟩

theorem Indistinct.lift {result result' : Except Fault Value}
    (agree : Agree (Kindred world.store) result result') :
    Indistinct world (lift result) (lift result') :=
  .ofExcept agree fun _ _ kindred => ⟨kindred, .refl _⟩

/-- A computation that leaves the lists as they are cannot be told from itself. -/
theorem Indistinct.refl {body : Run Value}
    (keeps : (body.runFrom world).2.store.lists = world.store.lists) :
    Indistinct world body body :=
  Alike.refl fun after v ended => by
    rw [ended] at keeps
    exact ⟨Kindred.refl v, .of_hasLists keeps⟩

theorem Indistinct.fault (fault : Fault) : Indistinct world (fail fault) (fail fault) :=
  .error rfl rfl

theorem calm_observe {v w : Value} (kindred : Kindred world.store v w) :
    Calm world (Similar false) (observe v) (observe w) := .ok rfl rfl ⟨rfl, kindred⟩

theorem calm_look {v w : Value} (kindred : Kindred world.store v w) :
    Calm world (fun a b => a.size? = b.size? ∧ a.truthy? = b.truthy?) (look v) (look w) := by
  obtain ⟨seen, looked, sameSize, sameTruth⟩ := isLooked world v
  obtain ⟨seen', looked', sameSize', sameTruth'⟩ := isLooked world w
  refine .ok looked looked' ⟨rfl, ?_, ?_⟩
  · rw [sameSize, sameSize', size?_similar _ kindred]
  · rw [sameTruth, sameTruth', truthy?_similar kindred]

theorem calm_truth {v w : Value} (kindred : Kindred world.store v w) :
    Calm world (fun a b => a = b) (truth v) (truth w) := by
  refine (calm_look kindred).bind ?_
  rintro _ a b ⟨rfl, -, sameTruth⟩
  rw [sameTruth]
  cases b.truthy? with
  | none => exact .error rfl rfl
  | some holds => exact .pure ⟨rfl, rfl⟩

theorem calm_size {v w : Value} (kindred : Kindred world.store v w) :
    Calm world (fun a b => a = b) (size v) (size w) := by
  refine (calm_look kindred).bind ?_
  rintro _ a b ⟨rfl, sameSize, -⟩
  rw [sameSize]
  cases b.size? with
  | none => exact .error rfl rfl
  | some size => exact .pure ⟨rfl, rfl⟩

end Rules

variable {call : Caller} {world : World}

/-! ## What is asked of any values -/

section Values

variable {v v' w w' : Value}

/-- What is asked of one value. -/
theorem indistinct_general_one (kindred : Kindred world.store v v') :
    ∀ operation ∈ [GeneralOperation.shown, .plain, .truthy, .hashable, .size, .printLine, .give],
      Indistinct world (performGeneral call operation [v])
        (performGeneral call operation [v']) := by
  have observed := calm_observe kindred
  intro operation member
  cases operation with
  | shown =>
      refine observed.indistinct fun a b similar => ?_
      rw [shown_similar similar]
      exact .refl (by cases b.shown <;> rfl)
  | plain | printLine =>
      refine observed.indistinct fun a b similar => ?_
      rw [plain_similar similar]
      exact .refl (by cases b.plain <;> rfl)
  | truthy =>
      refine (calm_truth kindred).indistinct fun a b same => ?_
      rw [same]
      exact .pure (Kindred.refl _)
  | hashable =>
      simp only [performGeneral, kindred.requireHash_eq]
      exact .refl (by cases v'.requireHash <;> rfl)
  | size =>
      refine (calm_size kindred).indistinct fun a b same => ?_
      rw [same]
      exact .pure (Kindred.refl _)
  | give => exact .pure kindred
  | _ => exact absurd member (by decide)

/-- What is asked of two values together. -/
theorem indistinct_general_two (kindred : Kindred world.store v v')
    (other : Kindred world.store w w') :
    ∀ operation ∈ [GeneralOperation.same, .different, .sameHash],
      Indistinct world (performGeneral call operation [v, w])
        (performGeneral call operation [v', w']) := by
  intro operation member
  cases operation with
  | same | different =>
      refine (calm_observe kindred).indistinct fun a a' similar => ?_
      refine (calm_observe other).indistinct fun b b' similar' => ?_
      rw [beq_def, beq_def, same_similar a similar similar']
      exact .pure (Kindred.refl _)
  | sameHash =>
      simp only [performGeneral, kindred.requireHash_eq, other.requireHash_eq, hashesAgree,
        kindred.hash_eq, other.hash_eq]
      exact .refl (by cases v'.requireHash <;> cases w'.requireHash <;> rfl)
  | _ => exact absurd member (by decide)

/-- What is asked of a value by way of options. -/
theorem indistinct_option_one (kindred : Kindred world.store v v') :
    ∀ operation ∈ [OptionOperation.encode, .encodeCompact, .isZero, .unlessZero],
      Indistinct world (performOption call operation [v]) (performOption call operation [v']) := by
  have observed := calm_observe kindred
  intro operation member
  cases operation with
  | encode =>
      refine observed.indistinct fun a b similar => ?_
      rw [Json.write_similar .spaced a similar]
      exact .refl (by cases Json.write .spaced b <;> rfl)
  | encodeCompact =>
      refine observed.indistinct fun a b similar => ?_
      rw [Json.write_similar .compact a similar]
      exact .refl (by cases Json.write .compact b <;> rfl)
  | isZero =>
      refine observed.indistinct fun a b similar => ?_
      rw [isZero_similar similar]
      exact .pure (Kindred.refl _)
  | unlessZero =>
      refine observed.indistinct fun a b similar => ?_
      rw [isZero_similar similar]
      refine .pure (kindred_option_iff.mpr ?_)
      cases isZero b with
      | true => exact .notOk _ _
      | false => exact .ok kindred
  | _ => exact absurd member (by decide)

end Values

end Presence.Session
