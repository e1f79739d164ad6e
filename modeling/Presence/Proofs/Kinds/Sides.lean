import Presence.Proofs.Kinds.Members
import Presence.Session.Sides

/-!
Contract: which operations on either side see the kind of the other one.

Owns: the operations that give a zero (`EitherOperation.tellers`) and those that call functions
(`EitherOperation.callers`, `EitherOperation.folders`); that all others cannot tell kindred sides
apart (`indistinct_either`), nor can those that call functions unless these can
(`indistinct_either_calling`, `indistinct_either_folding`).

Does not own: the operations themselves (`Presence.Session.Sides`).
-/

namespace Presence.Session

open Attempt Run Value

variable {call : Caller} {world : World} {e e' : Either Value Value Value}

/-- The operations that give a zero value. -/
def EitherOperation.tellers : List EitherOperation := [.get, .getLeft]

/-- The operations that call a function of a payload. -/
def EitherOperation.callers : List EitherOperation :=
  [.mapRightFree, .mapLeftFree, .getOrCall, .leftOrCall, .map, .flatMap, .mapLeft, .ifRight,
    .ifLeft]

/-- The operations that call a function for each side. -/
def EitherOperation.folders : List EitherOperation := [.fold, .foldFree]

/-- What is asked of a side, with whatever arguments, without calling a function. -/
theorem indistinct_either (subject : KindredSides world.store e e')
    {arguments arguments' : List Value}
    (related : List.Forall₂ (Kindred world.store) arguments arguments') :
    ∀ operation ∉ EitherOperation.tellers ++ EitherOperation.callers ++ EitherOperation.folders,
      Indistinct world (performEither call operation (.either e :: arguments))
        (performEither call operation (.either e' :: arguments')) := by
  intro operation asks
  cases operation with
  | get | getLeft | foldFree | fold | mapRightFree | mapLeftFree | getOrCall | leftOrCall | map
  | flatMap | mapLeft | ifRight | ifLeft => exact absurd (by decide) asks
  | left =>
      cases related with
      | nil => exact .pure (kindred_either_iff.mpr (.left _ _ subject.kindred))
      | cons kind rest =>
          cases rest with
          | nil => exact .pure (kindred_either_iff.mpr (.left _ _ subject.kindred))
          | cons => exact .fault _
  | right =>
      cases related with
      | nil => exact .pure (kindred_either_iff.mpr (.right _ _ subject.kindred))
      | cons kind rest =>
          cases rest with
          | nil => exact .pure (kindred_either_iff.mpr (.right _ _ subject.kindred))
          | cons => exact .fault _
  | isLeft =>
      cases related with
      | cons => exact .fault _
      | nil =>
          refine .pure ?_
          rw [subject.isLeft_eq]
          exact Kindred.refl _
  | isRight =>
      cases related with
      | cons => exact .fault _
      | nil =>
          refine .pure ?_
          rw [Either.isRight, Either.isRight, subject.isLeft_eq]
          exact Kindred.refl _
  | mustGet =>
      cases related with
      | nil => exact .lift subject.mustGet
      | cons => exact .fault _
  | mustGetLeft =>
      cases related with
      | nil => exact .lift subject.mustGetLeft
      | cons => exact .fault _
  | getOrElse =>
      cases related with
      | nil => exact .fault _
      | cons fallback rest =>
          cases rest with
          | nil => exact .pure (subject.getOrElse fallback)
          | cons => exact .fault _
  | leftOrElse =>
      cases related with
      | nil => exact .fault _
      | cons fallback rest =>
          cases rest with
          | nil => exact .pure (subject.leftOrElse fallback)
          | cons => exact .fault _
  | toOption =>
      cases related with
      | nil => exact .pure (kindred_option_iff.mpr subject.toOption)
      | cons => exact .fault _

/-! ## Functions of a payload -/

private theorem Indistinct.ofEither {first second : Run (Either Value Value Value)}
    (alike : Alike world (fun after p p' =>
      KindredSides after.store p p' ∧ Stays world.store after.store) first second) :
    Indistinct world (do return .either (← first)) (do return .either (← second)) :=
  alike.bind fun _ _ _ ⟨sides, stays⟩ => .pure ⟨kindred_either_iff.mpr sides, stays⟩

section Functions

variable {f g : Value} (function : CannotTell call f g)

include function

private theorem indistinct_getOrCall (subject : KindredSides world.store e e') :
    Indistinct world (e.getOrCall (call f [])) (e'.getOrCall (call g [])) := by
  cases subject with
  | left => exact function world [] [] .nil
  | right _ _ payload => exact .pure payload

private theorem indistinct_leftOrCall (subject : KindredSides world.store e e') :
    Indistinct world (e.leftOrCall (call f [])) (e'.leftOrCall (call g [])) := by
  cases subject with
  | left _ _ payload => exact .pure payload
  | right => exact function world [] [] .nil

private theorem alike_sides_map (subject : KindredSides world.store e e') :
    Alike world (fun after p p' => KindredSides after.store p p' ∧ Stays world.store after.store)
      (e.map fun x => call f [x]) (e'.map fun x => call g [x]) := by
  cases subject with
  | left _ _ payload => exact .pure ⟨.left _ _ payload, .refl _⟩
  | right _ _ payload =>
      exact (function.one payload).bind fun _ _ _ ⟨kindred, stays⟩ =>
        .pure ⟨.right _ _ kindred, stays⟩

private theorem alike_mapRight (subject : KindredSides world.store e e') :
    Alike world (fun after p p' => KindredSides after.store p p' ∧ Stays world.store after.store)
      (e.mapRight fun x => call f [x]) (e'.mapRight fun x => call g [x]) := by
  cases subject with
  | left _ _ payload => exact .pure ⟨.left _ _ payload, .refl _⟩
  | right _ _ payload =>
      exact (function.one payload).bind fun _ _ _ ⟨kindred, stays⟩ =>
        .pure ⟨.right _ _ kindred, stays⟩

private theorem alike_mapLeft (subject : KindredSides world.store e e') :
    Alike world (fun after p p' => KindredSides after.store p p' ∧ Stays world.store after.store)
      (e.mapLeft fun x => call f [x]) (e'.mapLeft fun x => call g [x]) := by
  cases subject with
  | left _ _ payload =>
      exact (function.one payload).bind fun _ _ _ ⟨kindred, stays⟩ =>
        .pure ⟨.left _ _ kindred, stays⟩
  | right _ _ payload => exact .pure ⟨.right _ _ payload, .refl _⟩

private theorem indistinct_sides_andThen (subject : KindredSides world.store e e') :
    Indistinct world
      (e.andThen (fun x => call f [x]) fun error kind => .either (.left error kind))
      (e'.andThen (fun x => call g [x]) fun error kind => .either (.left error kind)) := by
  cases subject with
  | left _ _ payload => exact .pure (kindred_either_iff.mpr (.left _ _ payload))
  | right _ _ payload => exact function.one payload

private theorem alike_ifLeft (subject : KindredSides world.store e e') :
    Alike world (fun after _ _ => Stays world.store after.store) (e.ifLeft (effect call f))
      (e'.ifLeft (effect call g)) := by
  cases subject with
  | left _ _ payload => exact function.effect payload
  | right => exact .pure (.refl _)

/-- What is done with a side by calling a function. -/
theorem indistinct_either_calling (subject : KindredSides world.store e e') :
    ∀ operation ∈ EitherOperation.callers,
      Indistinct world (performEither call operation [.either e, f])
        (performEither call operation [.either e', g]) := by
  intro operation member
  cases operation with
  | mapRightFree =>
      simp only [performEither, sidesOf, pure_bind]
      exact .ofEither (alike_mapRight function subject)
  | mapLeftFree =>
      simp only [performEither, sidesOf, pure_bind]
      exact .ofEither (alike_mapLeft function subject)
  | getOrCall =>
      simp only [performEither, eitherOf, pure_bind]
      exact indistinct_getOrCall function subject
  | leftOrCall =>
      simp only [performEither, eitherOf, pure_bind]
      exact indistinct_leftOrCall function subject
  | map =>
      simp only [performEither, eitherOf, pure_bind]
      exact .ofEither (alike_sides_map function subject)
  | flatMap =>
      simp only [performEither, eitherOf, pure_bind]
      exact indistinct_sides_andThen function subject
  | mapLeft =>
      simp only [performEither, eitherOf, pure_bind]
      exact .ofEither (alike_mapLeft function subject)
  | ifRight =>
      simp only [performEither, eitherOf, pure_bind]
      exact (alike_ifRight function subject).bind fun _ _ _ stays =>
        .pure ⟨Kindred.refl _, stays⟩
  | ifLeft =>
      simp only [performEither, eitherOf, pure_bind]
      exact (alike_ifLeft function subject).bind fun _ _ _ stays => .pure ⟨Kindred.refl _, stays⟩
  | _ => exact absurd member (by decide)

end Functions

/-- What is done with a side by calling one function or the other. -/
theorem indistinct_either_folding (subject : KindredSides world.store e e') {f f' g g' : Value}
    (onLeft : CannotTell call f f') (onRight : CannotTell call g g') :
    ∀ operation ∈ EitherOperation.folders,
      Indistinct world (performEither call operation [.either e, f, g])
        (performEither call operation [.either e', f', g']) := by
  have folded : Indistinct world (e.fold (fun x => call f [x]) fun x => call g [x])
      (e'.fold (fun x => call f' [x]) fun x => call g' [x]) := by
    cases subject with
    | left _ _ payload => exact onLeft.one payload
    | right _ _ payload => exact onRight.one payload
  intro operation member
  cases operation with
  | fold =>
      simp only [performEither, eitherOf, pure_bind]
      exact folded
  | foldFree =>
      simp only [performEither, foldFree, sidesOf, pure_bind]
      exact folded
  | _ => exact absurd member (by decide)

end Presence.Session
