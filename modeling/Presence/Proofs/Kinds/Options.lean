import Presence.Proofs.Kinds.Members

/-!
Contract: which operations on options see the kinds of what is absent.

Owns: the operations that give a zero or the kind itself (`OptionOperation.tellers`) and those that
call a function (`OptionOperation.callers`); that all others cannot tell kindred options apart
(`indistinct_option`), nor can those that call a function unless the function can
(`indistinct_option_calling`).

Does not own: the operations themselves (`Presence.Session.Options`).
-/

namespace Presence.Session

open Attempt Run Value

variable {call : Caller} {world : World} {o o' : Optional Value Value}

/-- The operations that give a zero value, or the kind that chooses it. -/
def OptionOperation.tellers : List OptionOperation := [.get, .orZero, .kind]

/-- The operations that call a function of a payload. -/
def OptionOperation.callers : List OptionOperation :=
  [.mapFree, .orCall, .map, .convert, .flatMap, .keepOkIf, .toNotOkIf, .call]

/-- What is asked of an option, with whatever arguments, without calling a function. -/
theorem indistinct_option (subject : KindredOptions world.store o o')
    {arguments arguments' : List Value}
    (related : List.Forall₂ (Kindred world.store) arguments arguments') :
    ∀ operation ∉ OptionOperation.lift :: OptionOperation.tellers ++ OptionOperation.callers,
      Indistinct world (performOption call operation (.option o :: arguments))
        (performOption call operation (.option o' :: arguments')) := by
  have kindred := subject.kindred
  have asked : ∀ operation ∈ [OptionOperation.encode, .encodeCompact, .isZero, .unlessZero],
      Indistinct world (performOption call operation [.option o])
        (performOption call operation [.option o']) := indistinct_option_one kindred
  intro operation asks
  cases operation with
  | lift | get | orZero | kind | mapFree | orCall | map | convert | flatMap | keepOkIf | toNotOkIf
  | call => exact absurd (by decide) asks
  | encode | encodeCompact | isZero | unlessZero =>
      cases related with
      | nil => exact asked _ (by decide)
      | cons => exact .fault _
  | zeroOf =>
      cases related with
      | cons => exact .fault _
      | nil =>
          have opens (o : Optional Value Value) : performOption call .zeroOf [.option o] =
              Attempt.ofHash (do
                (Value.option o).requireHash
                return .null) := rfl
          rw [opens, opens, kindred.requireHash_eq]
          exact .refl rfl
  | make =>
      cases related with
      | nil => exact .pure (kindred_option_iff.mpr (.ok kindred))
      | cons => exact .fault _
  | guarded =>
      cases related with
      | nil => exact .fault _
      | cons condition rest =>
          cases rest with
          | cons => exact .fault _
          | nil =>
              refine (calm_truth condition).indistinct fun a b same => ?_
              rw [same]
              refine .pure (kindred_option_iff.mpr ?_)
              cases b with
              | true => exact .ok kindred
              | false => exact .notOk _ _
  | notOk =>
      cases related with
      | nil => exact .pure (kindred_option_iff.mpr (.notOk _ _))
      | cons => exact .fault _
  | ofNullable =>
      cases related with
      | nil => exact .pure (kindred_option_iff.mpr (.ok kindred))
      | cons kind rest =>
          cases rest with
          | nil => exact .pure (kindred_option_iff.mpr (.ok kindred))
          | cons => exact .fault _
  | lookup =>
      cases related with
      | nil => exact .fault _
      | cons key rest =>
          cases rest with
          | nil => cases subject <;> exact .fault .wrongType
          | cons kind rest =>
              cases rest with
              | nil => cases subject <;> exact .fault .wrongType
              | cons => exact .fault _
  | environment => exact .fault _
  | toDocument =>
      cases related with
      | nil => exact indistinct_documentOf kindred
      | cons => exact .fault _
  | ofDocument =>
      cases related with
      | nil => cases subject <;> exact .error rfl rfl
      | cons decode rest =>
          cases rest with
          | nil => cases subject <;> exact .error rfl rfl
          | cons kind rest =>
              cases rest with
              | nil => cases subject <;> exact .error rfl rfl
              | cons => exact .fault _
  | isOk =>
      cases related with
      | cons => exact .fault _
      | nil =>
          refine .pure ?_
          rw [subject.isOk_eq]
          exact Kindred.refl _
  | isNone =>
      cases related with
      | cons => exact .fault _
      | nil =>
          refine .pure ?_
          rw [Optional.isNone, Optional.isNone, subject.isOk_eq]
          exact Kindred.refl _
  | mustGet =>
      cases related with
      | nil => exact .lift subject.mustGet
      | cons => exact .fault _
  | orElse =>
      cases related with
      | nil => exact .fault _
      | cons fallback rest =>
          cases rest with
          | nil => exact .pure (subject.orElse fallback)
          | cons => exact .fault _
  | toNullable =>
      cases related with
      | nil => exact .pure (subject.orElse (Kindred.refl .null))
      | cons => exact .fault _

/-! ## Functions of a payload -/

theorem Indistinct.ofOption {first second : Run (Optional Value Value)}
    (alike : Alike world (fun after p p' =>
      KindredOptions after.store p p' ∧ Stays world.store after.store) first second) :
    Indistinct world (do return .option (← first)) (do return .option (← second)) :=
  alike.bind fun _ _ _ ⟨options, stays⟩ => .pure ⟨kindred_option_iff.mpr options, stays⟩

section Functions

variable {f g : Value} (function : CannotTell call f g)

include function

private theorem indistinct_orCall (subject : KindredOptions world.store o o') :
    Indistinct world (o.orCall (call f [])) (o'.orCall (call g [])) := by
  cases subject with
  | ok payload => exact .pure payload
  | notOk => exact function world [] [] .nil

theorem alike_map (subject : KindredOptions world.store o o') (kind kind' : Value) :
    Alike world (fun after p p' => KindredOptions after.store p p' ∧ Stays world.store after.store)
      (o.map (fun x => call f [x]) kind) (o'.map (fun x => call g [x]) kind') := by
  cases subject with
  | ok payload =>
      exact (function.one payload).bind fun _ _ _ ⟨kindred, stays⟩ => .pure ⟨.ok kindred, stays⟩
  | notOk => exact .pure ⟨.notOk _ _, .refl _⟩

private theorem alike_convert (subject : KindredOptions world.store o o') :
    Alike world (fun after p p' => KindredOptions after.store p p' ∧ Stays world.store after.store)
      (o.convert fun x => call f [x]) (o'.convert fun x => call g [x]) := by
  cases subject with
  | ok payload =>
      exact (function.one payload).bind fun _ _ _ ⟨kindred, stays⟩ => .pure ⟨.ok kindred, stays⟩
  | notOk => exact .pure ⟨.notOk _ _, .refl _⟩

private theorem indistinct_andThen (subject : KindredOptions world.store o o')
    {absent absent' : Value} (kindred : Kindred world.store absent absent') :
    Indistinct world (o.andThen (fun x => call f [x]) absent)
      (o'.andThen (fun x => call g [x]) absent') := by
  cases subject with
  | ok payload => exact function.one payload
  | notOk => exact .pure kindred

private theorem alike_keepOkIf (subject : KindredOptions world.store o o') :
    Alike world (fun after p p' => KindredOptions after.store p p' ∧ Stays world.store after.store)
      (o.keepOkIf (test call f)) (o'.keepOkIf (test call g)) := by
  cases subject with
  | notOk => exact .pure ⟨.notOk _ _, .refl _⟩
  | ok payload =>
      refine (function.test payload).bind ?_
      rintro after passes _ ⟨rfl, stays⟩
      cases passes with
      | true => exact .pure ⟨.ok (stays _ _ payload), stays⟩
      | false => exact .pure ⟨.notOk _ _, stays⟩

private theorem alike_toNotOkIf (subject : KindredOptions world.store o o') :
    Alike world (fun after p p' => KindredOptions after.store p p' ∧ Stays world.store after.store)
      (o.toNotOkIf (test call f)) (o'.toNotOkIf (test call g)) := by
  cases subject with
  | notOk => exact .pure ⟨.notOk _ _, .refl _⟩
  | ok payload =>
      refine (function.test payload).bind ?_
      rintro after passes _ ⟨rfl, stays⟩
      cases passes with
      | true => exact .pure ⟨.notOk _ _, stays⟩
      | false => exact .pure ⟨.ok (stays _ _ payload), stays⟩

/-- What is done with an option by calling a function. -/
theorem indistinct_option_calling (subject : KindredOptions world.store o o') :
    ∀ operation ∈ OptionOperation.callers,
      Indistinct world (performOption call operation [.option o, f])
        (performOption call operation [.option o', g]) := by
  intro operation member
  cases operation with
  | mapFree =>
      simp only [performOption, mapFree]
      exact .ofOption (alike_map function subject _ _)
  | map =>
      simp only [performOption, optionOf, pure_bind]
      exact .ofOption (alike_map function subject _ _)
  | orCall =>
      simp only [performOption, optionOf, pure_bind]
      exact indistinct_orCall function subject
  | convert =>
      simp only [performOption, optionOf, pure_bind]
      exact .ofOption (alike_convert function subject)
  | flatMap =>
      simp only [performOption, optionOf, pure_bind]
      exact indistinct_andThen function subject (Kindred.refl _)
  | keepOkIf =>
      simp only [performOption, optionOf, pure_bind]
      exact .ofOption (alike_keepOkIf function subject)
  | toNotOkIf =>
      simp only [performOption, optionOf, pure_bind]
      exact .ofOption (alike_toNotOkIf function subject)
  | call =>
      simp only [performOption, optionOf, pure_bind]
      exact (alike_call function subject).bind fun _ _ _ stays => .pure ⟨Kindred.refl _, stays⟩
  | _ => exact absurd member (by decide)

/-- A function of a payload that leaves a kind for its absence, which may be any. -/
theorem indistinct_option_mapping (subject : KindredOptions world.store o o')
    (kind kind' : Value) :
    ∀ operation ∈ [OptionOperation.map, .mapFree],
      Indistinct world (performOption call operation [.option o, f, kind])
        (performOption call operation [.option o', g, kind']) := by
  intro operation member
  cases operation with
  | mapFree =>
      simp only [performOption, mapFree]
      exact .ofOption (alike_map function subject _ _)
  | map =>
      simp only [performOption, optionOf, pure_bind]
      exact .ofOption (alike_map function subject _ _)
  | _ => exact absurd member (by decide)

end Functions

end Presence.Session
