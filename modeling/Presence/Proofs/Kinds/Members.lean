import Presence.Proofs.Kinds.Indistinct
import Presence.Session.Dependencies

/-!
Contract: what is asked of kindred payloads by name alone.

Owns: what options and sides give of their payloads; functions of a payload that see no kinds
(`CannotTell.one`, `CannotTell.test`, `CannotTell.effect`); the forms of kindred values that can be
asked by name (`kindredMembers`), and that holders pass on what is asked of them alike
(`indistinct_managed`, `indistinct_managed_calling`).

Does not own: the operations on options and sides (`Presence.Proofs.Kinds.Options`,
`Presence.Proofs.Kinds.Sides`).

A holder may stand around a holder, so that the forms are found by going down to what is asked in
the end: an option, a side, or a value that refuses.
-/

namespace Presence.Session

open Attempt Run Value

variable {call : Caller} {world : World} {store : Store}

/-! ## Payloads of options -/

namespace KindredOptions

variable {o o' : Optional Value Value}

theorem kindred (subject : KindredOptions store o o') :
    Kindred store (.option o) (.option o') := kindred_option_iff.mpr subject

theorem isOk_eq (subject : KindredOptions store o o') : o.isOk = o'.isOk := by
  cases subject <;> rfl

theorem mustGet (subject : KindredOptions store o o') :
    Agree (Kindred store) o.mustGet o'.mustGet := by
  cases subject with
  | ok payload => exact .ok payload
  | notOk => exact .error _

theorem orElse (subject : KindredOptions store o o') {fallback fallback' : Value}
    (kindred : Kindred store fallback fallback') :
    Kindred store (o.orElse fallback) (o'.orElse fallback') := by
  cases subject with
  | ok payload => exact payload
  | notOk => exact kindred

end KindredOptions

/-! ## Payloads of sides -/

namespace KindredSides

variable {e e' : Either Value Value Value}

theorem kindred (subject : KindredSides store e e') :
    Kindred store (.either e) (.either e') := kindred_either_iff.mpr subject

theorem isLeft_eq (subject : KindredSides store e e') : e.isLeft = e'.isLeft := by
  cases subject <;> rfl

theorem mustGet (subject : KindredSides store e e') :
    Agree (Kindred store) e.mustGet e'.mustGet := by
  cases subject with
  | left => exact .error _
  | right _ _ payload => exact .ok payload

theorem mustGetLeft (subject : KindredSides store e e') :
    Agree (Kindred store) e.mustGetLeft e'.mustGetLeft := by
  cases subject with
  | left _ _ payload => exact .ok payload
  | right => exact .error _

theorem getOrElse (subject : KindredSides store e e') {fallback fallback' : Value}
    (kindred : Kindred store fallback fallback') :
    Kindred store (e.getOrElse fallback) (e'.getOrElse fallback') := by
  cases subject with
  | left => exact kindred
  | right _ _ payload => exact payload

theorem leftOrElse (subject : KindredSides store e e') {fallback fallback' : Value}
    (kindred : Kindred store fallback fallback') :
    Kindred store (e.leftOrElse fallback) (e'.leftOrElse fallback') := by
  cases subject with
  | left _ _ payload => exact payload
  | right => exact kindred

theorem toOption (subject : KindredSides store e e') :
    KindredOptions store e.toOption e'.toOption := by
  cases subject with
  | left => exact .notOk _ _
  | right _ _ payload => exact .ok payload

end KindredSides

/-! ## Functions of a payload -/

section Functions

variable {f g : Value} (function : CannotTell call f g)

include function

/-- A function that cannot tell kindred values apart, of one argument. -/
theorem CannotTell.one {v w : Value} (kindred : Kindred world.store v w) :
    Indistinct world (call f [v]) (call g [w]) :=
  function world [v] [w] (.cons kindred .nil)

theorem CannotTell.test {v w : Value} (kindred : Kindred world.store v w) :
    Alike world (fun after passes passes' => passes = passes' ∧ Stays world.store after.store)
      (test call f v) (test call g w) := by
  refine (function.one kindred).bind ?_
  rintro after answer answer' ⟨kindred, stays⟩
  refine (calm_truth kindred).mono ?_
  rintro _ passes passes' ⟨rfl, same⟩
  exact ⟨same, stays⟩

theorem CannotTell.effect {v w : Value} (kindred : Kindred world.store v w) :
    Alike world (fun after _ _ => Stays world.store after.store) (effect call f v)
      (effect call g w) :=
  (function.one kindred).bind fun _ _ _ ⟨_, stays⟩ => .pure stays

theorem alike_call {o o' : Optional Value Value} (subject : KindredOptions world.store o o') :
    Alike world (fun after _ _ => Stays world.store after.store) (o.call (effect call f))
      (o'.call (effect call g)) := by
  cases subject with
  | ok payload => exact function.effect payload
  | notOk => exact .pure (.refl _)

theorem alike_ifRight {e e' : Either Value Value Value}
    (subject : KindredSides world.store e e') :
    Alike world (fun after _ _ => Stays world.store after.store) (e.ifRight (effect call f))
      (e'.ifRight (effect call g)) := by
  cases subject with
  | left => exact .pure (.refl _)
  | right _ _ payload => exact function.effect payload

end Functions

/-! ## The forms of kindred values -/

/-- A value that refuses what options and holders have with one fault, and what all with a payload
have with another. -/
structure Refuses (v : Value) (ofOptions ofPayloads : Fault) : Prop where
  isOk : Members.isOk v = fail ofOptions
  mustGet : Members.mustGet v = fail ofPayloads
  orElse : ∀ fallback, Members.orElse fallback v = fail ofOptions
  call : ∀ f, Members.call f v = fail ofPayloads

/-- The forms of kindred values that are asked by name. -/
inductive KindredMembers (store : Store) : Value → Value → Prop where
  | option {o o' : Optional Value Value} (subject : KindredOptions store o o') :
      KindredMembers store (.option o) (.option o')
  | either {e e' : Either Value Value Value} (subject : KindredSides store e e') :
      KindredMembers store (.either e) (.either e')
  | managed (holder : Holder) {basic basic' : Value}
      (inside : KindredMembers store basic basic') :
      KindredMembers store (.managed ⟨holder, basic⟩) (.managed ⟨holder, basic'⟩)
  | refused {v w : Value} {ofOptions ofPayloads : Fault}
      (refuses : Refuses v ofOptions ofPayloads) (refuses' : Refuses w ofOptions ofPayloads) :
      KindredMembers store v w

private theorem exists_refuses_scalar (s : Scalar) :
    ∃ ofOptions ofPayloads, Refuses (.scalar s) ofOptions ofPayloads := by
  cases s with
  | handle h =>
      obtain ⟨sort, number⟩ := h
      cases sort <;> exact ⟨_, _, rfl, rfl, fun _ => rfl, fun _ => rfl⟩
  | _ => exact ⟨_, _, rfl, rfl, fun _ => rfl, fun _ => rfl⟩

/-- Values of kinds without a payload have no such members. -/
private theorem refuses_of_kindOf {v : Value} (noPayload : Members.hasPayload v.kindOf = false)
    (noKind : v.kindOf ≠ .type) : Refuses v .noMember .noMember := by
  cases v using cases_forms with
  | scalar s notKept =>
      cases s with
      | handle h =>
          obtain ⟨sort, number⟩ := h
          cases sort with
          | bareOption | bareEither => cases noPayload
          | _ => exact ⟨rfl, rfl, fun _ => rfl, fun _ => rfl⟩
      | kind => exact absurd rfl noKind
      | _ => exact ⟨rfl, rfl, fun _ => rfl, fun _ => rfl⟩
  | ok | notOk | left | right => cases noPayload
  | managed holder => cases holder <;> cases noPayload
  | _ => exact ⟨rfl, rfl, fun _ => rfl, fun _ => rfl⟩

section Forms

variable {w : Value}

private theorem Kindred.option_form {o : Optional Value Value}
    (kindred : Kindred store (.option o) w) :
    ∃ o', w = .option o' ∧ KindredOptions store o o' := by
  have sameKind := kindred.kindOf_eq
  cases w using cases_forms with
  | scalar s notKept => cases kindred.scalar_eq notKept
  | ok | notOk => exact ⟨_, rfl, kindred_option_iff.mp kindred⟩
  | managed holder => cases o <;> cases holder <;> cases sameKind
  | _ => cases o <;> cases sameKind

private theorem Kindred.either_form {e : Either Value Value Value}
    (kindred : Kindred store (.either e) w) :
    ∃ e', w = .either e' ∧ KindredSides store e e' := by
  have sameKind := kindred.kindOf_eq
  cases w using cases_forms with
  | scalar s notKept => cases kindred.scalar_eq notKept
  | left | right => exact ⟨_, rfl, kindred_either_iff.mp kindred⟩
  | managed holder => cases e <;> cases holder <;> cases sameKind
  | _ => cases e <;> cases sameKind

theorem Kindred.managed_form {holder : Holder} {basic : Value}
    (kindred : Kindred store (.managed ⟨holder, basic⟩) w) :
    ∃ basic', w = .managed ⟨holder, basic'⟩ ∧ Kindred store basic basic' := by
  have sameKind := kindred.kindOf_eq
  cases w using cases_forms with
  | scalar s notKept => cases kindred.scalar_eq notKept
  | managed holder' basic' =>
      cases kindred with
      | managed _ inside => exact ⟨basic', rfl, inside⟩
  | _ => cases holder <;> cases sameKind

/-- What is asked of kindred values by name is asked of values of the same form. -/
theorem kindredMembers : (v : Value) → ∀ {w : Value}, Kindred store v w → KindredMembers store v w
  | .option o, w, kindred => by
      obtain ⟨o', rfl, subject⟩ := kindred.option_form
      exact .option subject
  | .either e, w, kindred => by
      obtain ⟨e', rfl, subject⟩ := kindred.either_form
      exact .either subject
  | .managed ⟨holder, basic⟩, w, kindred => by
      obtain ⟨basic', rfl, inside⟩ := kindred.managed_form
      exact .managed holder (kindredMembers basic inside)
  | .scalar s, w, kindred => by
      by_cases notKept : s.kindOf ≠ .list
      · obtain ⟨ofOptions, ofPayloads, refuses⟩ := exists_refuses_scalar s
        rw [kindred.eq_scalar notKept]
        exact .refused refuses refuses
      -- The handle of a list may be kindred to a list of its own; neither has members.
      · have isList : (Value.scalar s).kindOf = .list := not_not.mp notKept
        have isList' := kindred.kindOf_eq.symm.trans isList
        exact .refused (refuses_of_kindOf (isList ▸ rfl) (isList ▸ nofun))
          (refuses_of_kindOf (isList' ▸ rfl) (isList' ▸ nofun))
  | .list _, w, kindred | .tuple _, w, kindred | .set _, w, kindred | .frozenSet _, w, kindred
  | .dictionary _, w, kindred | .pair _, w, kindred | .sequence _, w, kindred
  | .guarded _, w, kindred | .deferred _, w, kindred | .ternary _, w, kindred
  | .parseError _, w, kindred | .thrown _, w, kindred | .client _, w, kindred => by
      have sameKind := kindred.kindOf_eq
      exact .refused (refuses_of_kindOf rfl nofun)
        (refuses_of_kindOf (sameKind ▸ rfl) (sameKind ▸ nofun))

end Forms

/-! ## What is asked by name -/

namespace KindredMembers

variable {v w : Value}

theorem isOk (members : KindredMembers world.store v w) :
    Calm world (fun a b => a = b) (Members.isOk v) (Members.isOk w) := by
  induction members with
  | option subject => exact .pure ⟨rfl, subject.isOk_eq⟩
  | either subject => exact .error rfl rfl
  | managed holder inside inductionHypothesis => exact inductionHypothesis
  | refused refuses refuses' =>
      rw [refuses.isOk, refuses'.isOk]
      exact .error rfl rfl

theorem mustGet (members : KindredMembers world.store v w) :
    Calm world (Kindred world.store) (Members.mustGet v) (Members.mustGet w) := by
  induction members with
  | option subject => exact .ofExcept subject.mustGet fun _ _ kindred => ⟨rfl, kindred⟩
  | either subject => exact .ofExcept subject.mustGet fun _ _ kindred => ⟨rfl, kindred⟩
  | managed holder inside inductionHypothesis => exact inductionHypothesis
  | refused refuses refuses' =>
      rw [refuses.mustGet, refuses'.mustGet]
      exact .error rfl rfl

private theorem orElse (members : KindredMembers world.store v w) {fallback fallback' : Value}
    (kindred : Kindred world.store fallback fallback') :
    Indistinct world (Members.orElse fallback v) (Members.orElse fallback' w) := by
  induction members with
  | option subject => exact .pure (subject.orElse kindred)
  | either subject => exact .fault _
  | managed holder inside inductionHypothesis => exact inductionHypothesis
  | refused refuses refuses' =>
      rw [refuses.orElse, refuses'.orElse]
      exact .fault _

private theorem called {f g : Value} (function : CannotTell call f g)
    (members : KindredMembers world.store v w) :
    Alike world (fun after _ _ => Stays world.store after.store)
      (Members.call (effect call f) v) (Members.call (effect call g) w) := by
  induction members with
  | option subject => exact alike_call function subject
  | either subject => exact alike_ifRight function subject
  | managed holder inside inductionHypothesis => exact inductionHypothesis
  | refused refuses refuses' =>
      rw [refuses.call, refuses'.call]
      exact .error rfl rfl

end KindredMembers

/-- The documents of kindred values are the same. -/
theorem indistinct_documentOf {v w : Value} (kindred : Kindred world.store v w) :
    Indistinct world (documentOf v) (documentOf w) := by
  have members := kindredMembers v kindred
  have payloads : Calm world (Similar false)
      (do observe (← Members.mustGet v)) (do observe (← Members.mustGet w)) := by
    refine members.mustGet.bind ?_
    rintro _ a b ⟨rfl, payload⟩
    exact calm_observe payload
  have documents (a b : Value) (similar : Similar false a b) : Indistinct world
      (do return .text (String.ofList (← lift (Optional.toDocument (.ok (κ := Value) a)))))
      (do return .text (String.ofList (← lift (Optional.toDocument (.ok (κ := Value) b))))) := by
    rw [Optional.toDocument, Optional.toDocument, Json.write_similar .spaced a similar]
    exact .refl (by cases Json.write .spaced b <;> rfl)
  refine members.isOk.indistinct fun isOk _ same => ?_
  subst same
  cases isOk with
  | false => exact .refl rfl
  | true =>
      rw [if_pos rfl, if_pos rfl]
      simpa only [bind_assoc] using payloads.indistinct documents

/-! ## What holders pass on -/

section Holders

variable {d d' : Managed Value}

theorem Kindred.inside (kindred : Kindred store (.managed d) (.managed d')) :
    KindredMembers store d.basic d'.basic := by
  obtain ⟨holder, basic⟩ := d
  obtain ⟨basic', sameHolders, inside⟩ := kindred.managed_form
  cases sameHolders
  exact kindredMembers basic inside

/-- What is asked of what a holder is made around, without calling a function. -/
theorem indistinct_managed (kindred : Kindred world.store (.managed d) (.managed d'))
    {fallback fallback' : Value} (other : Kindred world.store fallback fallback') :
    Indistinct world (performManaged call .isOk [.managed d])
      (performManaged call .isOk [.managed d']) ∧
    Indistinct world (performManaged call .mustGet [.managed d])
      (performManaged call .mustGet [.managed d']) ∧
    Indistinct world (performManaged call .orElse [.managed d, fallback])
      (performManaged call .orElse [.managed d', fallback']) := by
  refine ⟨?_, ?_, kindred.inside.orElse other⟩
  · refine kindred.inside.isOk.indistinct fun isOk _ same => ?_
    rw [same]
    exact .pure (Kindred.refl _)
  · refine kindred.inside.mustGet.mono ?_
    rintro _ a b ⟨rfl, payload⟩
    exact ⟨payload, .refl _⟩

/-- What is done with what a holder is made around, by calling a function. -/
theorem indistinct_managed_calling (kindred : Kindred world.store (.managed d) (.managed d'))
    {f g : Value} (function : CannotTell call f g) :
    Indistinct world (performManaged call .call [.managed d, f])
      (performManaged call .call [.managed d', g]) :=
  (kindred.inside.called function).bind fun _ _ _ stays => .pure ⟨Kindred.refl _, stays⟩

end Holders

end Presence.Session
