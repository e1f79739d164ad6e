import Presence.Proofs.Lists.Made
import Presence.Proofs.Lists.Payloads
import Presence.Proofs.Managed.Asking
import Presence.Session.Conditions
import Presence.Session.Options
import Presence.Session.Sides

/-!
Contract: operations on payloads in closed worlds.

Owns: `CallerConfines`, ways to call functions that are confined; that wherever functions are called
so, the operations on options, on sides and on conditions are confined, and so is what is asked of a
value by its name alone.

Does not own: operations on containers, and kinds as functions
(`Presence.Proofs.Lists.Containers`).
-/

namespace Presence.Session

open Attempt Run

/-- Functions make what they give of the lists that are kept. -/
def CallerConfines (changed : Nat → Prop) (call : Caller) : Prop :=
  ∀ {base : Nat} {f : Value} {arguments : List Value}, Known base f → AllKnown base arguments →
    Confines changed base (call f arguments) Known

abbrev OptionKnown (size : Nat) (o : Optional Value Value) : Prop := Known size (.option o)

abbrev EitherKnown (size : Nat) (e : Either Value Value Value) : Prop := Known size (.either e)

theorem AllKnown.one {size : Nat} {v : Value} (known : AllKnown size [v]) : Known size v :=
  List.forall_mem_singleton.mp known

theorem AllKnown.two {size : Nat} {v w : Value} (known : AllKnown size [v, w]) :
    Known size v ∧ Known size w := by
  rw [AllKnown, List.forall_mem_cons, List.forall_mem_singleton] at known
  exact known

theorem AllKnown.three {size : Nat} {v w u : Value} (known : AllKnown size [v, w, u]) :
    Known size v ∧ Known size w ∧ Known size u := by
  rw [AllKnown, List.forall_mem_cons, List.forall_mem_cons, List.forall_mem_singleton] at known
  exact known

variable {changed : Nat → Prop} {call : Caller} {base : Nat} {v w f kind : Value}
  {o : Optional Value Value} {e : Either Value Value Value}

/-! ## Functions -/

section Functions

variable (calls : CallerConfines changed call)

include calls

theorem CallerConfines.one (isFunction : Known base f) (known : Known base v) :
    Confines changed base (call f [v]) Known :=
  calls isFunction (List.forall_mem_singleton.mpr known)

theorem CallerConfines.two (isFunction : Known base f) (first : Known base v)
    (second : Known base w) : Confines changed base (call f [v, w]) Known :=
  calls isFunction (List.forall_mem_cons.mpr ⟨first, List.forall_mem_singleton.mpr second⟩)

theorem CallerConfines.nullary (isFunction : Known base f) :
    Confines changed base (call f []) Known :=
  calls isFunction (List.forall_mem_nil _)

theorem confines_test (isFunction : Known base f) (known : Known base v) :
    Confines changed base (test call f v) Whatever :=
  (calls.one isFunction known).bind fun _ _ _ isAnswer => confines_finds.truth isAnswer

theorem confines_effect (isFunction : Known base f) (known : Known base v) :
    Confines changed base (effect call f v) Whatever :=
  (calls.one isFunction known).next fun _ => .done

end Functions

theorem confines_withFlag {result : Except Kind (Value × Bool)}
    (isFine : ∀ v flag, result = .ok (v, flag) → Known base v) :
    Confines changed base (withFlag result) Known := by
  refine Confines.through (fun size (given : Value × Bool) => Known size given.1)
    (.ofHash fun given isGiven _ more => ?_) fun _ _ given isGiven => ?_
  · exact (isFine given.1 given.2 isGiven).later more
  · exact .known (.tuple (List.forall_mem_cons.mpr
      ⟨isGiven, List.forall_mem_singleton.mpr (.plain rfl)⟩))

/-! ## Going on with payloads -/

section Payloads

variable {g : Value → Run Value} {p : Value → Run Bool}

theorem confines_optionMap (isOption : OptionKnown base o) (isKind : Known base kind)
    (each : ∀ v, Known base v → Confines changed base (g v) Known) :
    Confines changed base (o.map g kind) OptionKnown := by
  cases o with
  | ok v =>
      exact (each v isOption.of_ok).bind fun _ _ _ isResult =>
        .pure fun _ more => .ok (isResult.later more)
  | notOk _ => exact .pure fun _ more => .notOk (isKind.later more)

theorem confines_convert (isOption : OptionKnown base o)
    (each : ∀ v, Known base v → Confines changed base (g v) Known) :
    Confines changed base (o.convert g) OptionKnown := by
  cases o with
  | ok v =>
      exact (each v isOption.of_ok).bind fun _ _ _ isResult =>
        .pure fun _ more => .ok (isResult.later more)
  | notOk _ => exact .pure fun _ more => isOption.later more

private theorem confines_keepOkIf (isOption : OptionKnown base o)
    (each : ∀ v, Known base v → Confines changed base (p v) Whatever) :
    Confines changed base (o.keepOkIf p) OptionKnown := by
  cases o with
  | ok v =>
      refine (each v isOption.of_ok).next fun passes => .pure fun _ more => ?_
      cases passes with
      | true => exact isOption.later more
      | false => exact .notOk (.plain rfl)
  | notOk _ => exact .pure fun _ more => isOption.later more

private theorem confines_toNotOkIf (isOption : OptionKnown base o)
    (each : ∀ v, Known base v → Confines changed base (p v) Whatever) :
    Confines changed base (o.toNotOkIf p) OptionKnown := by
  cases o with
  | ok v =>
      refine (each v isOption.of_ok).next fun passes => .pure fun _ more => ?_
      cases passes with
      | true => exact .notOk (.plain rfl)
      | false => exact isOption.later more
  | notOk _ => exact .pure fun _ more => isOption.later more

/-- The function of a payload, or what is left without one. -/
theorem confines_andThen {γ : Type} {well : Nat → γ → Prop} {next : Value → Run γ} {absent : γ}
    (isOption : OptionKnown base o)
    (each : ∀ v, Known base v → Confines changed base (next v) well)
    (without : Confines changed base (pure absent) well) :
    Confines changed base (o.andThen next absent) well := by
  cases o with
  | ok v => exact each v isOption.of_ok
  | notOk _ => exact without

private theorem confines_orCall (isOption : OptionKnown base o) {otherwise : Run Value}
    (without : Confines changed base otherwise Known) :
    Confines changed base (o.orCall otherwise) Known := by
  cases o with
  | ok v => exact .known isOption.of_ok
  | notOk _ => exact without

theorem confines_eitherMap (isEither : EitherKnown base e)
    (each : ∀ v, Known base v → Confines changed base (g v) Known) :
    Confines changed base (e.map g) EitherKnown := by
  cases e with
  | left _ _ => exact .pure fun _ more => isEither.later more
  | right v kind =>
      exact (each v isEither.of_right.1).bind fun _ more _ isResult =>
        .pure fun _ last => .right (isResult.later last)
        (isEither.of_right.2.later (Nat.le_trans more last))

private theorem confines_mapRight (isEither : EitherKnown base e)
    (each : ∀ v, Known base v → Confines changed base (g v) Known) :
    Confines changed base (e.mapRight g) EitherKnown := by
  cases e with
  | left _ _ => exact .pure fun _ more => .left (isEither.of_left.1.later more) (.plain rfl)
  | right v kind =>
      exact (each v isEither.of_right.1).bind fun _ more _ isResult =>
        .pure fun _ last => .right (isResult.later last)
        (isEither.of_right.2.later (Nat.le_trans more last))

private theorem confines_mapLeft (isEither : EitherKnown base e)
    (each : ∀ v, Known base v → Confines changed base (g v) Known) :
    Confines changed base (e.mapLeft g) EitherKnown := by
  cases e with
  | left v kind =>
      exact (each v isEither.of_left.1).bind fun _ more _ isResult =>
        .pure fun _ last => .left (isResult.later last)
        (isEither.of_left.2.later (Nat.le_trans more last))
  | right _ _ => exact .pure fun _ more => .right (isEither.of_right.1.later more) (.plain rfl)

/-- The function of whichever side there is. -/
theorem confines_eitherFold {γ : Type} {well : Nat → γ → Prop} {onLeft onRight : Value → Run γ}
    (isEither : EitherKnown base e)
    (eachLeft : ∀ v, Known base v → Confines changed base (onLeft v) well)
    (eachRight : ∀ v, Known base v → Confines changed base (onRight v) well) :
    Confines changed base (e.fold onLeft onRight) well := by
  cases e with
  | left v _ => exact eachLeft v isEither.of_left.1
  | right v _ => exact eachRight v isEither.of_right.1

/-- A side that goes on with its right payload, or stays on the left. -/
private theorem confines_eitherThen (isEither : EitherKnown base e)
    (each : ∀ v, Known base v → Confines changed base (g v) Known) :
    Confines changed base (e.andThen g fun error kind => .either (.left error kind)) Known := by
  cases e with
  | left _ _ => exact .known isEither
  | right v _ => exact each v isEither.of_right.1

end Payloads

/-! ## Members -/

section Members

theorem confines_isOk (v : Value) : Confines changed base (Members.isOk v) Whatever := by
  fun_induction Members.isOk v with
  | case2 holder basic inductionHypothesis => exact inductionHypothesis
  | case1 => exact .done
  | _ => exact .fail _

theorem confines_get (known : Known base v) : Confines changed base (Members.get v) Known := by
  fun_induction Members.get v with
  | case1 o =>
      exact confines_withFlag fun _ _ given => Optional.holdsOnly_get known given
  | case2 e => exact confines_withFlag fun _ _ given => Either.holdsOnly_get known given
  | case3 holder basic inductionHypothesis => exact inductionHypothesis known.of_managed
  | _ => exact .fail _

theorem confines_mustGet (known : Known base v) :
    Confines changed base (Members.mustGet v) Known := by
  fun_induction Members.mustGet v with
  | case1 o =>
      exact .ofExcept fun _ given _ more => (Optional.holdsOnly_mustGet known given).later more
  | case2 e =>
      exact .ofExcept fun _ given _ more => (Either.holdsOnly_mustGet known given).later more
  | case3 holder basic inductionHypothesis => exact inductionHypothesis known.of_managed
  | _ => exact .fail _

theorem confines_orElse (known : Known base v) (isFallback : Known base w) :
    Confines changed base (Members.orElse w v) Known := by
  fun_induction Members.orElse w v with
  | case1 => exact .known (Optional.holdsOnly_orElse known isFallback)
  | case2 holder basic inductionHypothesis => exact inductionHypothesis known.of_managed
  | _ => exact .fail _

theorem confines_call {run : Value → Run Unit} (known : Known base v)
    (each : ∀ v, Known base v → Confines changed base (run v) Whatever) :
    Confines changed base (Members.call run v) Whatever := by
  fun_induction Members.call run v with
  | case1 o => exact confines_andThen known each .done
  | case2 e => exact confines_eitherFold known (fun _ _ => .done) each
  | case3 holder basic inductionHypothesis => exact inductionHypothesis known.of_managed
  | _ => exact .fail _

theorem confines_closeStream (number : Nat) :
    Confines changed base (closeStream number) Whatever :=
  (confines_streamAt number).next fun _ => confines_setStream number _

mutual

theorem confines_close (v : Value) (known : Known base v) :
    Confines changed base (Members.close v) Whatever := by
  cases v with
  | client c =>
      obtain ⟨number, users, failing⟩ := c
      have isFailing : Known base failing := by
        cases known
        assumption
      have counts : Confines changed base (countClosing number) Whatever :=
        .ofStill fun _ => ⟨rfl, rfl, rfl, rfl⟩
      refine counts.next fun _ => (confines_finds.truth isFailing).next fun fails => ?_
      cases fails with
      | true => exact .fail .closeFailed
      | false => exact .done
  | managed d =>
      obtain ⟨holder, basic⟩ := d
      rw [Members.close]
      split
      · exact confines_closeInside basic known.of_managed
      · exact .fail _
  | scalar s =>
      cases s with
      | kind kind => exact .fail _
      | handle h =>
          obtain ⟨sort, number⟩ := h
          cases sort with
          | stream => exact confines_closeStream number
          | _ => exact .fail _
      | _ => exact .fail _
  | _ => exact .fail _
termination_by structural v

theorem confines_closeInside (basic : Value) (known : Known base basic) :
    Confines changed base (Members.closeInside basic) Whatever := by
  cases basic with
  | option o =>
      cases o with
      | ok v => exact confines_close v known.of_ok
      | notOk _ => exact .done
  | either e =>
      cases e with
      | left _ _ => exact .done
      | right v _ => exact confines_close v known.of_right.1
  | managed d =>
      obtain ⟨_, basic⟩ := d
      exact confines_closeInside basic known.of_managed
  | scalar s =>
      cases s with
      | kind kind => exact .fail _
      | handle h =>
          obtain ⟨sort, number⟩ := h
          cases sort <;> exact .fail _
      | _ => exact .fail _
  | _ => exact .fail _
termination_by structural basic

end

end Members

/-! ## Operations on options -/

private theorem confines_optionOf (known : Known base v) :
    Confines changed base (optionOf v) OptionKnown := by
  unfold optionOf
  split
  · exact .pure fun _ more => known.later more
  · exact .fail _
  · exact .fail _

/-- A computation that gives an option, as one that gives a value. -/
theorem Confines.ofOptional {body : Run (Optional Value Value)}
    (confines : Confines changed base body OptionKnown) :
    Confines changed base (do return .option (← body)) Known :=
  confines.bind fun _ _ _ isOption => .known isOption

theorem Confines.ofSides {body : Run (Either Value Value Value)}
    (confines : Confines changed base body EitherKnown) :
    Confines changed base (do return .either (← body)) Known :=
  confines.bind fun _ _ _ isEither => .known isEither

section Options

variable (calls : CallerConfines changed call)

include calls

private theorem confines_mapOfKind (named : Kind) (known : Known base v)
    (isFunction : Known base f) :
    Confines changed base (mapOfKind call named v f) Known := by
  have applied : ∀ {size : Nat}, base ≤ size → ∀ x, Known size x →
      Confines changed size (call f [x]) Known := fun more x isKnown =>
    calls.one (isFunction.later more) isKnown
  unfold mapOfKind
  split
  · split
    · exact (confines_optionMap known (.plain rfl) (applied (Nat.le_refl _))).ofOptional
    · refine (confines_isOk _).next fun isThere => ?_
      split
      · exact .fail _
      · exact .known (.notOk (.plain rfl))
    · exact .fail _
    · exact .fail _
    · exact .fail _
  · split
    · split
      · exact (confines_eitherMap known (applied (Nat.le_refl _))).ofSides
      · exact .fail _
      · exact .fail _
      · exact .fail _
    · split
      · split
        · refine (confines_finds.feedOf known.of_sequence).bind fun _ more _ next => ?_
          refine (confines_map rises_known next fun size more' x isKnown =>
            applied (Nat.le_trans more more') x isKnown).bind fun _ _ _ areResults => ?_
          exact .known (.ofSequence areResults)
        · exact .fail _
      · exact .fail _

private theorem confines_mapFree (known : Known base v) (isFunction : Known base f)
    (isKind : Known base kind) : Confines changed base (mapFree call v f kind) Known := by
  unfold mapFree
  split
  · exact (confines_optionMap known isKind fun x isKnown => calls.one isFunction isKnown).ofOptional
  · exact .fail _
  · exact .fail _
  · exact .fail _
  · exact .fail _
  · exact confines_mapOfKind calls _ isFunction isKind
  · exact .fail _

private theorem confines_ofDocument {source decode : Value} (isDecode : Known base decode)
    (isKind : Known base kind) :
    Confines changed base (ofDocument call source decode kind) Known := by
  refine Confines.ofOptional (.through Known
    (.ofExcept fun _ loaded _ _ => Json.holdsOnly_of_load loaded) fun _ more loaded isLoaded => ?_)
  refine confines_convert (Optional.holdsOnly_ofNullable isLoaded (isKind.later more))
    fun v isKnown => (confines_keep isKnown).bind fun _ more' kept isKept => ?_
  split
  · exact .known isKept
  · exact calls.one (isDecode.later (Nat.le_trans more more')) isKept

end Options

private theorem confines_documentOf (known : Known base v) :
    Confines changed base (documentOf v) Known := by
  refine (confines_isOk v).next fun isThere => ?_
  split
  · exact (confines_mustGet known).next fun payload => (confines_observe payload).next fun _ =>
      (Confines.ofAny _).next fun _ => .plain rfl
  · exact (Confines.ofAny _).next fun _ => .plain rfl

private theorem confines_lookupIn {key : Value} (known : Known base v) (isKind : Known base kind) :
    Confines changed base (lookupIn v key kind) OptionKnown := by
  unfold lookupIn
  split
  · exact .pure fun _ more => .notOk (isKind.later more)
  · refine (confines_holds known key).next fun isHeld => ?_
    split
    · refine (confines_finds.look known).bind fun _ _ seen isSeen => (confines_observe key).next
        fun place => Confines.through Known (.ofExcept fun item found _ more => ?_)
          fun _ _ _ isItem => .pure fun _ more => .ok (isItem.later more)
      exact (Value.holdsOnly_item isSeen found).later more
    · exact .pure fun _ more => .notOk (isKind.later more)

/-- The operations on options make of the lists that are kept what they make. -/
theorem confines_performOption (calls : CallerConfines changed call) (operation : OptionOperation)
    {arguments : List Value} (known : AllKnown base arguments) :
    Confines changed base (performOption call operation arguments) Known := by
  have applied : ∀ {size : Nat} {f : Value}, Known size f → ∀ x, Known size x →
      Confines changed size (call f [x]) Known := fun isFunction x isKnown =>
    calls.one isFunction isKnown
  unfold performOption
  split
  · exact .ofHash fun _ isZero _ _ => Value.holdsOnly_zeroOf isZero
  · exact (confines_observe _).next fun _ => .plain rfl
  · exact .known (.ok known.one)
  · exact (confines_finds.truth known.two.2).next fun condition =>
      .known (Optional.holdsOnly_guarded known.two.1 condition)
  · exact .known (.notOk (.plain rfl))
  · exact .known (.notOk known.one)
  · exact .known (Optional.holdsOnly_ofNullable known.one (.plain rfl))
  · exact .known (Optional.holdsOnly_ofNullable known.two.1 known.two.2)
  · exact (confines_observe _).next fun _ => .known (Optional.holdsOnly_guarded known.one _)
  · exact confines_mapFree calls known.two.1 known.two.2 (.plain rfl)
  · exact confines_mapFree calls known.three.1 known.three.2.1 known.three.2.2
  · exact confines_newFunction (.lifted _) known.one
  · exact (confines_lookupIn known.two.1 (.plain rfl)).ofOptional
  · exact (confines_lookupIn known.three.1 known.three.2.2).ofOptional
  · exact confines_world.next fun _ => .known (Optional.holdsOnly_guarded (.plain rfl) _)
  · exact confines_documentOf known.one
  · exact confines_ofDocument calls (.plain rfl) (.plain rfl)
  · exact confines_ofDocument calls known.two.2 (.plain rfl)
  · exact confines_ofDocument calls known.three.2.1 known.three.2.2
  · exact (confines_observe _).next fun _ => (Confines.ofAny _).next fun _ => .plain rfl
  · exact (confines_observe _).next fun _ => (Confines.ofAny _).next fun _ => .plain rfl
  · exact (confines_optionOf known.one).next fun _ => .plain rfl
  · exact (confines_optionOf known.one).next fun _ => .plain rfl
  · exact (confines_optionOf known.one).bind fun _ _ _ isOption =>
      confines_withFlag fun _ _ given => Optional.holdsOnly_get isOption given
  · exact (confines_optionOf known.one).bind fun _ _ _ isOption =>
      .ofExcept fun _ given _ more => (Optional.holdsOnly_mustGet isOption given).later more
  · exact (confines_optionOf known.two.1).bind fun _ more _ isOption =>
      .known (Optional.holdsOnly_orElse isOption (known.two.2.later more))
  · refine (confines_optionOf known.one).bind fun _ _ o isOption => .ofHash fun v given _ more => ?_
    obtain ⟨⟨payload, flag⟩, isGiven, given⟩ := Value.bind_eq_ok given
    cases given
    exact (Optional.holdsOnly_get isOption isGiven).later more
  · exact (confines_optionOf known.two.1).bind fun _ more _ isOption =>
      confines_orCall isOption (calls.nullary (known.two.2.later more))
  · exact (confines_optionOf known.one).bind fun _ _ _ isOption =>
      .known (Optional.holdsOnly_orElse isOption (.plain rfl))
  · exact (confines_optionOf known.two.1).bind fun _ more _ isOption =>
      (confines_optionMap isOption (.plain rfl) (applied (known.two.2.later more))).ofOptional
  · exact (confines_optionOf known.three.1).bind fun _ more _ isOption =>
      (confines_optionMap isOption (known.three.2.2.later more)
        (applied (known.three.2.1.later more))).ofOptional
  · exact (confines_optionOf known.two.1).bind fun _ more _ isOption =>
      (confines_convert isOption (applied (known.two.2.later more))).ofOptional
  · exact (confines_optionOf known.two.1).bind fun _ more _ isOption =>
      confines_andThen isOption (applied (known.two.2.later more)) (.known (.notOk (.plain rfl)))
  · exact (confines_optionOf known.two.1).bind fun _ more _ isOption =>
      (confines_keepOkIf isOption fun _ isKnown =>
        confines_test calls (known.two.2.later more) isKnown).ofOptional
  · exact (confines_optionOf known.two.1).bind fun _ more _ isOption =>
      (confines_toNotOkIf isOption fun _ isKnown =>
        confines_test calls (known.two.2.later more) isKnown).ofOptional
  · exact (confines_optionOf known.two.1).bind fun _ more _ isOption =>
      (confines_andThen isOption (fun _ isKnown =>
        confines_effect calls (known.two.2.later more) isKnown) .done).next fun _ => .plain rfl
  · exact .fail _
  · exact (confines_optionOf known.one).bind fun _ _ _ isOption =>
      .known (Optional.holdsOnly_kind isOption)
  · exact .fail _

/-! ## Operations on sides -/

private theorem confines_eitherOf (known : Known base v) :
    Confines changed base (eitherOf v) EitherKnown := by
  unfold eitherOf
  split
  · exact .pure fun _ more => known.later more
  · exact .fail _
  · exact .fail _

theorem confines_sidesOf (known : Known base v) :
    Confines changed base (sidesOf v) EitherKnown := by
  unfold sidesOf
  split
  · exact .pure fun _ more => known.later more
  · exact .fail _
  · exact .fail _
  · exact .fail _

private theorem confines_foldFree (calls : CallerConfines changed call) {onLeft onRight : Value}
    (known : Known base v) (isLeft : Known base onLeft) (isRight : Known base onRight) :
    Confines changed base (foldFree call v onLeft onRight) Known := by
  unfold foldFree
  split
  · refine (confines_finds.feedOf known.of_sequence).bind fun _ more _ next => ?_
    exact confines_finds.fold rises_known next (fun _ more' _ _ isSofar isItem =>
      calls.two (isRight.later (Nat.le_trans more more')) isSofar isItem) (isLeft.later more)
  · exact .fail _
  · exact (confines_sidesOf known).bind fun _ more _ isEither => confines_eitherFold isEither
      (fun _ isKnown => calls.one (isLeft.later more) isKnown)
      fun _ isKnown => calls.one (isRight.later more) isKnown

/-- The operations on sides make of the lists that are kept what they make. -/
theorem confines_performEither (calls : CallerConfines changed call) (operation : EitherOperation)
    {arguments : List Value} (known : AllKnown base arguments) :
    Confines changed base (performEither call operation arguments) Known := by
  have applied : ∀ {size : Nat} {f : Value}, Known size f → ∀ x, Known size x →
      Confines changed size (call f [x]) Known := fun isFunction x isKnown =>
    calls.one isFunction isKnown
  unfold performEither
  split
  · exact .known (.left known.one (.plain rfl))
  · exact .known (.left known.two.1 known.two.2)
  · exact .known (.right known.one (.plain rfl))
  · exact .known (.right known.two.1 known.two.2)
  · exact confines_foldFree calls known.three.1 known.three.2.1 known.three.2.2
  · exact (confines_sidesOf known.two.1).bind fun _ more _ isEither =>
      (confines_mapRight isEither (applied (known.two.2.later more))).ofSides
  · exact (confines_sidesOf known.two.1).bind fun _ more _ isEither =>
      (confines_mapLeft isEither (applied (known.two.2.later more))).ofSides
  · exact (confines_eitherOf known.one).next fun _ => .plain rfl
  · exact (confines_eitherOf known.one).next fun _ => .plain rfl
  · exact (confines_eitherOf known.one).bind fun _ _ _ isEither =>
      confines_withFlag fun _ _ given => Either.holdsOnly_get isEither given
  · exact (confines_eitherOf known.one).bind fun _ _ _ isEither =>
      confines_withFlag fun _ _ given => Either.holdsOnly_getLeft isEither given
  · exact (confines_eitherOf known.two.1).bind fun _ more _ isEither =>
      .known (Either.holdsOnly_getOrElse isEither (known.two.2.later more))
  · exact (confines_eitherOf known.two.1).bind fun _ more _ isEither =>
      .known (Either.holdsOnly_leftOrElse isEither (known.two.2.later more))
  · refine (confines_eitherOf known.two.1).bind fun _ more e isEither => ?_
    cases e with
    | left _ _ => exact calls.nullary (known.two.2.later more)
    | right _ _ => exact .known isEither.of_right.1
  · refine (confines_eitherOf known.two.1).bind fun _ more e isEither => ?_
    cases e with
    | left _ _ => exact .known isEither.of_left.1
    | right _ _ => exact calls.nullary (known.two.2.later more)
  · exact (confines_eitherOf known.one).bind fun _ _ _ isEither =>
      .ofExcept fun _ given _ more => (Either.holdsOnly_mustGet isEither given).later more
  · exact (confines_eitherOf known.one).bind fun _ _ _ isEither =>
      .ofExcept fun _ given _ more => (Either.holdsOnly_mustGetLeft isEither given).later more
  · exact (confines_eitherOf known.two.1).bind fun _ more _ isEither =>
      (confines_eitherMap isEither (applied (known.two.2.later more))).ofSides
  · exact (confines_eitherOf known.two.1).bind fun _ more _ isEither =>
      confines_eitherThen isEither (applied (known.two.2.later more))
  · exact (confines_eitherOf known.two.1).bind fun _ more _ isEither =>
      (confines_mapLeft isEither (applied (known.two.2.later more))).ofSides
  · exact (confines_eitherOf known.three.1).bind fun _ more _ isEither =>
      confines_eitherFold isEither (applied (known.three.2.1.later more))
        (applied (known.three.2.2.later more))
  · exact (confines_eitherOf known.two.1).bind fun _ more _ isEither =>
      (confines_eitherFold isEither (fun _ _ => .done) fun _ isKnown =>
        confines_effect calls (known.two.2.later more) isKnown).next fun _ => .plain rfl
  · exact (confines_eitherOf known.two.1).bind fun _ more _ isEither =>
      (confines_eitherFold isEither (fun _ isKnown =>
        confines_effect calls (known.two.2.later more) isKnown) fun _ _ => .done).next
          fun _ => .plain rfl
  · exact (confines_eitherOf known.one).bind fun _ _ _ isEither =>
      .known (Either.holdsOnly_toOption isEither)
  · exact .fail _

/-! ## Operations on conditions -/

theorem confines_requireNothing (error : Value) :
    Confines changed base (requireNothing error) Whatever :=
  confines_newNumber.next fun _ => (confines_observe error).next fun _ => .ofAny _

theorem confines_demand (calls : CallerConfines changed call) (isFunction : Known base f)
    {arguments : List Value} (known : AllKnown base arguments) :
    Confines changed base (demand call f arguments) Known := by
  unfold demand
  split
  · refine (calls.one isFunction known.one).bind fun _ _ outcome isOutcome => ?_
    refine (confines_partsUpTo 3 isOutcome).bind fun _ _ parts areParts => ?_
    refine Confines.through (fun size (given : Value × Value) => Known size given.1)
      (.ofExcept fun given isGiven _ more => ?_) fun _ _ given isResult => ?_
    · unfold Must.resultOf at isGiven
      split at isGiven
      · cases isGiven
      · cases isGiven
      · cases isGiven
        exact areParts.two.1.later more
      · cases isGiven
    · exact (confines_requireNothing given.2).next fun _ => .known isResult
  · exact .fail _

/-- The branches of a condition hold what the condition holds with them. -/
theorem ternary_parts {size : Nat} {t : Ternary Value Value Value}
    (known : Known size (.ternary t)) : Known size t.condition ∧ Known size t.thenValue ∧
      ∀ f, t.thenCall = some f → Known size f := by
  cases known with
  | ternary condition payload => exact ⟨condition, payload, nofun⟩
  | ternaryCall condition payload call =>
      refine ⟨condition, payload, fun f isCall => ?_⟩
      cases isCall
      exact call

private theorem confines_branch (calls : CallerConfines changed call)
    {t : Ternary Value Value Value}
    (known : Known base (.ternary t)) (condition : Bool) {otherwise : Run Value}
    (without : Confines changed base otherwise Known) :
    Confines changed base
      (if condition then (t.decided condition).holds fun f => call f [] else otherwise) Known := by
  obtain ⟨_, isValue, isCall⟩ := ternary_parts known
  split
  · unfold Ternary.holds
    split
    · exact .known isValue
    · next f there => exact calls.nullary (isCall f there)
  · exact without

/-- The operations on conditions make of the lists that are kept what they make. -/
theorem confines_performCondition (calls : CallerConfines changed call)
    (operation : ConditionOperation) {arguments : List Value} (known : AllKnown base arguments) :
    Confines changed base (performCondition call operation arguments) Known := by
  unfold performCondition
  dsimp only
  split
  · exact .known (.guarded known.one)
  · have isPayload := known.two.1
    exact (confines_finds.truth known.two.2).next fun condition =>
      .known (Optional.holdsOnly_guarded (by cases isPayload; assumption) condition)
  · exact .known (.deferred known.one)
  · have isRun := known.two.1
    refine (confines_finds.truth known.two.2).next fun condition => Confines.ofOptional ?_
    cases condition with
    | true =>
        refine (calls.nullary (by cases isRun; assumption)).bind fun _ _ _ isResult => ?_
        exact .pure fun _ more => .ok (isResult.later more)
    | false => exact .pure fun _ _ => .notOk (.plain rfl)
  · exact (confines_finds.truth known.one).next fun _ => .known (.ternary (.plain rfl) (.plain rfl))
  · exact .known (.ternary (ternary_parts known.two.1).1 known.two.2)
  · exact .known (.ternary (ternary_parts known.two.1).1 (.plain rfl))
  · exact .known (.ternaryCall (ternary_parts known.two.1).1 (.plain rfl) known.two.2)
  · exact (confines_finds.truth (ternary_parts known.two.1).1).next fun condition =>
      confines_branch calls known.two.1 condition (.known known.two.2)
  · exact (confines_finds.truth (ternary_parts known.two.1).1).next fun condition =>
      confines_branch calls known.two.1 condition (calls.nullary known.two.2)
  · exact (confines_requireNothing _).next fun _ => .plain rfl
  · exact (confines_requireNothing _).next fun _ => .known known.two.1
  · exact (confines_requireNothing _).next fun _ => .known (.tuple (List.forall_mem_cons.mpr
      ⟨known.three.1, List.forall_mem_singleton.mpr known.three.2.1⟩))
  · exact confines_newFunction (.demanding _) known.one
  · exact confines_world.next fun _ => (Confines.ofAny _).next fun _ => .plain rfl
  all_goals exact .fail _

end Presence.Session
