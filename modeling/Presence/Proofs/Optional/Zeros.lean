import Presence.Proofs.Kinds.Kindred
import Presence.Proofs.Optional.KindKept
import Presence.Proofs.Value.Equivalence
import Presence.Session.Machine

/-!
Contract: which values count as zeros.

Owns: `kindsWithZero`; `Value.IsVacant`, nothing and what counts as false among the values of these
kinds; that a value of such a kind equals the zero of its kind iff it counts as false
(`Value.beq_zero`); that the vacant values are those that are dropped as zeros, leave an equal zero
behind, and open no dependency, in a session as well (`zeros_are_vacant`).

Does not own: the zeros themselves (`Presence.Zero`), and what is done with a dependency once it is
open (`Presence.Proofs.Managed.Lifecycle`).

A value is compared with a zero that is made for its kind, while those who ask think of what counts
as false. On the kinds with a zero the two come to the same. A value of another kind may count as
false, such as a sequence without items, but is no zero.
-/

namespace Presence

open Attempt

/-! ## Zeros and truth -/

/-- The kinds that have a zero. -/
def kindsWithZero : List Kind :=
  [.int, .float, .complex, .text, .bytes, .bool, .list, .dictionary, .tuple, .set, .frozenSet]

theorem mem_kindsWithZero_iff (kind : Kind) :
    kind ∈ kindsWithZero ↔ ∃ zero, zeroOf? kind = some zero := by
  cases kind <;> simp [kindsWithZero, zeroOf?]

namespace Scalar

/-- A scalar equals the zero of its kind iff it counts as false. Both zeros of a binary64 number do,
and what is not a number does not. -/
private theorem same_zero {s : Scalar} (notKept : s.kindOf ≠ .list) {zero : Value}
    (hasZero : zeroOf? s.kindOf = some zero) :
    ∃ nought, zero = .scalar nought ∧ s.same nought = !s.truthy := by
  cases s with
  | bool b =>
      cases hasZero
      refine ⟨_, rfl, ?_⟩
      cases b <;> rfl
  | int n =>
      cases hasZero
      refine ⟨_, rfl, ?_⟩
      have sameNumber : ((n : Rat) == (0 : Int)) = (n == 0) := by simp
      show (((n : Rat) == (0 : Int)) && true) = !(n != 0)
      rw [sameNumber, Bool.and_true, bne, Bool.not_not]
  | float x =>
      cases hasZero
      refine ⟨_, rfl, ?_⟩
      show (x.isZero && true) = !!x.isZero
      rw [Bool.and_true, Bool.not_not]
  | complex re im =>
      cases hasZero
      refine ⟨_, rfl, ?_⟩
      show (re.isZero && im.isZero) = !!(re.isZero && im.isZero)
      rw [Bool.not_not]
  | text written =>
      cases hasZero
      refine ⟨_, rfl, ?_⟩
      show (Scalar.text written == .text "") = !!written.isEmpty
      rw [Bool.not_not, Bool.eq_iff_iff, beq_iff_eq, String.isEmpty_iff, Scalar.text.injEq]
  | bytes octets =>
      cases hasZero
      refine ⟨_, rfl, ?_⟩
      show (octets == []) = !!octets.isEmpty
      rw [Bool.not_not, List.beq_nil_eq]
  | handle h =>
      obtain ⟨sort, number⟩ := h
      cases sort with
      | growing => exact absurd rfl notKept
      | _ => cases hasZero
  | _ => cases hasZero

end Scalar

namespace Value

/-- A value of a kind with a zero counts as true or as false; it equals that zero, from either side,
iff it counts as false. -/
theorem beq_zero {v zero : Value} (hasZero : zeroOf? v.kindOf = some zero) :
    ∃ holds, v.truthy? = some holds ∧ (v == zero) = !holds ∧ (zero == v) = !holds := by
  cases v using Session.cases_forms with
  | scalar s notKept =>
      obtain ⟨nought, rfl, same⟩ := Scalar.same_zero notKept hasZero
      exact ⟨_, rfl, same, (Scalar.same_comm nought s).trans same⟩
  | kept number =>
      cases hasZero
      exact ⟨true, rfl, rfl, rfl⟩
  | list items | tuple items | set items | frozenSet items =>
      cases hasZero
      cases items <;> exact ⟨_, rfl, rfl, rfl⟩
  | dictionary entries =>
      cases hasZero
      cases entries <;> exact ⟨_, rfl, rfl, rfl⟩
  | managed holder => cases holder <;> cases hasZero
  | _ => cases hasZero

/-- Nothing, or a value that counts as false among those of the kinds with a zero. -/
def IsVacant (v : Value) : Prop :=
  v = .null ∨ v.kindOf ∈ kindsWithZero ∧ v.truthy? = some false

private theorem isNull_iff {v : Value} : v.isNull = true ↔ v = .null := by
  constructor
  · intro nothing
    unfold isNull at nothing
    split at nothing
    · rfl
    · cases nothing
  · rintro rfl
    rfl

private theorem eq_null_of_kindOf {v : Value} (isNone : v.kindOf = .none) : v = .null := by
  cases v using Session.cases_forms with
  | scalar s notKept =>
      cases s with
      | null => rfl
      | handle h =>
          obtain ⟨sort, number⟩ := h
          cases sort <;> cases isNone
      | _ => cases isNone
  | managed holder => cases holder <;> cases isNone
  | _ => cases isNone

theorem kindLeft_of_ne {v : Value} (something : v ≠ .null) : v.kindLeft = .ofKind v.kindOf := by
  unfold kindLeft
  split
  · exact absurd rfl something
  · rfl

end Value

open Value

/-- The zeros are the vacant values. -/
theorem isZero_iff (v : Value) : isZero v = true ↔ v.IsVacant := by
  rw [isZero, Bool.or_eq_true, isNull_iff, IsVacant, mem_kindsWithZero_iff]
  refine or_congr_right ?_
  cases hasZero : zeroOf? v.kindOf with
  | none => simp
  | some zero =>
      obtain ⟨holds, isSo, same, -⟩ := beq_zero hasZero
      simp [isSo, same]

theorem isZero_of_other {v : Value} (something : v ≠ .null) (other : v.kindOf ∉ kindsWithZero) :
    isZero v = false := by
  rw [← Bool.not_eq_true, isZero_iff]
  rintro (isNull | ⟨isOf, -⟩)
  · exact something isNull
  · exact other isOf

/-- A sequence without items counts as false, and is no zero. -/
theorem isZero_of_noItems {items : Value} (noItems : items.size? = some 0) :
    (Value.sequence ⟨items⟩).truthy? = some false ∧ isZero (.sequence ⟨items⟩) = false := by
  refine ⟨?_, isZero_of_other nofun ?_⟩
  · show items.size?.map (fun size => size != 0) = some false
    rw [noItems]
    rfl
  · show Kind.sequence ∉ kindsWithZero
    decide

/-! ## Options and dependencies -/

namespace Optional

theorem guarded_of_isVacant {v seen : Value} (vacant : seen.IsVacant) :
    guarded v (!isZero seen) = .notOk v.kindLeft := by
  rw [guarded, (isZero_iff seen).mpr vacant]
  rfl

theorem guarded_of_not_isVacant {v seen : Value} (present : ¬ seen.IsVacant) :
    guarded v (!isZero seen) = .ok v := by
  rw [← isZero_iff, Bool.not_eq_true] at present
  rw [guarded, present]
  rfl

/-- What a vacant value leaves behind is a zero of its kind that equals it. -/
theorem orZero_kindLeft {v : Value} (vacant : v.IsVacant) :
    ∃ zero, (Optional.notOk v.kindLeft : Optional Value Value).orZero = .ok zero ∧
      zero.kindOf = v.kindOf ∧ (zero == v) = true := by
  rcases vacant with rfl | ⟨isOf, isFalse⟩
  · exact ⟨.null, rfl, rfl, rfl⟩
  · obtain ⟨zero, hasZero⟩ := (mem_kindsWithZero_iff _).mp isOf
    obtain ⟨holds, isSo, -, same⟩ := beq_zero hasZero
    have something : v ≠ .null := by
      rintro rfl
      cases hasZero
    obtain ⟨-, given, sameKind⟩ := get_of_kind hasZero (o := .notOk v.kindLeft)
      (kindLeft_of_ne something)
    refine ⟨zero, given, sameKind, ?_⟩
    rw [same, Option.some.inj (isSo.symm.trans isFalse)]
    rfl

private theorem isOk_unlessZero_iff (v : Value) : (unlessZero v).isOk = true ↔ ¬ v.IsVacant := by
  by_cases vacant : v.IsVacant
  · simp [unlessZero, guarded_of_isVacant vacant, vacant, isOk]
  · simp [unlessZero, guarded_of_not_isVacant vacant, vacant, isOk]

/-- A zero is replaced by one that equals it. -/
theorem orZero_unlessZero_of_isVacant {v : Value} (vacant : v.IsVacant) :
    ∃ zero, (unlessZero v).orZero = .ok zero ∧ zero.kindOf = v.kindOf ∧ (zero == v) = true := by
  rw [unlessZero, guarded_of_isVacant vacant]
  exact orZero_kindLeft vacant

private theorem orZero_unlessZero_of_not_isVacant {v : Value} (present : ¬ v.IsVacant) :
    (unlessZero v).orZero = .ok v := by
  rw [unlessZero, guarded_of_not_isVacant present]
  rfl

end Optional

namespace Managed

variable {m : Type → Type} [Monad m] [LawfulMonad m] {α : Type} (holder : Holder)
  (f : Value → Attempt m α) {v : Value}

theorem openWith_of_isVacant (vacant : v.IsVacant) :
    openWith holder v f = pure ⟨holder, .notOk .null⟩ := by
  rw [openWith, Optional.unlessZero, Optional.guarded_of_isVacant vacant, Optional.map, pure_bind]

theorem openWith_of_not_isVacant (present : ¬ v.IsVacant) :
    openWith holder v f = (do return ⟨holder, .ok (← f v)⟩) := by
  rw [openWith, Optional.unlessZero, Optional.guarded_of_not_isVacant present, Optional.map,
    bind_assoc]
  simp only [pure_bind]

/-- The calls of an opener: one on what is no zero, however it ends, and none on a zero. -/
theorem exists_calls_openWith {σ : Type} (f : Value → Attempt (StateM σ) α) (v : Value)
    (before : σ) :
    ∃ outcome after calls,
      (openWith holder v (Calls.recorded f)).runFrom ⟨before, []⟩ = (outcome, ⟨after, calls⟩) ∧
      (v.IsVacant → calls = []) ∧
      (¬ v.IsVacant → calls.map Calls.Entry.argument = [v]) := by
  by_cases vacant : v.IsVacant
  · rw [openWith_of_isVacant _ _ vacant]
    exact ⟨_, before, [], rfl, fun _ => rfl, fun present => absurd vacant present⟩
  · rw [openWith_of_not_isVacant _ _ vacant]
    rcases opened : (f v).runFrom before with ⟨fault | d, after⟩
    · exact ⟨_, after, _, runFrom_bind_of_error _ (Calls.runFrom_recorded opened []),
        fun isVacant => absurd isVacant vacant, fun _ => rfl⟩
    · exact ⟨_, after, _, runFrom_bind_of_ok _ (Calls.runFrom_recorded opened []),
        fun isVacant => absurd isVacant vacant, fun _ => rfl⟩

end Managed

/-! ## Sessions -/

namespace Session

open Run

variable {world : World} {v : Value}

/-- Nothing, or a value that a session takes for false among those of the kinds with a zero. -/
def IsVacantIn (world : World) (v : Value) : Prop :=
  v = .null ∨ v.kindOf ∈ kindsWithZero ∧ (truth v).runFrom world = (.ok false, world)

theorem settled_eq_null_iff (store : Store) : store.settled v = .null ↔ v = .null := by
  constructor
  · intro isNull
    refine Value.eq_null_of_kindOf ?_
    rw [← kindOf_settled store, isNull]
    rfl
  · rintro rfl
    rfl

/-- A session takes for vacant what it observes as vacant. -/
theorem isVacantIn_iff : IsVacantIn world v ↔ (world.store.settled v).IsVacant := by
  rw [IsVacantIn, Value.IsVacant, settled_eq_null_iff, kindOf_settled, runFrom_truth]
  refine or_congr_right (and_congr_right fun _ => ?_)
  cases (world.store.settled v).truthy? <;> simp

private theorem isZero_settled_iff : isZero (world.store.settled v) = true ↔ IsVacantIn world v :=
  (isZero_iff _).trans isVacantIn_iff.symm

private theorem kindLeft_settled (store : Store) (v : Value) :
    (store.settled v).kindLeft = v.kindLeft := by
  by_cases isNull : v = .null
  · rw [isNull]
    rfl
  · rw [Value.kindLeft_of_ne isNull, Value.kindLeft_of_ne fun settled =>
      isNull ((settled_eq_null_iff store).mp settled), kindOf_settled]

/-- A zero has no lists to be read back. -/
private theorem settled_of_zeroOf {kind zero : Value} (given : zeroOf kind = .ok zero)
    (store : Store) :
    store.settled zero = zero := by
  obtain ⟨-, -, isZero⟩ := Value.bind_eq_ok given
  split at isZero
  · next kind =>
      obtain rfl := Except.ok.inj isZero
      cases kind <;> rfl
  · obtain rfl := Except.ok.inj isZero
    rfl

section Operations

variable (call : Caller)

private theorem runFrom_isZero (v : Value) (world : World) :
    (performOption call .isZero [v]).runFrom world =
      (.ok (.bool (isZero (world.store.settled v))), world) := rfl

private theorem runFrom_unlessZero (v : Value) (world : World) :
    (performOption call .unlessZero [v]).runFrom world =
      (.ok (.option (.guarded v !(isZero (world.store.settled v)))), world) := rfl

/-- What is left of a vacant value is, in a session as well, of its kind and equal to it. -/
private theorem runFrom_orZero_kindLeft (vacant : IsVacantIn world v) :
    ∃ zero, (performOption call .orZero [.option (.notOk v.kindLeft)]).runFrom world =
        (.ok zero, world) ∧ zero.kindOf = v.kindOf ∧
      (performGeneral call .same [zero, v]).runFrom world = (.ok (.bool true), world) := by
  obtain ⟨zero, given, sameKind, equal⟩ := Optional.orZero_kindLeft (isVacantIn_iff.mp vacant)
  rw [kindLeft_settled] at given
  have isZero : zeroOf v.kindLeft = .ok zero := by
    obtain ⟨⟨w, flag⟩, got, isW⟩ := Value.bind_eq_ok given
    obtain ⟨w', isZero, isPair⟩ := Value.bind_eq_ok got
    cases isPair
    cases isW
    exact isZero
  refine ⟨zero, ?_, sameKind.trans (kindOf_settled world.store v), ?_⟩
  · show (ofHash (Optional.notOk v.kindLeft : Optional Value Value).orZero).runFrom world = _
    rw [given]
    rfl
  · show (Except.ok (Value.bool (world.store.settled zero == world.store.settled v)), world) = _
    rw [settled_of_zeroOf isZero, equal]

/-- A session drops what it takes for vacant, and replaces it by what it finds equal to it. -/
theorem exists_runFrom_unlessZero (v : Value) (world : World) :
    ∃ o w,
      (performOption call .unlessZero [v]).runFrom world = (.ok (.option o), world) ∧
      (o.isOk = true ↔ ¬ IsVacantIn world v) ∧
      (performOption call .orZero [.option o]).runFrom world = (.ok w, world) ∧
      (¬ IsVacantIn world v → w = v) ∧
      (IsVacantIn world v → w.kindOf = v.kindOf ∧
        (performGeneral call .same [w, v]).runFrom world = (.ok (.bool true), world)) := by
  rw [runFrom_unlessZero]
  by_cases vacant : IsVacantIn world v
  · obtain ⟨zero, given, sameKind, equal⟩ := runFrom_orZero_kindLeft call vacant
    rw [Optional.guarded_of_isVacant (isVacantIn_iff.mp vacant)]
    exact ⟨.notOk v.kindLeft, zero, rfl, by simp [vacant, Optional.isOk], given,
      fun present => absurd vacant present, fun _ => ⟨sameKind, equal⟩⟩
  · rw [Optional.guarded_of_not_isVacant fun settled => vacant (isVacantIn_iff.mpr settled)]
    exact ⟨.ok v, v, rfl, by simp [vacant, Optional.isOk], rfl, fun _ => rfl,
      fun isVacant => absurd isVacant vacant⟩

/-- Puts an option into what is given for a holder. -/
def hold (wrap : Value) (o : Optional Value Value) : Run Value :=
  match wrap with
  | .null => return .managed ⟨.closable, .option o⟩
  | wrap => call wrap [.option o]

private theorem openInto_eq (source opener wrap : Value) :
    openInto call source opener wrap = openOption call source opener >>= hold call wrap := rfl

/-- An opener is called on what is no zero, and on nothing else. -/
theorem runFrom_openWith (opener wrap : Value) :
    (IsVacantIn world v → (performManaged call .openWith [v, opener, wrap]).runFrom world =
      (hold call wrap (.notOk .null)).runFrom world) ∧
    (¬ IsVacantIn world v → (performManaged call .openWith [v, opener, wrap]).runFrom world =
      (do hold call wrap (.ok (← call opener [v]))).runFrom world) := by
  have opens : (performManaged call .openWith [v, opener, wrap]).runFrom world = (do
      let d ← Managed.openWith .plain (world.store.settled v) fun _ => call opener [v]
      hold call wrap d.basic : Run Value).runFrom world := by
    show (openInto call v opener wrap).runFrom world = _
    rw [openInto_eq, openOption, bind_assoc, runFrom_bind_of_ok _ (runFrom_observe v world),
      bind_assoc]
    simp only [pure_bind]
  rw [isVacantIn_iff, opens]
  constructor
  · intro vacant
    rw [Managed.openWith_of_isVacant _ _ vacant, pure_bind]
  · intro present
    rw [Managed.openWith_of_not_isVacant _ _ present, bind_assoc]
    simp only [pure_bind]

end Operations

/-! ## All values -/

/-- A value is a zero iff it is nothing, or counts as false and is of a kind with a zero.

So much is dropped, and nothing else: what is kept is the value itself, and what is dropped leaves a
zero of its kind that equals it. An opener is called once on what is no zero, and never on a zero. A
session finds the same of what it observes, where it finds values false as it does everywhere, and
leaves the world as it was. -/
theorem zeros_are_vacant :
    (∀ v : Value, isZero v = true ↔ v.IsVacant) ∧
    (∀ v : Value, v ≠ .null → v.kindOf ∉ kindsWithZero → isZero v = false) ∧
    (∀ items : Value, items.size? = some 0 →
      (Value.sequence ⟨items⟩).truthy? = some false ∧ isZero (.sequence ⟨items⟩) = false) ∧
    (∀ o p, isZero (.option o) = false ∧ isZero (.pair p) = false) ∧
    (∀ v : Value, (Optional.unlessZero v).isOk = true ↔ ¬ v.IsVacant) ∧
    (∀ v : Value, ¬ v.IsVacant → (Optional.unlessZero v).orZero = .ok v) ∧
    (∀ v : Value, v.IsVacant → ∃ zero, (Optional.unlessZero v).orZero = .ok zero ∧
      zero.kindOf = v.kindOf ∧ (zero == v) = true) ∧
    (∀ (σ α : Type) (holder : Holder) (f : Value → Attempt (StateM σ) α) (v : Value) (before : σ),
      ∃ outcome after calls,
        (Managed.openWith holder v (Calls.recorded f)).runFrom ⟨before, []⟩ =
          (outcome, ⟨after, calls⟩) ∧
        (v.IsVacant → calls = []) ∧ (¬ v.IsVacant → calls.map Calls.Entry.argument = [v])) ∧
    ∀ (call : Caller) (world : World) (v : Value), ∃ zero o w,
      (performOption call .isZero [v]).runFrom world = (.ok (.bool zero), world) ∧
      (zero = true ↔ IsVacantIn world v) ∧
      (performOption call .unlessZero [v]).runFrom world = (.ok (.option o), world) ∧
      (o.isOk = true ↔ ¬ IsVacantIn world v) ∧
      (performOption call .orZero [.option o]).runFrom world = (.ok w, world) ∧
      (¬ IsVacantIn world v → w = v) ∧
      (IsVacantIn world v → w.kindOf = v.kindOf ∧
        (performGeneral call .same [w, v]).runFrom world = (.ok (.bool true), world)) ∧
      ∀ opener wrap : Value,
        (IsVacantIn world v → (performManaged call .openWith [v, opener, wrap]).runFrom world =
          (hold call wrap (.notOk .null)).runFrom world) ∧
        (¬ IsVacantIn world v → (performManaged call .openWith [v, opener, wrap]).runFrom world =
          (do hold call wrap (.ok (← call opener [v]))).runFrom world) := by
  refine ⟨isZero_iff, fun v => isZero_of_other, fun items => isZero_of_noItems, ?_,
    Optional.isOk_unlessZero_iff, fun v => Optional.orZero_unlessZero_of_not_isVacant,
    fun v => Optional.orZero_unlessZero_of_isVacant,
    fun σ α holder => Managed.exists_calls_openWith holder, ?_⟩
  · intro o p
    cases o <;> exact ⟨rfl, rfl⟩
  · intro call world v
    obtain ⟨o, w, dropped, isOk, replaced, kept, equal⟩ := exists_runFrom_unlessZero call v world
    exact ⟨_, o, w, runFrom_isZero call v world, isZero_settled_iff, dropped, isOk, replaced, kept,
      equal, runFrom_openWith call⟩

/-- A world with one list, which has no items. -/
def oneEmptyList : World :=
  { World.start ⟨[]⟩ ⟨2024, 2, 29, 1, 2, 3, 0⟩ with
    store := { Store.empty with lists := #[#[]] } }

/-- The negative zero leaves the other one behind, what is not a number is kept, and a pair of zeros
is no zero. Nothing is opened with a list that has no items. -/
theorem zeros_are_vacant_negativeZero :
    (Value.float .negativeZero).IsVacant ∧
    (∃ zero, (Optional.unlessZero (.float .negativeZero)).orZero = .ok zero ∧
      zero.kindOf = .float ∧ (zero == .float .negativeZero) = true) ∧
    ¬ (Value.float .nan).IsVacant ∧
    (Optional.unlessZero (.float .nan)).orZero = .ok (.float .nan) ∧
    (Value.pair ⟨.int 0, .int 0⟩).kindOf ∉ kindsWithZero ∧
    isZero (.pair ⟨.int 0, .int 0⟩) = false ∧
    IsVacantIn oneEmptyList (.handle .growing 0) ∧
    ∀ (call : Caller) (opener : Value),
      (performManaged call .openWith [.handle .growing 0, opener, .null]).runFrom oneEmptyList =
        (.ok (.managed ⟨.closable, .option (.notOk .null)⟩), oneEmptyList) := by
  have negativeZero : (Value.float .negativeZero).IsVacant := .inr ⟨by decide, rfl⟩
  have nan : ¬ (Value.float .nan).IsVacant := by
    rintro (isNull | ⟨-, isFalse⟩)
    · cases isNull
    · cases isFalse
  have noKind : (Value.pair ⟨.int 0, .int 0⟩).kindOf ∉ kindsWithZero := by decide
  have noItems : IsVacantIn oneEmptyList (.handle .growing 0) := .inr ⟨by decide, rfl⟩
  obtain ⟨-, noZero, -, -, -, kept, left, -, inSession⟩ := zeros_are_vacant
  refine ⟨negativeZero, left _ negativeZero, nan, kept _ nan, noKind, noZero _ nofun noKind,
    noItems, fun call opener => ?_⟩
  obtain ⟨_, _, _, -, -, -, -, -, -, -, opens⟩ := inSession call oneEmptyList (.handle .growing 0)
  exact (opens opener .null).1 noItems

end Session

end Presence
