import Presence.Proofs.Lists.Overlooked
import Presence.Proofs.Lists.Payloads
import Presence.Proofs.Session.Nesting

/-!
Contract: what is answered of values that do not hold a list, when items are added to it.

Owns: `Inquires`, the operations that ask for what a value is observed by, and for zeros; that they
overlook every list that their arguments do not hold (`overlooks_perform`); `World.Undisturbed`,
what calls that add to a list leave as it was (`undisturbed_appendAll`).

Does not own: computations that overlook a list (`Presence.Proofs.Lists.Overlooked`).
-/

namespace Presence.Session

open Attempt Run

/-! ## Questions -/

/-- The operations that ask for zeros, for what a value is, how it is written and what it equals,
and for the items of sequences. -/
inductive Inquires : Operation → List Value → Prop where
  | zeroOf (kind : Value) : Inquires (.option .zeroOf) [kind]
  | orZero (v : Value) : Inquires (.option .orZero) [v]
  | isZero (v : Value) : Inquires (.option .isZero) [v]
  | encode (v : Value) : Inquires (.option .encode) [v]
  | encodeCompact (v : Value) : Inquires (.option .encodeCompact) [v]
  | size (v : Value) : Inquires (.general .size) [v]
  | truthy (v : Value) : Inquires (.general .truthy) [v]
  | shown (v : Value) : Inquires (.general .shown) [v]
  | plain (v : Value) : Inquires (.general .plain) [v]
  | same (v w : Value) : Inquires (.general .same) [v, w]
  | different (v w : Value) : Inquires (.general .different) [v, w]
  | give (v : Value) : Inquires (.general .give) [v]
  | length (v : Value) : Inquires (.sequence .size) [v]
  | item (v place : Value) : Inquires (.sequence .item) [v, place]
  | items (v : Value) : Inquires (.sequence .items) [v]

section Questions

variable {number base : Nat} {added : List Value} {among : Handle → Prop} {v w : Value}

private theorem overlooks_optionOf (holds : v.HoldsOnly among) :
    Overlooks number added among base (optionOf v) fun _ o =>
      (Value.option o).HoldsOnly among := by
  unfold optionOf
  split
  · exact .pure fun _ _ => holds
  · exact .fail _
  · exact .fail _

private theorem overlooks_containerOf (holds : v.HoldsOnly among) :
    Overlooks number added among base (containerOf v) (Within among) := by
  unfold containerOf
  split
  · exact .pure fun _ _ => holds.of_sequence
  · exact .fail _

/-- A scalar that refers to nothing, whatever it is made of. -/
private theorem overlooks_scalar {α : Type} {body : Run α} {make : α → Scalar}
    (overlooks : Overlooks number added among base body Whatever)
    (noSource : ∀ a, (make a).source? = none) :
    Overlooks number added among base (do return .scalar (make (← body))) (Within among) :=
  overlooks.next fun a => .pure fun _ _ => .plain (noSource a)

variable (apart : ¬ among ⟨.growing, number⟩)

include apart

/-- What is read of a value as it is observed. -/
private theorem overlooks_read {α : Type} (read : Value → Except Fault α)
    (holds : v.HoldsOnly among) :
    Overlooks number added among base (do Run.lift (read (← observe v))) Whatever :=
  (overlooks_observe apart holds).next fun _ => (Overlooks.ofExcept _).imp fun _ _ _ => trivial

private theorem overlooks_compare (compare : Value → Value → Bool) (first : v.HoldsOnly among)
    (second : w.HoldsOnly among) :
    Overlooks number added among base
      (do return .bool (compare (← observe v) (← observe w))) (Within among) :=
  (overlooks_observe apart first).next fun _ =>
    (overlooks_observe apart second).next fun _ => .pure fun _ _ => .plain rfl

/-- No answer depends on a list that the values asked do not hold. -/
theorem overlooks_perform (inside : number < base)
    (fresh : ∀ other, base ≤ other → among ⟨.growing, other⟩) {call : Caller}
    {operation : Operation} {arguments : List Value} (asks : Inquires operation arguments)
    (holds : ∀ argument ∈ arguments, argument.HoldsOnly among) :
    Overlooks number added among base (perform call operation arguments []) (Within among) := by
  have finds : Finds (Overlooks number added among) fun _ => among := overlooks_finds apart
  have kept {body : Run Value} (overlooks : Overlooks number added among base body (Within among)) :
      Overlooks number added among base (do keep (← body)) (Within among) :=
    overlooks.bind fun _ more _ holds => overlooks_keep (Nat.lt_of_lt_of_le inside more)
      (fun other isNew => fresh other (Nat.le_trans more isNew)) apart holds
  cases asks with
  | zeroOf => exact kept ((Overlooks.ofHash _).imp fun _ _ given => Value.holdsOnly_zeroOf given)
  | orZero =>
      refine kept ((overlooks_optionOf (holds _ (by simp))).bind fun _ _ o isOption => ?_)
      refine (Overlooks.ofHash _).imp fun _ zero given => ?_
      obtain ⟨⟨_, flag⟩, isGot, given⟩ := Value.bind_eq_ok given
      cases given
      exact Optional.holdsOnly_get isOption isGot
  | isZero =>
      exact kept (overlooks_scalar (overlooks_observe apart (holds _ (by simp))) fun _ => rfl)
  | encode =>
      exact kept (overlooks_scalar (overlooks_read apart _ (holds _ (by simp))) fun _ => rfl)
  | encodeCompact =>
      exact kept (overlooks_scalar (overlooks_read apart _ (holds _ (by simp))) fun _ => rfl)
  | size => exact kept (overlooks_scalar (finds.size (holds _ (by simp))) fun _ => rfl)
  | truthy => exact kept (overlooks_scalar (finds.truth (holds _ (by simp))) fun _ => rfl)
  | shown =>
      exact kept (overlooks_scalar (overlooks_read apart _ (holds _ (by simp))) fun _ => rfl)
  | plain =>
      exact kept (overlooks_scalar (overlooks_read apart _ (holds _ (by simp))) fun _ => rfl)
  | same => exact kept (overlooks_compare apart _ (holds _ (by simp)) (holds _ (by simp)))
  | different => exact kept (overlooks_compare apart _ (holds _ (by simp)) (holds _ (by simp)))
  | give => exact kept (.pure fun _ _ => holds _ (by simp))
  | length =>
      refine kept ((overlooks_containerOf (holds _ (by simp))).bind fun _ _ _ isContainer => ?_)
      exact overlooks_scalar (finds.size isContainer) fun _ => rfl
  | item =>
      refine kept ((overlooks_containerOf (holds _ (by simp))).bind fun _ _ _ isContainer => ?_)
      refine Overlooks.bind (finds.look isContainer) fun _ _ _ isSeen => ?_
      refine (overlooks_observe apart (holds _ (by simp))).next fun _ => ?_
      exact (Overlooks.ofExcept _).imp fun _ _ found => Value.holdsOnly_item isSeen found
  | items =>
      refine kept ((overlooks_containerOf (holds _ (by simp))).bind fun _ _ _ isContainer => ?_)
      exact finds.items .list .list (finds.parts isContainer)

end Questions

/-! ## Answers -/

/-- What is answered to an operation on some arguments: its result as it is told. -/
def answer (operation : Operation) (arguments : List Value) : Run Value := do
  tell (← perform call operation arguments [])

/-- Whatever does not hold a list is as it was: it is observed and gone through as before, and all
that is asked of it is answered as before. All other lists have the items that they had. -/
structure World.Undisturbed (number : Nat) (before after : World) : Prop where
  observed : ∀ v, before.store.Apart number v → after.store.settled v = before.store.settled v
  goneThrough : ∀ v, before.store.Apart number v →
    ((parts v).runFrom after).1 = ((parts v).runFrom before).1
  answered : ∀ operation arguments, Inquires operation arguments →
    (∀ argument ∈ arguments, before.store.Apart number argument) →
      ((answer operation arguments).runFrom after).1 =
        ((answer operation arguments).runFrom before).1
  others : ∀ other, other ≠ number → after.store.itemsOf other = before.store.itemsOf other

section Lists

variable {number : Nat} {world : World}

/-- Lists that are made do not hold those that there are. -/
private theorem beside_of_lists_le (inside : number < world.lists) (other : Nat)
    (isNew : world.lists ≤ other) : world.store.Beside number ⟨.growing, other⟩ :=
  Store.beside_of_itemsOf_eq_nil (Nat.ne_of_gt (Nat.lt_of_lt_of_le inside isNew))
    (Store.itemsOf_eq_nil (Nat.not_lt.mpr isNew))

/-- Questions about what does not hold a list overlook it. -/
theorem overlooks_asked (inside : number < world.lists) (items : List Value)
    {operation : Operation} {arguments : List Value} (asks : Inquires operation arguments)
    (areApart : ∀ argument ∈ arguments, world.store.Apart number argument) :
    Overlooks number items (world.store.Beside number) world.lists
      (perform call operation arguments []) (Within (world.store.Beside number)) :=
  overlooks_perform (world.store.not_beside_self number) inside (beside_of_lists_le inside) asks
    areApart

/-- What is answered of values that do not hold a list does not hold it either. -/
theorem apart_of_asked (inside : number < world.lists) {operation : Operation}
    {arguments : List Value} (asks : Inquires operation arguments)
    (areApart : ∀ argument ∈ arguments, world.store.Apart number argument) {result : Value}
    {after : World}
    (performed : (perform call operation arguments []).runFrom world = (.ok result, after)) :
    after.store.Apart number result := by
  obtain ⟨-, -, encloses, holds⟩ := overlooks_asked inside [] asks areApart world
    (Nat.le_refl _) (world.store.encloses_beside number)
  rw [performed] at encloses holds
  exact encloses.apart (world.store.not_beside_self number) (holds result rfl)

/-- Any number of calls that add to a list disturb nothing that does not hold it. -/
theorem undisturbed_appendAll (inside : number < world.lists) (items : List Value) :
    world.Undisturbed number ((appendAll call number items).runFrom world).2 := by
  rw [runFrom_appendAll]
  have apart := world.store.not_beside_self number
  have overlooked {α : Type} {body : Run α} {fine : Nat → α → Prop}
      (overlooks : Overlooks number items (world.store.Beside number) world.lists body fine) :
      (body.runFrom (world.added number items)).1 = (body.runFrom world).1 := by
    rw [(overlooks world (Nat.le_refl _) (world.store.encloses_beside number)).1]
  constructor
  · exact fun v isApart => Store.settled_added isApart items
  · exact fun v isApart => overlooked ((overlooks_finds apart).parts isApart)
  · exact fun operation arguments asks areApart =>
      overlooked ((overlooks_asked inside items asks areApart).bind fun _ _ _ isApart =>
        overlooks_tell apart isApart)
  · exact fun other differs => Store.itemsOf_added_of_ne world.store number items differs

end Lists

end Presence.Session
