import Presence.Proofs.Session.Frames
import Presence.Session.Members

/-!
Contract: what closing does to the counters of clients.

Owns: `Spares`, computations that close no client; `Store.Counts`, how often clients were closed
between two stores; `Closing`, the closing of one wrapper, and which client it is of; `closedBy`,
the wrappers that are closed with a value; that closing a value counts once for each of them
(`counts_close`); that the closing of an absent dependency does nothing (`close_of_isOk_false`).

Does not own: what is done with wrappers one after the other (`Presence.Proofs.Managed.Courses`).

Closing a wrapper around another wrapper closes both. A client is told by its number alone, whatever
users it has: clients that were made one after the other have different numbers. The number of a
client that has not been made yet says nothing, so that a closing is kept with the number of clients
that there were.
-/

namespace Presence.Session

open Attempt Run

/-! ## Computations that close nothing -/

/-- From one world to another no client was closed. -/
def Spared (before after : World) : Prop := before.store.Spares after.store

instance : Frame Spared where
  refl _ := .of_closings_eq rfl
  trans := Store.Spares.trans
  change _ _ _ _ spares := spares
  named _ _ _ := .of_closings_eq rfl
  read _ _ _ _ _ := .of_closings_eq rfl

/-- A computation that closes no client. -/
abbrev Spares {α : Type} (body : Run α) : Prop := KeepsTo Spared body AnyResult

theorem spares_modify {change : World → World}
    (same : ∀ world, (change world).store = world.store) :
    Spares (modify change : Run PUnit) :=
  fun world => ⟨.of_closings_eq (congrArg Store.closings (same world)), fun _ _ => trivial⟩

private theorem spares_setStream (number : Nat) (stream : TextStream) :
    Spares (setStream number stream) :=
  fun _ => ⟨.of_closings_eq rfl, fun _ _ => trivial⟩

/-! ## Counting -/

/-- Between two stores each client was closed as often as a count says. -/
structure Store.Counts (before after : Store) (count : Nat → Nat) : Prop where
  counts : ∀ number, after.closingsOf number = before.closingsOf number + count number
  more : before.closings.size ≤ after.closings.size

namespace Store.Counts

variable {before between after : Store} {count count' : Nat → Nat}

theorem of_spares (spares : before.Spares after) : before.Counts after fun _ => 0 :=
  ⟨spares.counts, spares.more⟩

theorem trans (first : before.Counts between count) (second : between.Counts after count') :
    before.Counts after fun number => count number + count' number := by
  refine ⟨fun number => ?_, Nat.le_trans first.more second.more⟩
  rw [second.counts, first.counts, Nat.add_assoc]

theorem congr (counts : before.Counts after count) (same : ∀ number, count number = count' number) :
    before.Counts after count' :=
  ⟨fun number => (counts.counts number).trans (congrArg _ (same number)), counts.more⟩

end Store.Counts

end Presence.Session

namespace Presence.Value

/-- Whether a value is the client with a number, as one of the clients that there are. -/
def isClient (number clients : Nat) : Value → Bool
  | .client c => c.number == number && number < clients
  | _ => false

/-- What a holder that is made around a value has as its payload. -/
def payload? : Value → Option Value
  | .option (.ok v) => some v
  | .either (.right v _) => some v
  | .managed ⟨_, basic⟩ => payload? basic
  | _ => none
termination_by structural v => v

mutual

/-- The wrappers that are closed with a value, the outer ones first. -/
def closedBy : Value → List (Managed Value)
  | .managed ⟨holder, basic⟩ =>
      if holder.canClose then ⟨holder, basic⟩ :: closedInside basic else []
  | _ => []
termination_by structural v => v

/-- The wrappers that are closed with the payload of what a holder is made around. -/
def closedInside : Value → List (Managed Value)
  | .option (.ok v) => closedBy v
  | .either (.right v _) => closedBy v
  | .managed ⟨_, basic⟩ => closedInside basic
  | _ => []
termination_by structural v => v

end

/-- What is closed inside is what is closed with the payload. -/
private theorem closedInside_eq (basic : Value) :
    basic.closedInside = basic.payload?.elim [] closedBy := by
  fun_induction payload? basic with
  | case3 _ basic inductionHypothesis => exact inductionHypothesis
  | case4 basic notOk notRight notManaged =>
      rw [closedInside]
      · rfl
      all_goals assumption
  | _ => rfl

end Presence.Value

namespace Presence.Session

open Attempt Run

/-- A wrapper that is closed, and how many clients there are then. -/
structure Closing where
  wrapper : Managed Value
  clients : Nat

/-- Whether the payload of the wrapper is the client with a number. -/
def Closing.isOf (number : Nat) (closing : Closing) : Bool :=
  closing.wrapper.basic.payload?.any fun v => v.isClient number closing.clients

/-- How many of some closings are of a client. -/
def closingsAmong (closings : List Closing) (number : Nat) : Nat :=
  closings.countP (Closing.isOf number)

theorem closingsAmong_cons (closing : Closing) (closings : List Closing) (number : Nat) :
    closingsAmong (closing :: closings) number =
      (closing.isOf number).toNat + closingsAmong closings number := by
  rw [closingsAmong, closingsAmong, List.countP_cons, Nat.add_comm]
  cases closing.isOf number <;> rfl

theorem closingsAmong_append (front back : List Closing) (number : Nat) :
    closingsAmong (front ++ back) number =
      closingsAmong front number + closingsAmong back number :=
  List.countP_append

/-- The closings of some wrappers in a world. -/
def closingsIn (world : World) (wrappers : List (Managed Value)) : List Closing :=
  wrappers.map fun d => ⟨d, world.store.closings.size⟩

/-! ## Closing -/

private theorem counts_countClosing (world : World) (number : Nat) :
    world.store.Counts ((countClosing number).runFrom world).2.store fun other =>
      (number == other && other < world.store.closings.size).toNat := by
  refine ⟨fun other => ?_, ?_⟩
  · show ((world.store.closings.modify number (· + 1))[other]?).getD 0 =
      (world.store.closings[other]?).getD 0 + _
    rw [Array.getElem?_modify]
    by_cases isThere : other < world.store.closings.size <;>
      by_cases same : number = other <;> simp [isThere, same]
  · exact Nat.le_of_eq (Array.size_modify ..).symm

private theorem Store.Counts.bind {α β : Type} {first : Run α} {next : α → Run β} {world : World}
    {count : Nat → Nat} (counts : world.store.Counts (first.runFrom world).2.store count)
    (spares : ∀ result, Session.Spares (next result)) :
    world.store.Counts ((first >>= next).runFrom world).2.store count := by
  rw [runFrom_bind]
  rcases ended : first.runFrom world with ⟨fault | result, between⟩ <;> rw [ended] at counts
  · exact counts
  · exact counts.trans (.of_spares (spares result between).1)

/-- What closes no client and is no client counts for nothing. -/
theorem counts_of_spares {body : Run Unit} (spares : Spares body) (world : World) :
    world.store.Counts (body.runFrom world).2.store fun _ => 0 :=
  .of_spares (spares world).1

mutual

/-- A value is closed, and with it the wrappers in it. -/
theorem counts_close (world : World) (v : Value) :
    world.store.Counts ((Members.close v).runFrom world).2.store fun number =>
      (v.isClient number world.store.closings.size).toNat +
        closingsAmong (closingsIn world v.closedBy) number := by
  cases v with
  | client c =>
      obtain ⟨number, users, failing⟩ := c
      refine (counts_countClosing world number).bind fun _ =>
        (keepsTo_truth failing).bind fun fails _ => ?_
      cases fails with
      | true => exact .fail .closeFailed
      | false => exact .done
  | managed d =>
      obtain ⟨holder, basic⟩ := d
      rw [Members.close, Value.closedBy]
      cases holder.canClose with
      | true =>
          refine (counts_closeInside world basic).congr fun number => ?_
          show _ = 0 + closingsAmong (⟨⟨holder, basic⟩, _⟩ :: closingsIn world _) number
          rw [closingsAmong_cons, Nat.zero_add]
          rfl
      | false => exact counts_of_spares (.fail _) world
  | scalar s =>
      cases s with
      | kind kind => exact counts_of_spares (.fail _) world
      | handle h =>
          obtain ⟨sort, number⟩ := h
          cases sort with
          | stream => exact counts_of_spares (spares_setStream number _) world
          | _ => exact counts_of_spares (.fail _) world
      | _ => exact counts_of_spares (.fail _) world
  | _ => exact counts_of_spares (.fail _) world
termination_by structural v

/-- The payload of what a holder is made around is closed, and with it the wrappers in it. -/
theorem counts_closeInside (world : World) (basic : Value) :
    world.store.Counts ((Members.closeInside basic).runFrom world).2.store fun number =>
      (basic.payload?.any fun v => v.isClient number world.store.closings.size).toNat +
        closingsAmong (closingsIn world basic.closedInside) number := by
  cases basic with
  | option o =>
      cases o with
      | ok v => exact counts_close world v
      | notOk _ => exact counts_of_spares .done world
  | either e =>
      cases e with
      | left _ _ => exact counts_of_spares .done world
      | right v _ => exact counts_close world v
  | managed d =>
      obtain ⟨_, basic⟩ := d
      exact counts_closeInside world basic
  | scalar s =>
      cases s with
      | kind kind => exact counts_of_spares (.fail _) world
      | handle h =>
          obtain ⟨sort, number⟩ := h
          cases sort <;> exact counts_of_spares (.fail _) world
      | _ => exact counts_of_spares (.fail _) world
  | _ => exact counts_of_spares (.fail _) world
termination_by structural basic

end

/-- Closing a wrapper is counted. -/
theorem counts_close_managed (world : World) (d : Managed Value) :
    world.store.Counts ((Members.close (.managed d)).runFrom world).2.store
      (closingsAmong (closingsIn world (Value.closedBy (.managed d)))) :=
  (counts_close world (.managed d)).congr fun _ => Nat.zero_add _

/-- A wrapper around a client closes this client and no other, whatever their users are. -/
theorem closingsOf_close_client {d : Managed Value} {number : Nat} {users failing : Value}
    (holds : d.basic.payload? = some (.client ⟨number, users, failing⟩)) (world : World)
    {other : Nat} (differ : other ≠ number) :
    ((Members.close (.managed d)).runFrom world).2.store.closingsOf other =
      world.store.closingsOf other := by
  have notIt : (Closing.mk d world.store.closings.size).isOf other = false := by
    rw [Closing.isOf, holds]
    simp [Value.isClient, differ.symm]
  rw [(counts_close_managed world d).counts, Value.closedBy, Value.closedInside_eq, holds]
  cases d.holder.canClose with
  | true =>
      show _ + closingsAmong [⟨d, _⟩] other = _
      rw [closingsAmong_cons, notIt]
      rfl
  | false => rfl

/-- A wrapper that is not ok has nothing to close. -/
theorem close_of_isOk_false {d : Managed Value} (canClose : d.holder.canClose = true)
    {world after : World} (notOk : (Members.isOk d.basic).runFrom world = (.ok false, after)) :
    Members.close (.managed d) = pure () := by
  obtain ⟨holder, basic⟩ := d
  rw [Members.close, if_pos canClose]
  clear canClose
  fun_induction Members.isOk basic with
  | case1 o =>
      cases o with
      | ok v => cases notOk
      | notOk kind => rfl
  | case2 holder basic inductionHypothesis => exact inductionHypothesis notOk
  | _ => cases notOk

/-! ## Making clients -/

/-- A new client has a number of its own, and was never closed. -/
theorem runFrom_newClient (users failing : Value) (world : World) :
    (newClient users failing).runFrom world =
      (.ok (.client ⟨world.store.closings.size, users, failing⟩),
        { world with store := { world.store with closings := world.store.closings.push 0 } }) :=
  rfl

end Presence.Session
