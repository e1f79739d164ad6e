import Presence.Managed
import Presence.Proofs.Managed.Clients
import Presence.Proofs.Managed.Lifecycle

/-!
Contract: what is done with wrappers one thing after the other, and how often clients were closed at
every point of it.

Owns: `Course`, computations as what they are made of, as far as wrappers are closed in them;
`Course.perform`, the computation of a course; `Course.closed`, the wrappers that are closed in it,
and `Passes`, the points that it passes, each with the wrappers that were closed so far; that the
counters of clients agree with them (`counts_perform`, `counts_passes`).

Does not own: what closing one wrapper does (`Presence.Proofs.Managed.Clients`), and the courses of
a session (`Presence.Proofs.Managed.Sessions`).

A wrapper is closed by being closed or by leaving a block on it, however the block has ended, and
even where the closing itself fails. What a course does besides is either known to close nothing, or
not known at all; the counters agree as far as what is not known closes nothing (`Harmless`).
-/

namespace Presence.Managed

open Attempt Session

/-! ## Courses -/

/-- A computation as what it is made of. What follows after its first part depends on the outcome of
that part and on the world then. -/
inductive Course : Type → Type 1 where
  /-- Something that closes no client. -/
  | act {α : Type} (body : Run α) (spares : Spares body) : Course α
  /-- Something of which nothing is known. -/
  | other {α : Type} (body : Run α) : Course α
  | close (d : Managed Value) : Course Unit
  /-- A block on a wrapper. -/
  | within {α : Type} (d : Managed Value) (body : Course α) : Course α
  | proceed {α β : Type} (first : Course α) (next : Except Fault α → World → Course β) : Course β

namespace Course

variable {α β : Type}

/-- The computation of a course. Only what can be closed can have a block. -/
def perform : {α : Type} → Course α → Run α
  | _, .act body _ => body
  | _, .other body => body
  | _, .close d => Members.close (.managed d)
  | _, .within d body =>
      if d.holder.canClose then d.bracket Members.closeInside body.perform
      else Run.fail .wrongType
  | _, .proceed first next => ExceptT.mk fun world =>
      let (outcome, between) := first.perform.runFrom world
      (next outcome between).perform.runFrom between

/-- The wrappers that are closed in a course from a world on, the first one first. -/
def closed : {α : Type} → Course α → World → List Closing
  | _, .act _ _, _ => []
  | _, .other _, _ => []
  | _, .close d, world => closingsIn world (Value.closedBy (.managed d))
  | _, .within d body, world =>
      if d.holder.canClose then
        body.closed world ++
          closingsIn (body.perform.runFrom world).2 (Value.closedBy (.managed d))
      else []
  | _, .proceed first next, world =>
      let (outcome, between) := first.perform.runFrom world
      first.closed world ++ (next outcome between).closed between

/-- From a world on, nothing closes a client but the closing of wrappers. -/
def Harmless : {α : Type} → Course α → World → Prop
  | _, .act _ _, _ => True
  | _, .other body, world => Spared world (body.runFrom world).2
  | _, .close _, _ => True
  | _, .within _ body, world => body.Harmless world
  | _, .proceed first next, world =>
      let (outcome, between) := first.perform.runFrom world
      first.Harmless world ∧ (next outcome between).Harmless between

/-- From a world on, all that is done is known. -/
def isKnown : {α : Type} → Course α → World → Bool
  | _, .act _ _, _ => true
  | _, .other _, _ => false
  | _, .close _, _ => true
  | _, .within _ body, world => body.isKnown world
  | _, .proceed first next, world =>
      let (outcome, between) := first.perform.runFrom world
      first.isKnown world && (next outcome between).isKnown between

theorem harmless_of_isKnown {α : Type} {course : Course α} {world : World}
    (known : course.isKnown world = true) : course.Harmless world := by
  induction course generalizing world with
  | act body spares => trivial
  | other body => cases known
  | close d => trivial
  | within d body inductionHypothesis => exact inductionHypothesis known
  | proceed first next firstHypothesis nextHypothesis =>
      obtain ⟨before, after⟩ := Bool.and_eq_true_iff.mp known
      exact ⟨firstHypothesis before, nextHypothesis _ _ after⟩

/-- A course from a world on passes a point in some world, when some wrappers were closed since the
begin. -/
inductive Passes : {α : Type} → Course α → World → List Closing → World → Prop
  | begins {α : Type} (course : Course α) (world : World) : Passes course world [] world
  | ends {α : Type} (course : Course α) (world : World) :
      Passes course world (course.closed world) (course.perform.runFrom world).2
  | inBlock {α : Type} {d : Managed Value} {body : Course α} {world point : World}
      {closings : List Closing} (canClose : d.holder.canClose = true)
      (passes : Passes body world closings point) : Passes (.within d body) world closings point
  | inFirst {α β : Type} {first : Course α} {next : Except Fault α → World → Course β}
      {world point : World} {closings : List Closing}
      (passes : Passes first world closings point) :
      Passes (.proceed first next) world closings point
  | inNext {α β : Type} {first : Course α} {next : Except Fault α → World → Course β}
      {world between point : World} {outcome : Except Fault α} {closings : List Closing}
      (ended : first.perform.runFrom world = (outcome, between))
      (passes : Passes (next outcome between) between closings point) :
      Passes (.proceed first next) world (first.closed world ++ closings) point

section Unfolding

variable {first : Course α} {next : Except Fault α → World → Course β} {world between : World}
  {outcome : Except Fault α} (ended : first.perform.runFrom world = (outcome, between))

include ended

theorem runFrom_proceed : (proceed first next).perform.runFrom world =
    (next outcome between).perform.runFrom between := by
  show ((next (first.perform.runFrom world).1 (first.perform.runFrom world).2).perform.runFrom
    (first.perform.runFrom world).2) = _
  rw [ended]

theorem closed_proceed : (proceed first next).closed world =
    first.closed world ++ (next outcome between).closed between := by
  rw [closed, ended]

theorem harmless_proceed : (proceed first next).Harmless world ↔
    first.Harmless world ∧ (next outcome between).Harmless between := by
  rw [Harmless, ended]

end Unfolding

/-- A block that is left closes its wrapper, whatever has come of its body. -/
private theorem runFrom_within {d : Managed Value} (canClose : d.holder.canClose = true)
    (body : Course α) (world : World) : ((within d body).perform.runFrom world).2 =
      ((Members.close (.managed d)).runFrom (body.perform.runFrom world).2).2 := by
  rw [perform, if_pos canClose, Members.close, if_pos canClose, bracket]
  rcases ran : body.perform.runFrom world with ⟨outcome, ended⟩
  rw [runFrom_closing ran]
  rcases (Members.closeInside d.basic).runFrom ended with ⟨fault | _, after⟩ <;> rfl

private theorem closed_within {d : Managed Value} (canClose : d.holder.canClose = true)
    (body : Course α) (world : World) : (within d body).closed world = body.closed world ++
      closingsIn (body.perform.runFrom world).2 (Value.closedBy (.managed d)) := by
  rw [closed, if_pos canClose]

/-! ## Counting -/

/-- In a whole course each client is closed as often as wrappers around it are. -/
theorem counts_perform {course : Course α} {world : World} (harmless : course.Harmless world) :
    world.store.Counts (course.perform.runFrom world).2.store
      (closingsAmong (course.closed world)) := by
  induction course generalizing world with
  | act body spares => exact .of_spares (spares world).1
  | other body => exact .of_spares harmless
  | close d => exact counts_close_managed world d
  | within d body inductionHypothesis =>
      cases canClose : d.holder.canClose with
      | false =>
          rw [perform, closed, if_neg (canClose ▸ Bool.false_ne_true),
            if_neg (canClose ▸ Bool.false_ne_true)]
          exact .of_spares (.of_closings_eq rfl)
      | true =>
          have inside := inductionHypothesis harmless
          have leaving := counts_close_managed (body.perform.runFrom world).2 d
          rw [runFrom_within canClose, closed_within canClose]
          exact (inside.trans leaving).congr fun number => (closingsAmong_append ..).symm
  | proceed first next firstHypothesis nextHypothesis =>
      rcases ended : first.perform.runFrom world with ⟨outcome, between⟩
      rw [harmless_proceed ended] at harmless
      have before := firstHypothesis harmless.1
      have after := nextHypothesis outcome between harmless.2
      rw [ended] at before
      rw [runFrom_proceed ended, closed_proceed ended]
      exact (before.trans after).congr fun number => (closingsAmong_append ..).symm

/-- At every point of a course each client was closed as often as wrappers around it were. -/
theorem counts_passes {course : Course α} {world point : World} {closings : List Closing}
    (passes : Passes course world closings point) (harmless : course.Harmless world) :
    world.store.Counts point.store (closingsAmong closings) := by
  induction passes with
  | begins course world => exact .of_spares (.of_closings_eq rfl)
  | ends course world => exact counts_perform harmless
  | inBlock canClose passes inductionHypothesis => exact inductionHypothesis harmless
  | @inFirst _ _ first next world point closings passes inductionHypothesis =>
      rcases ended : first.perform.runFrom world with ⟨outcome, between⟩
      rw [harmless_proceed ended] at harmless
      exact inductionHypothesis harmless.1
  | inNext ended passes inductionHypothesis =>
      rw [harmless_proceed ended] at harmless
      have before := counts_perform harmless.1
      rw [ended] at before
      exact (before.trans (inductionHypothesis harmless.2)).congr fun number =>
        (closingsAmong_append ..).symm

end Course

end Presence.Managed
