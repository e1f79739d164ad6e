import Mathlib.Data.List.Forall2
import Presence.Proofs.Calls.Schedule
import Presence.Feed

/-!
Contract: two computations that end alike.

Owns: `Alike`, two computations that from one state come to one state, with related results there or
with the same fault; that sequences of such computations end alike, and so do two feeds of related
items that are gone through by bodies that end alike (`Alike.fold`, `Alike.any`).

Does not own: what the results are related by.

While a feed is gone through, its items are related only as long as the states have some property,
which all that is done on the way must keep.
-/

namespace Presence

namespace Attempt

variable {σ α β γ δ : Type}

/-- Results that are related, or the same error. -/
inductive Agree {ε : Type} (related : α → β → Prop) : Except ε α → Except ε β → Prop where
  | ok {a : α} {b : β} (relates : related a b) : Agree related (.ok a) (.ok b)
  | error (e : ε) : Agree related (.error e) (.error e)

theorem Agree.refl {ε : Type} (result : Except ε α) : Agree (fun a b => a = b) result result := by
  cases result with
  | ok a => exact .ok rfl
  | error e => exact .error e

/-- Computations that end alike from a state. -/
inductive Alike (start : σ) (related : σ → α → β → Prop) (first : Attempt (StateM σ) α)
    (second : Attempt (StateM σ) β) : Prop where
  | ok {after : σ} {a : α} {b : β} (ended : first.runFrom start = (.ok a, after))
      (ended' : second.runFrom start = (.ok b, after)) (relates : related after a b)
  | error {after : σ} {fault : Fault} (ended : first.runFrom start = (.error fault, after))
      (ended' : second.runFrom start = (.error fault, after))

namespace Alike

variable {start : σ} {related : σ → α → β → Prop} {first : Attempt (StateM σ) α}
  {second : Attempt (StateM σ) β}

theorem pure {a : α} {b : β} (relates : related start a b) :
    Alike start related (pure a) (pure b) := .ok rfl rfl relates

/-- A computation ends as itself. -/
theorem refl {related : σ → α → α → Prop}
    (relates : ∀ after a, first.runFrom start = (.ok a, after) → related after a a) :
    Alike start related first first := by
  rcases ended : first.runFrom start with ⟨fault | a, after⟩
  · exact .error ended ended
  · exact .ok ended ended (relates after a ended)

theorem mono {related' : σ → α → β → Prop} (alike : Alike start related first second)
    (weaker : ∀ after a b, related after a b → related' after a b) :
    Alike start related' first second := by
  cases alike with
  | ok ended ended' relates => exact .ok ended ended' (weaker _ _ _ relates)
  | error ended ended' => exact .error ended ended'

theorem bind {related' : σ → γ → δ → Prop} {next : α → Attempt (StateM σ) γ}
    {next' : β → Attempt (StateM σ) δ} (alike : Alike start related first second)
    (goesOn : ∀ middle a b, related middle a b → Alike middle related' (next a) (next' b)) :
    Alike start related' (first >>= next) (second >>= next') := by
  cases alike with
  | error ended ended' =>
      exact .error (runFrom_bind_of_error _ ended) (runFrom_bind_of_error _ ended')
  | @ok middle a b ended ended' relates =>
      have opens := runFrom_bind_of_ok next ended
      have opens' := runFrom_bind_of_ok next' ended'
      cases goesOn middle a b relates with
      | ok last last' relates => exact .ok (opens.trans last) (opens'.trans last') relates
      | error last last' => exact .error (opens.trans last) (opens'.trans last')

/-- Results that agree do so as computations. -/
theorem ofExcept {here : α → β → Prop} {result : Except Fault α} {result' : Except Fault β}
    (agree : Agree here result result') (relates : ∀ a b, here a b → related start a b) :
    Alike start related (ofExcept result) (ofExcept result') := by
  cases agree with
  | ok isHere => exact .ok rfl rfl (relates _ _ isHere)
  | error fault => exact .error rfl rfl

theorem ofHash {here : α → β → Prop} {result : Except Kind α} {result' : Except Kind β}
    (agree : Agree here result result') (relates : ∀ a b, here a b → related start a b) :
    Alike start related (ofHash result) (ofHash result') := by
  cases agree with
  | ok isHere => exact .ok rfl rfl (relates _ _ isHere)
  | error kind => exact .error rfl rfl

theorem ofOption {here : α → β → Prop} {result : Option α} {result' : Option β}
    (agree : Option.Rel here result result') (relates : ∀ a b, here a b → related start a b) :
    Alike start related (ofOption result) (ofOption result') := by
  cases agree with
  | some isHere => exact .ok rfl rfl (relates _ _ isHere)
  | none => exact .error rfl rfl

end Alike

/-! ## Going through feeds -/

/-- Feeds that give related items at each place, in states with a property that they keep. -/
structure FeedsAlike (holds : σ → Prop) (items : α → β → Prop) (xs : Feed (StateM σ) α)
    (ys : Feed (StateM σ) β) : Prop where
  bound : xs.bound = ys.bound
  next : ∀ place start, holds start →
    Alike start (fun after x y => holds after ∧ Option.Rel items x y) (xs.next place)
      (ys.next place)

/-- Related states of a loop, both of which go on or both of which are the last. -/
inductive StepsAlike (states : γ → δ → Prop) : ForInStep γ → ForInStep δ → Prop where
  | done {s : γ} {t : δ} (relates : states s t) : StepsAlike states (.done s) (.done t)
  | yield {s : γ} {t : δ} (relates : states s t) : StepsAlike states (.yield s) (.yield t)

theorem getElem?_rel_of_forall₂ {items : α → β → Prop} {xs : List α} {ys : List β}
    (related : List.Forall₂ items xs ys) (place : Nat) :
    Option.Rel items xs[place]? ys[place]? := by
  induction related generalizing place with
  | nil => exact .none
  | cons first _ inductionHypothesis =>
      cases place with
      | zero => exact .some first
      | succ place => exact inductionHypothesis place

theorem feedsAlike_ofList {holds : σ → Prop} {items : α → β → Prop} {xs : List α} {ys : List β}
    (related : List.Forall₂ items xs ys) :
    FeedsAlike holds items (.ofList xs : Feed (StateM σ) α) (.ofList ys) := by
  refine ⟨related.length_eq, fun place start isHeld => .pure ⟨isHeld, ?_⟩⟩
  rw [List.getElem?_toArray, List.getElem?_toArray]
  exact getElem?_rel_of_forall₂ related place

namespace FeedsAlike

variable {holds : σ → Prop} {items : α → β → Prop} {xs : Feed (StateM σ) α}
  {ys : Feed (StateM σ) β}

theorem goFrom (feeds : FeedsAlike holds items xs ys) {states : γ → δ → Prop}
    {body : α → γ → Attempt (StateM σ) (ForInStep γ)}
    {body' : β → δ → Attempt (StateM σ) (ForInStep δ)}
    (bodies : ∀ start, holds start → ∀ x y, items x y → ∀ s t, states s t →
      Alike start (fun after a b => holds after ∧ StepsAlike states a b) (body x s) (body' y t))
    (steps place : Nat) {start : σ} (isHeld : holds start) {s : γ} {t : δ} (relates : states s t) :
    Alike start (fun after s t => holds after ∧ states s t) (xs.goFrom body steps place s)
      (ys.goFrom body' steps place t) := by
  -- On the steps left: the loops stay in related states, of worlds that have the property.
  induction steps generalizing place start s t with
  | zero => exact .pure ⟨isHeld, relates⟩
  | succ steps inductionHypothesis =>
      rw [Feed.goFrom, Feed.goFrom]
      refine (feeds.next place start isHeld).bind fun middle x y ⟨isHeld, given⟩ => ?_
      cases given with
      | none => exact .pure ⟨isHeld, relates⟩
      | some item =>
          refine (bodies middle isHeld _ _ item s t relates).bind fun after a b ⟨isHeld, step⟩ => ?_
          cases step with
          | done relates => exact .pure ⟨isHeld, relates⟩
          | yield relates => exact inductionHypothesis (place + 1) isHeld relates

theorem fold (feeds : FeedsAlike holds items xs ys) {states : γ → δ → Prop}
    {f : γ → α → Attempt (StateM σ) γ} {g : δ → β → Attempt (StateM σ) δ}
    (functions : ∀ start, holds start → ∀ x y, items x y → ∀ s t, states s t →
      Alike start (fun after s t => holds after ∧ states s t) (f s x) (g t y))
    {start : σ} (isHeld : holds start) {s : γ} {t : δ} (relates : states s t) :
    Alike start (fun after s t => holds after ∧ states s t) (xs.fold s f) (ys.fold t g) := by
  rw [Feed.fold, Feed.fold, Feed.go, Feed.go, ← feeds.bound]
  refine feeds.goFrom (fun start isHeld x y item s t relates => ?_) xs.bound 0 isHeld relates
  exact (functions start isHeld x y item s t relates).bind fun after s t ⟨isHeld, relates⟩ =>
    .pure ⟨isHeld, .yield relates⟩

/-- Whether one of the items passes is the same if the tests say the same of related items. -/
theorem any (feeds : FeedsAlike holds items xs ys) {p : α → Attempt (StateM σ) Bool}
    {q : β → Attempt (StateM σ) Bool}
    (tests : ∀ start, holds start → ∀ x y, items x y →
      Alike start (fun after passes passes' => holds after ∧ passes = passes') (p x) (q y))
    {start : σ} (isHeld : holds start) :
    Alike start (fun after found found' => holds after ∧ found = found') (xs.any p) (ys.any q) := by
  have found : Alike start
      (fun after (s : Option (α × Nat)) (t : Option (β × Nat)) =>
        holds after ∧ s.isSome = t.isSome)
      (xs.findPlace p) (ys.findPlace q) := by
    rw [Feed.findPlace, Feed.findPlace, Feed.go, Feed.go, ← feeds.bound]
    refine Alike.bind (?searched : Alike start
      (fun after (s : Nat × Option (α × Nat)) (t : Nat × Option (β × Nat)) =>
        holds after ∧ s.2.isSome = t.2.isSome) _ _) ?_
    · refine feeds.goFrom (fun start isHeld x y item s t _ => ?_) xs.bound 0 isHeld rfl
      refine (tests start isHeld x y item).bind ?_
      rintro after passes _ ⟨isHeld, rfl⟩
      cases passes with
      | true => exact .pure ⟨isHeld, .done rfl⟩
      | false => exact .pure ⟨isHeld, .yield rfl⟩
    · intro after s t relates
      exact .pure relates
  rw [Feed.any, Feed.any]
  exact found.bind fun after s t relates => .pure relates

end FeedsAlike

end Attempt

end Presence
