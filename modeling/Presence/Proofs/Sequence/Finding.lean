import Presence.Proofs.Sequence.Pipeline
import Presence.Proofs.Session.Steps

/-!
Contract: what searches find, and what filters keep, of the same items by the same test.

Owns: `searchFrom`, a search through items one after the other; `Judges`, a test whose outcome
depends on nothing but the item; `Search`, the items that a search asks about and what it comes to;
`Splits`, items that are kept or dropped one by one; `Returns`, computations that return the same as
long as something holds of the state; that finding an item, finding its place and asking whether
there is one ask about the same items and agree, also with what keeping and removing leave
(`searches_agree`).

Does not own: the calls of tests that depend on more (`Presence.Proofs.Calls.Feed`).

A search ends at the first item that passes or at which the test fails. Faults are told apart by a
view of them, since a test may raise a new fault object at every call.
-/

namespace Presence

open Attempt Calls Session

variable {m : Type → Type} [Monad m] {σ α β γ : Type}

namespace Feed

/-- Goes through items from a place on, up to the first that passes. -/
def searchFrom (p : α → Attempt m Bool) : (place : Nat) → List α → Attempt m (Option (α × Nat))
  | _, [] => pure none
  | place, item :: rest => do
      if ← p item then return some (item, place) else searchFrom p (place + 1) rest

/-- Items that are all there are searched as their list is. -/
theorem findPlace_ofList [LawfulMonad m] (items : List α) (p : α → Attempt m Bool) :
    (ofList items : Feed m α).findPlace p = searchFrom p 0 items := by
  have goesOn (before : List α) :
      (do
        let state ← (ofList (before ++ items) : Feed m α).goFrom
          (fun item (sofar : Nat × Option (α × Nat)) => do
            return if ← p item then .done (sofar.1, some (item, sofar.1))
              else .yield (sofar.1 + 1, none))
          ((ofList (before ++ items) : Feed m α).bound - before.length) before.length
          (before.length, none)
        return state.2) = searchFrom p before.length items := by
    induction items generalizing before with
    | nil =>
        rw [goFrom_itemAt, itemAt_ofList, List.append_nil, List.getElem?_eq_none (Nat.le_refl _)]
        simp [searchFrom]
    | cons item rest inductionHypothesis =>
        rw [goFrom_itemAt, itemAt_ofList, List.getElem?_append_right (Nat.le_refl _), Nat.sub_self,
          List.getElem?_cons_zero, pure_bind, searchFrom]
        simp only [bind_assoc, pure_bind]
        apply bind_congr
        intro passes
        cases passes with
        | true => simp
        | false =>
            have later := inductionHypothesis (before ++ [item])
            rw [List.append_assoc, List.length_append] at later
            exact later
  rw [findPlace]
  exact goesOn []

end Feed

namespace Sequence

open Feed

/-! ## Searches -/

/-- The item that a search has found, if there is one. -/
def foundItem (found : Option (α × Nat)) : Optional Value α :=
  match found with
  | some (item, _) => .ok item
  | none => .notOk .null

/-- The place of the item that a search has found. -/
def foundPlace (found : Option (α × Nat)) : Optional Value Nat :=
  match found with
  | some (_, place) => .ok place
  | none => .notOk (.ofKind .int)

section Searches

variable [LawfulMonad m] (s : Sequence (List α)) (p : α → Attempt m Bool)

private theorem find_eq : s.find p = (do return foundItem (← searchFrom p 0 s.items)) := by
  rw [find, Feed.find, feed, findPlace_ofList]
  apply bind_congr
  intro found
  cases found <;> rfl

private theorem indexWhere_eq :
    s.indexWhere p = (do return foundPlace (← searchFrom p 0 s.items)) := by
  rw [indexWhere, Feed.indexWhere, feed, findPlace_ofList]
  apply bind_congr
  intro found
  cases found <;> rfl

private theorem any_eq :
    s.any p = Attempt.sealed (do return (← searchFrom p 0 s.items).isSome) := by
  rw [any, anyPasses, Feed.any, feed, findPlace_ofList]

end Searches

/-! ## Tests that depend on the item alone -/

/-- The outcome of a test depends on the item alone, as far as its faults are viewed, as long as
something holds of the state that it leaves so, and is never the end of an iteration. -/
structure Judges (holds : σ → Prop) (view : Fault → γ) (p : α → Attempt (StateM σ) Bool)
    (items : List α) (verdict : α → Except γ Bool) : Prop where
  outcome : ∀ x ∈ items, ∀ start, holds start →
    ((p x).runFrom start).1.mapError view = verdict x
  stays : ∀ x ∈ items, ∀ start answer after, holds start →
    (p x).runFrom start = (.ok answer, after) → holds after
  goesOn : ∀ x ∈ items, ∀ start fault after, holds start →
    (p x).runFrom start = (.error fault, after) → fault.kind ≠ .stopIteration

section Judged

variable {holds : σ → Prop} {view : Fault → γ} {p : α → Attempt (StateM σ) Bool}
  {verdict : α → Except γ Bool} {items : List α} {x : α} {start : σ}

theorem Judges.answers (judges : Judges holds view p items verdict) (member : x ∈ items)
    {passes : Bool} (judged : verdict x = .ok passes) (isSo : holds start) :
    ∃ after, (p x).runFrom start = (.ok passes, after) ∧ holds after := by
  have viewed := judges.outcome x member start isSo
  rw [judged] at viewed
  rcases called : (p x).runFrom start with ⟨fault | answer, after⟩
  · rw [called] at viewed
    cases viewed
  · rw [called] at viewed
    cases viewed
    exact ⟨after, rfl, judges.stays x member _ _ _ isSo called⟩

private theorem Judges.fails (judges : Judges holds view p items verdict) (member : x ∈ items)
    {fault : γ} (judged : verdict x = .error fault) (isSo : holds start) :
    ∃ raised after, (p x).runFrom start = (.error raised, after) ∧ view raised = fault ∧
      raised.kind ≠ .stopIteration := by
  have viewed := judges.outcome x member start isSo
  rw [judged] at viewed
  rcases called : (p x).runFrom start with ⟨raised | answer, after⟩
  · rw [called] at viewed
    cases viewed
    exact ⟨raised, after, rfl, rfl, judges.goesOn x member _ _ _ isSo called⟩
  · rw [called] at viewed
    cases viewed

private theorem Judges.others {rest : List α} (judges : Judges holds view p (x :: rest) verdict) :
    Judges holds view p rest verdict where
  outcome y member := judges.outcome y (List.mem_cons_of_mem x member)
  stays y member := judges.stays y (List.mem_cons_of_mem x member)
  goesOn y member := judges.goesOn y (List.mem_cons_of_mem x member)

end Judged

/-- The items that a search asks about, up to the first that passes or at which the test fails, and
what it comes to: that item with its place, or that fault. If there is no such item, it asks about
them all and finds none. -/
inductive Search (verdict : α → Except γ Bool) (place : Nat) :
    (items asked : List α) → Except γ (Option (α × Nat)) → Prop where
  | missing {items : List α} (failing : ∀ x ∈ items, verdict x = .ok false) :
      Search verdict place items items (.ok none)
  | found {before : List α} (failing : ∀ x ∈ before, verdict x = .ok false) {x : α}
      (passes : verdict x = .ok true) (rest : List α) :
      Search verdict place (before ++ x :: rest) (before ++ [x])
        (.ok (some (x, place + before.length)))
  | raises {before : List α} (failing : ∀ x ∈ before, verdict x = .ok false) {x : α} {fault : γ}
      (raised : verdict x = .error fault) (rest : List α) :
      Search verdict place (before ++ x :: rest) (before ++ [x]) (.error fault)

section Searched

variable {verdict : α → Except γ Bool} {place : Nat} {x : α} {items asked : List α}
  {result : Except γ (Option (α × Nat))}

private theorem Search.here (passes : verdict x = .ok true) (rest : List α) :
    Search verdict place (x :: rest) [x] (.ok (some (x, place))) :=
  show Search verdict place ([] ++ x :: rest) ([] ++ [x]) _ from .found nofun passes rest

private theorem Search.stops {fault : γ} (raised : verdict x = .error fault) (rest : List α) :
    Search verdict place (x :: rest) [x] (.error fault) :=
  show Search verdict place ([] ++ x :: rest) ([] ++ [x]) _ from .raises nofun raised rest

private theorem Search.later (fails : verdict x = .ok false)
    (search : Search verdict (place + 1) items asked result) :
    Search verdict place (x :: items) (x :: asked) result := by
  cases search with
  | missing failing => exact .missing (List.forall_mem_cons.mpr ⟨fails, failing⟩)
  | @found before failing y passes rest =>
      have found : Search verdict place (x :: before ++ y :: rest) (x :: before ++ [y])
          (.ok (some (y, place + (x :: before).length))) :=
        .found (List.forall_mem_cons.mpr ⟨fails, failing⟩) passes rest
      rw [List.length_cons, ← Nat.add_assoc, Nat.add_right_comm] at found
      exact found
  | raises failing raised rest =>
      exact .raises (List.forall_mem_cons.mpr ⟨fails, failing⟩) raised rest

end Searched

/-- What a search comes to from some state, with its calls on record or without a record, and what
holds of the state if the search has not failed. -/
structure Searches (holds : σ → Prop) (p : α → Attempt (StateM σ) Bool) (place : Nat)
    (items : List α) (start : σ) (calls : List (Entry α Bool))
    (outcome : Except Fault (Option (α × Nat))) (after : σ) : Prop where
  plain : (searchFrom p place items).runFrom start = (outcome, after)
  recorded (record : List (Entry α Bool)) :
    (searchFrom (recorded p) place items).runFrom ⟨start, record⟩ =
      (outcome, ⟨after, record ++ calls⟩)
  stays {found : Option (α × Nat)} : outcome = .ok found → holds after
  goesOn {fault : Fault} : outcome = .error fault → fault.kind ≠ .stopIteration

/-- A search by a test that depends on the item alone asks about the same items and comes to the
same, whatever state it begins in. -/
theorem exists_search {holds : σ → Prop} {view : Fault → γ} {p : α → Attempt (StateM σ) Bool}
    {items : List α} {verdict : α → Except γ Bool} (judges : Judges holds view p items verdict)
    (place : Nat) :
    ∃ asked result, Search verdict place items asked result ∧ ∀ start, holds start →
      ∃ calls outcome after, Searches holds p place items start calls outcome after ∧
        calls.map Entry.argument = asked ∧ outcome.mapError view = result := by
  induction items generalizing place with
  | nil =>
      refine ⟨[], .ok none, .missing nofun,
        fun start isSo => ⟨[], .ok none, start, ?_, rfl, rfl⟩⟩
      exact ⟨rfl, fun record => by rw [List.append_nil]; rfl, fun _ => isSo, nofun⟩
  | cons x rest inductionHypothesis =>
      have isFirst : x ∈ x :: rest := List.mem_cons_self
      cases judged : verdict x with
      | error fault =>
          refine ⟨[x], .error fault, .stops judged rest, fun start isSo => ?_⟩
          obtain ⟨raised, after, called, rfl, goesOn⟩ := judges.fails isFirst judged isSo
          refine ⟨[⟨x, .error raised⟩], .error raised, after,
            ⟨?_, fun record => ?_, nofun, ?_⟩, rfl, rfl⟩
          · exact runFrom_bind_of_error _ called
          · exact runFrom_bind_of_error _ (runFrom_recorded called record)
          · rintro _ ⟨⟩
            exact goesOn
      | ok passes =>
          cases passes with
          | true =>
              refine ⟨[x], .ok (some (x, place)), .here judged rest, fun start isSo => ?_⟩
              obtain ⟨after, called, still⟩ := judges.answers isFirst judged isSo
              refine ⟨[⟨x, .ok true⟩], .ok (some (x, place)), after,
                ⟨?_, fun record => ?_, fun _ => still, nofun⟩, rfl, rfl⟩
              · exact runFrom_bind_of_ok _ called
              · exact runFrom_bind_of_ok _ (runFrom_recorded called record)
          | false =>
              obtain ⟨asked, result, search, each⟩ :=
                inductionHypothesis judges.others (place + 1)
              refine ⟨x :: asked, result, search.later judged, fun start isSo => ?_⟩
              obtain ⟨middle, called, still⟩ := judges.answers isFirst judged isSo
              obtain ⟨calls, outcome, after, ran, rfl, viewed⟩ := each middle still
              refine ⟨⟨x, .ok false⟩ :: calls, outcome, after,
                ⟨?_, fun record => ?_, ran.stays, ran.goesOn⟩, rfl, viewed⟩
              · exact (runFrom_bind_of_ok _ called).trans ran.plain
              · have goesOn := ran.recorded (record ++ [⟨x, .ok false⟩])
                rw [List.append_assoc] at goesOn
                exact (runFrom_bind_of_ok _ (runFrom_recorded called record)).trans goesOn

/-! ## Operations that search -/

/-- What an operation that calls a test ends in from some state, with the calls on record or without
a record. -/
structure Ends (operation : ∀ {τ : Type}, (α → Attempt (StateM τ) Bool) → Attempt (StateM τ) β)
    (p : α → Attempt (StateM σ) Bool) (start : σ) (calls : List (Entry α Bool))
    (outcome : Except Fault β) (after : σ) : Prop where
  plain : (operation p).runFrom start = (outcome, after)
  recorded : (operation (Calls.recorded p)).runFrom ⟨start, []⟩ = (outcome, ⟨after, calls⟩)

section Operations

variable {holds : σ → Prop} {p : α → Attempt (StateM σ) Bool} {start after : σ}
  {calls : List (Entry α Bool)} {outcome : Except Fault (Option (α × Nat))}

theorem Searches.find {s : Sequence (List α)}
    (searches : Searches holds p 0 s.items start calls outcome after) :
    Ends (fun p => s.find p) p start calls (outcome.map foundItem) after := by
  constructor
  · rw [find_eq]
    exact runFrom_return searches.plain foundItem
  · rw [find_eq]
    exact runFrom_return (searches.recorded []) foundItem

private theorem Searches.indexWhere {s : Sequence (List α)}
    (searches : Searches holds p 0 s.items start calls outcome after) :
    Ends (fun p => s.indexWhere p) p start calls (outcome.map foundPlace) after := by
  constructor
  · rw [indexWhere_eq]
    exact runFrom_return searches.plain foundPlace
  · rw [indexWhere_eq]
    exact runFrom_return (searches.recorded []) foundPlace

private theorem Searches.any {s : Sequence (List α)}
    (searches : Searches holds p 0 s.items start calls outcome after) :
    Ends (fun p => s.any p) p start calls (outcome.map Option.isSome) after := by
  -- No fault of the test is the end of an iteration, so that each leaves as it is.
  have leaves : (outcome.map Option.isSome).mapError stopped = outcome.map Option.isSome := by
    cases outcome with
    | ok found => rfl
    | error fault =>
        exact congrArg Except.error ((stopped_eq_self_iff fault).mpr (searches.goesOn rfl))
  constructor
  · rw [any_eq, runFrom_sealed, runFrom_return searches.plain Option.isSome, leaves]
  · rw [any_eq, runFrom_sealed, runFrom_return (searches.recorded []) Option.isSome, leaves]
    rfl

end Operations

/-! ## Items that are kept and items that are dropped -/

/-- Each item goes to those that are kept, if it passes, or to those that are dropped. Both stay in
the order of the items. -/
inductive Splits (passes : α → Bool) : (items kept dropped : List α) → Prop where
  | nil : Splits passes [] [] []
  | keep {x : α} {items kept dropped : List α} (isSo : passes x = true)
      (rest : Splits passes items kept dropped) :
      Splits passes (x :: items) (x :: kept) dropped
  | drop {x : α} {items kept dropped : List α} (isNot : passes x = false)
      (rest : Splits passes items kept dropped) :
      Splits passes (x :: items) kept (x :: dropped)

private theorem splits_filter (passes : α → Bool) (items : List α) :
    Splits passes items (items.filter passes) (items.filter fun x => !passes x) := by
  induction items with
  | nil => exact .nil
  | cons x rest inductionHypothesis =>
      cases isSo : passes x with
      | true =>
          rw [List.filter_cons_of_pos isSo, List.filter_cons_of_neg (by simp [isSo])]
          exact .keep isSo inductionHypothesis
      | false =>
          rw [List.filter_cons_of_neg (by simp [isSo]), List.filter_cons_of_pos (by simp [isSo])]
          exact .drop isSo inductionHypothesis

/-- A search by a test that always returns finds the first item that is kept. -/
theorem Search.exists_found {verdict : α → Except γ Bool} {passes : α → Bool} {place : Nat}
    {items asked : List α} {result : Except γ (Option (α × Nat))}
    (search : Search verdict place items asked result)
    (total : ∀ x ∈ items, verdict x = .ok (passes x)) :
    ∃ found, result = .ok found ∧ found.map Prod.fst = (items.filter passes).head? := by
  have passes_eq {x : α} (member : x ∈ items) {answer : Bool} (judged : verdict x = .ok answer) :
      passes x = answer := Except.ok.inj ((total x member).symm.trans judged)
  cases search with
  | missing failing =>
      have noneKept : items.filter passes = [] :=
        List.filter_eq_nil_iff.mpr fun x member => by simp [passes_eq member (failing x member)]
      exact ⟨none, rfl, by rw [noneKept]; rfl⟩
  | @found before failing x isSo rest =>
      have noneBefore : before.filter passes = [] :=
        List.filter_eq_nil_iff.mpr fun y member => by
          simp [passes_eq (List.mem_append_left _ member) (failing y member)]
      have passed : passes x = true := passes_eq (List.mem_append_right _ List.mem_cons_self) isSo
      refine ⟨some (x, place + before.length), rfl, ?_⟩
      rw [List.filter_append, noneBefore, List.nil_append, List.filter_cons_of_pos passed]
      rfl
  | raises failing raised rest =>
      cases (total _ (List.mem_append_right _ List.mem_cons_self)).symm.trans raised

/-! ## Computations that return -/

/-- As long as something holds of the state, a computation returns the same, and leaves that so. -/
def Returns (holds : σ → Prop) (body : Attempt (StateM σ) α) (result : α) : Prop :=
  ∀ start, holds start → ∃ after, body.runFrom start = (.ok result, after) ∧ holds after

section Returning

variable {holds : σ → Prop}

theorem Returns.bind {first : Attempt (StateM σ) α} {next : α → Attempt (StateM σ) β} {given : α}
    {result : β} (begins : Returns holds first given) (goesOn : Returns holds (next given) result) :
    Returns holds (first >>= next) result := by
  intro start isSo
  obtain ⟨middle, began, between⟩ := begins start isSo
  rw [runFrom_bind_of_ok next began]
  exact goesOn middle between

theorem Returns.return {body : Attempt (StateM σ) α} {result : α}
    (returns : Returns holds body result) (g : α → β) :
    Returns holds (do return g (← body)) (g result) :=
  returns.bind fun start isSo => ⟨start, rfl, isSo⟩

private theorem Returns.sealed {body : Attempt (StateM σ) α} {result : α}
    (returns : Returns holds body result) : Returns holds (Attempt.sealed body) result := by
  intro start isSo
  obtain ⟨after, ended, still⟩ := returns start isSo
  rw [runFrom_sealed, ended]
  exact ⟨after, rfl, still⟩

variable {p : α → Attempt (StateM σ) Bool} {passes : α → Bool}

/-- A test that always returns lets the items through that pass. -/
private theorem returns_sweep {items : List α}
    (returns : ∀ x ∈ items, Returns holds (p x) (passes x)) :
    Returns holds (sweep (fun x => do return if ← p x then [x] else []) items)
      (items.filter passes) := by
  induction items with
  | nil => exact fun start isSo => ⟨start, rfl, isSo⟩
  | cons x rest inductionHypothesis =>
      have both : (if passes x then [x] else []) ++ rest.filter passes =
          (x :: rest).filter passes := by
        rw [List.filter_cons]
        cases passes x <;> rfl
      rw [List.forall_mem_cons] at returns
      rw [sweep_cons, ← both]
      exact (returns.1.return fun passed => if passed then [x] else []).bind
        ((inductionHypothesis returns.2).return _)

variable {s : Sequence (List α)} (returns : ∀ x ∈ s.items, Returns holds (p x) (passes x))

include returns

theorem returns_keepIf : Returns holds (s.keepIf p) ⟨s.items.filter passes⟩ := by
  have filtered := returns_sweep returns
  rw [← filter_ofList] at filtered
  exact filtered.sealed.return _

/-- The items that are removed are those that pass, so that the opposite test keeps the others. -/
theorem returns_removeIf : Returns holds (s.removeIf p) ⟨s.items.filter fun x => !passes x⟩ :=
  returns_keepIf fun x member => (returns x member).return (!·)

end Returning

/-! ## All searches and filters -/

/-- A test whose outcome depends on the item alone, as long as something holds of the state that it
leaves so, and which never raises the end of an iteration, makes finding an item, finding its place
and asking whether there is one ask about the same items, up to the first that passes or at which
the test fails, whatever such states they begin in. They come to that item, to its place and to
there being one, or all three to that fault; where there is no such item, to absence, of which the
place counts as nought, and to there being none. If the test always returns, keeping and removing
split the items one by one in their order, there is an item that passes exactly if any are kept, and
the first of these is the one that is found. A session does the same with the operations for all of
these. -/
theorem searches_agree {holds : σ → Prop} {view : Fault → γ} {p : α → Attempt (StateM σ) Bool}
    {s : Sequence (List α)} {verdict : α → Except γ Bool}
    (judges : Judges holds view p s.items verdict) :
    (∃ asked result, Search verdict 0 s.items asked result ∧ ∀ start, holds start →
      ∃ (calls : List (Entry α Bool)) (outcome : Except Fault (Option (α × Nat))) (after : σ),
        calls.map Entry.argument = asked ∧ outcome.mapError view = result ∧
        Ends (fun p => s.find p) p start calls (outcome.map foundItem) after ∧
        Ends (fun p => s.indexWhere p) p start calls (outcome.map foundPlace) after ∧
        Ends (fun p => s.any p) p start calls (outcome.map Option.isSome) after) ∧
    (∀ passes : α → Bool, (∀ x ∈ s.items, verdict x = .ok (passes x)) → ∃ kept dropped,
      Splits passes s.items kept dropped ∧
        Returns holds (s.keepIf p) ⟨kept⟩ ∧
        Returns holds (s.removeIf p) ⟨dropped⟩ ∧
        Returns holds (s.any p) (!kept.isEmpty) ∧
        Returns holds (s.find p) (kept.head?.elim (.notOk .null) .ok)) ∧
    ∀ (call : Caller) (t : Sequence (List Value)) (f : Value),
      performSequence call .find [.ofSequence t, f] =
        (do return .option (← t.find (test call f))) ∧
      performSequence call .indexWhere [.ofSequence t, f] = (do
        match ← t.indexWhere (test call f) with
        | .ok place => return .option (.ok (.int place))
        | .notOk kind => return .option (.notOk kind)) ∧
      performOption call .orZero [.option (.notOk (.ofKind .int))] = pure (.int 0) ∧
      performSequence call .any [.ofSequence t, f] =
        (do return .bool (← t.any (test call f))) ∧
      performSequence call .keepIf [.ofSequence t, f] =
        (do return .ofSequence (← t.keepIf (test call f))) ∧
      performSequence call .removeIf [.ofSequence t, f] =
        (do return .ofSequence (← t.removeIf (test call f))) := by
  obtain ⟨asked, result, search, each⟩ := exists_search judges 0
  refine ⟨⟨asked, result, search, fun start isSo => ?_⟩, fun passes total => ?_,
    fun call t f => ?_⟩
  · obtain ⟨calls, outcome, after, ran, isAsked, viewed⟩ := each start isSo
    exact ⟨calls, outcome, after, isAsked, viewed, ran.find, ran.indexWhere, ran.any⟩
  · have returns : ∀ x ∈ s.items, Returns holds (p x) (passes x) := fun x member _ isSo =>
      judges.answers member (total x member) isSo
    obtain ⟨found, rfl, isFirst⟩ := search.exists_found total
    have finds {start : σ} (isSo : holds start) :
        ∃ calls after, Searches holds p 0 s.items start calls (.ok found) after := by
      obtain ⟨calls, fault | _, after, ran, -, viewed⟩ := each start isSo <;> cases viewed
      exact ⟨calls, after, ran⟩
    refine ⟨_, _, splits_filter passes s.items, returns_keepIf returns,
      returns_removeIf returns, fun start isSo => ?_, fun start isSo => ?_⟩
    · obtain ⟨calls, after, ran⟩ := finds isSo
      have anyKept : found.isSome = !(s.items.filter passes).isEmpty := by
        rw [← Option.isSome_map, isFirst]
        cases s.items.filter passes <;> rfl
      rw [ran.any.plain, ← anyKept]
      exact ⟨after, rfl, ran.stays rfl⟩
    · obtain ⟨calls, after, ran⟩ := finds isSo
      rw [ran.find.plain, ← isFirst]
      refine ⟨after, ?_, ran.stays rfl⟩
      cases found <;> rfl
  · exact ⟨rfl, rfl, rfl, rfl, performSequence_eq_run call .keepIf t f,
      performSequence_eq_run call .removeIf t f⟩

/-- A world with a function that tells whether a value is above three. -/
def gauge : World :=
  { World.start ⟨[]⟩ ⟨2024, 2, 29, 1, 2, 3, 0⟩ with
    store := { Store.empty with
      functions := #[.given (.binary (.order .greater) (some (.scalar (.int 3))))] } }

/-- The function is that of the gauge. -/
def HasGauge (world : World) : Prop := world.store.functions = gauge.store.functions

def aboveThree : Value → Run Bool := test Session.call (.handle .function 0)

/-- A text is neither above three nor not. -/
def verdictOf (x : Value) : Except FaultKind Bool :=
  (Value.compare? .greater x (.int 3)).elim (.error .type) .ok

private theorem runFrom_aboveThree {world : World} (hasGauge : HasGauge world) {x : Value}
    (member : x ∈ [.int 1, .int 5, .text "six"]) :
    (aboveThree x).runFrom world =
      ((Value.compare? .greater x (.int 3)).elim (.error .wrongType) .ok, world) := by
  have known : world.store.functions[0]? =
      some (.given (.binary (.order .greater) (some (.scalar (.int 3))))) := by
    rw [show world.store.functions = _ from hasGauge]
    rfl
  have called : (Session.call (.handle .function 0) [x]).runFrom world = _ :=
    runFrom_callTo known [x]
  simp only [List.mem_cons, List.not_mem_nil, or_false] at member
  rcases member with rfl | rfl | rfl
  · exact runFrom_bind_of_ok _ called
  · exact runFrom_bind_of_ok _ called
  · exact runFrom_bind_of_error _ called

private theorem judges_aboveThree {items : List Value}
    (among : ∀ x ∈ items, x ∈ [.int 1, .int 5, .text "six"]) :
    Judges HasGauge Fault.kind aboveThree items verdictOf where
  outcome x member world hasGauge := by
    rw [runFrom_aboveThree hasGauge (among x member), verdictOf]
    cases Value.compare? .greater x (.int 3) <;> rfl
  stays x member world answer after hasGauge called := by
    rw [runFrom_aboveThree hasGauge (among x member)] at called
    obtain ⟨-, rfl⟩ := Prod.mk.inj called
    exact hasGauge
  goesOn x member world fault after hasGauge raised := by
    rw [runFrom_aboveThree hasGauge (among x member)] at raised
    cases compared : Value.compare? .greater x (.int 3) with
    | some answer =>
        rw [compared] at raised
        cases raised
    | none =>
        rw [compared] at raised
        cases raised
        nofun

/-- Of one, five and a text the second is found, and the text is not asked about. Without the text,
five is kept and one is not. -/
theorem searches_agree_aboveThree :
    HasGauge gauge ∧
    Judges HasGauge Fault.kind aboveThree [.int 1, .int 5, .text "six"] verdictOf ∧
    (∃ s : Sequence (List Value), s.items = [.int 1, .int 5, .text "six"] ∧
      Ends (fun p => s.find p) aboveThree gauge
        [⟨.int 1, .ok false⟩, ⟨.int 5, .ok true⟩] (.ok (.ok (.int 5))) gauge ∧
      Ends (fun p => s.indexWhere p) aboveThree gauge
        [⟨.int 1, .ok false⟩, ⟨.int 5, .ok true⟩] (.ok (.ok 1)) gauge ∧
      Ends (fun p => s.any p) aboveThree gauge
        [⟨.int 1, .ok false⟩, ⟨.int 5, .ok true⟩] (.ok true) gauge ∧
      (performSequence Session.call .find [.ofSequence s, .handle .function 0]).runFrom gauge =
        (.ok (.option (.ok (.int 5))), gauge)) ∧
    ∃ t : Sequence (List Value), t.items = [.int 1, .int 5] ∧
      Returns HasGauge (t.keepIf aboveThree) ⟨[.int 5]⟩ ∧
      Returns HasGauge (t.removeIf aboveThree) ⟨[.int 1]⟩ := by
  have judges : Judges HasGauge Fault.kind aboveThree [.int 1, .int 5, .text "six"] verdictOf :=
    judges_aboveThree fun _ member => member
  have judgesNumbers : Judges HasGauge Fault.kind aboveThree [.int 1, .int 5] verdictOf :=
    judges_aboveThree fun _ member => List.mem_append_left [_] member
  refine ⟨rfl, judges, ⟨⟨[.int 1, .int 5, .text "six"]⟩, rfl, ?_⟩, ⟨[.int 1, .int 5]⟩, rfl, ?_⟩
  · obtain ⟨⟨asked, result, -, each⟩, -, session⟩ :=
      searches_agree (s := ⟨[Value.int 1, .int 5, .text "six"]⟩) judges
    obtain ⟨calls, outcome, after, -, -, finds, places, any⟩ := each gauge rfl
    have found : (.ok (.ok (.int 5)), ⟨gauge, [⟨.int 1, .ok false⟩, ⟨.int 5, .ok true⟩]⟩) =
        (outcome.map foundItem, (⟨after, calls⟩ : Record World Value Bool)) := finds.recorded
    have place : (.ok (.ok 1), gauge) = (outcome.map foundPlace, after) := places.plain
    have isSome : (.ok true, gauge) = (outcome.map Option.isSome, after) := any.plain
    injection found with isItem isRecord
    injection isRecord with isSame isCalls
    injection place with isPlace
    injection isSome with isThere
    rw [← isItem, ← isSame, ← isCalls] at finds
    rw [← isPlace, ← isSame, ← isCalls] at places
    rw [← isThere, ← isSame, ← isCalls] at any
    refine ⟨finds, places, any, ?_⟩
    rw [(session Session.call _ _).1]
    exact runFrom_return finds.plain Value.option
  · obtain ⟨-, splitting, -⟩ := searches_agree (s := ⟨[Value.int 1, .int 5]⟩) judgesNumbers
    obtain ⟨kept, dropped, splits, keeps, removes, -⟩ :=
      splitting (fun x => (Value.compare? .greater x (.int 3)).getD false) (by
        rw [List.forall_mem_cons, List.forall_mem_singleton]
        exact ⟨rfl, rfl⟩)
    rcases splits with _ | ⟨isSo, _⟩ | ⟨_, _ | ⟨_, ⟨⟩⟩ | ⟨isNot, _⟩⟩
    · cases isSo
    · exact ⟨keeps, removes⟩
    · cases isNot

end Sequence

end Presence
