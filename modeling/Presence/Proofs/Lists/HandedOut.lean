import Presence.Proofs.Lists.Asked
import Presence.Proofs.Lists.Reached

/-!
Contract: lists that are handed out are new.

Owns: `HandsOut`, the operations that hand lists out: zeros of lists, what stands for an absent
list, and the items of sequences; that nothing there was before holds such a list
(`handed_out_lists_fresh`), so that adding to it disturbs nothing; sequences made of the items of a
list, which have a container of their own (`Gathers`).

Does not own: what adding to a list leaves as it was (`Presence.Proofs.Lists.Asked`).
-/

namespace Presence.Session

open Attempt Run

/-! ## Lists handed out -/

/-- The operations that give an empty list: the zero of lists, and what an absent list is taken
for. -/
inductive AsksEmpty : Operation → List Value → Prop where
  | zero : AsksEmpty (.option .zeroOf) [.ofKind .list]
  | absent : AsksEmpty (.option .orZero) [.option (.notOk (.ofKind .list))]

/-- The operations that hand a list out: those that give an empty one, and the items of a sequence
as a list. -/
inductive HandsOut : Operation → List Value → Prop where
  | empty {operation : Operation} {arguments : List Value} (asks : AsksEmpty operation arguments) :
      HandsOut operation arguments
  | items (container : Value) : HandsOut (.sequence .items) [.sequence ⟨container⟩]

theorem perform_of_asksEmpty {operation : Operation} {arguments : List Value}
    (asks : AsksEmpty operation arguments) (call : Caller) :
    perform call operation arguments [] = newList [] := by
  cases asks <;> rfl

/-- A list is told item by item. -/
theorem runFrom_tell_list (number : Nat) (world : World) :
    ∃ depth, (tell (.handle .growing number)).runFrom world = (do
      let told ← (world.store.itemsOf number).mapM (tellTo depth [number])
      Run.lift (Value.list told).requireTellable
      return Value.list told).runFrom world := by
  refine ⟨world.store.lists.size + world.store.iterators.size + world.store.streams.size, ?_⟩
  have read : (listAt number).runFrom world = (.ok (world.store.itemsOf number), world) := rfl
  unfold Run.tell
  rw [runFrom_bind_of_ok _ (runFrom_store world)]
  show (((listAt number >>= fun items => items.mapM (tellTo _ [number])) >>= fun told =>
    pure (Value.list told)) >>= fun told => Run.lift told.requireTellable >>= fun _ =>
      pure told).runFrom world = _
  rw [bind_assoc, bind_assoc, runFrom_bind_of_ok _ read]
  simp only [pure_bind]

/-- An empty list is given in every world, and is told as empty. -/
private theorem answer_of_asksEmpty {operation : Operation} {arguments : List Value}
    (asks : AsksEmpty operation arguments) (world : World) :
    ((answer operation arguments).runFrom world).1 = .ok (.list []) := by
  obtain ⟨result, after, made, isEmpty⟩ : ∃ number after,
      (newList []).runFrom world = (.ok (.handle .growing number), after) ∧
        after.store.itemsOf number = [] := by
    refine ⟨_, _, rfl, ?_⟩
    exact (itemsOf_push world.store #[] world.store.lists.size).trans (if_pos rfl)
  obtain ⟨depth, told⟩ := runFrom_tell_list result after
  unfold answer
  rw [perform_of_asksEmpty asks, runFrom_bind_of_ok _ made, told, isEmpty]
  rfl

private theorem HandsOut.inquires {operation : Operation} {arguments : List Value}
    (handsOut : HandsOut operation arguments) : Inquires operation arguments := by
  cases handsOut with
  | empty asks =>
      cases asks with
      | zero => exact .zeroOf _
      | absent => exact .orZero _
  | items container => exact .items _

/-- What is handed out is a new list of what some values are gone through by, which changes no
list. -/
private theorem exists_newList {operation : Operation} {arguments : List Value}
    (handsOut : HandsOut operation arguments) (call : Caller) {base : Nat}
    (known : AllKnown base arguments) :
    ∃ items : Run (List Value), perform call operation arguments [] = items >>= newList ∧
      Confines (fun _ => False) base items AllKnown := by
  cases handsOut with
  | empty asks =>
      refine ⟨pure [], ?_, .pure fun _ _ => List.forall_mem_nil _⟩
      rw [perform_of_asksEmpty asks, pure_bind]
  | items container =>
      refine ⟨parts container >>= rebuildItems keepRule, ?_, ?_⟩
      · show ((pure container >>= fun v => parts v >>= fun items => pure (Value.list items)) >>=
          keep) = _
        rw [pure_bind, bind_assoc, bind_assoc]
        refine bind_congr fun items => ?_
        rw [pure_bind]
        rfl
      · have isContainer := (List.forall_mem_singleton.mp known).of_sequence
        refine (confines_finds.parts isContainer).bind fun _ _ items areItems => ?_
        exact confines_finds.rebuildItems fun item member => confines_keep (areItems item member)

/-! ## New lists -/

/-- Whatever holds only lists that are kept does not hold a new one. -/
private theorem World.Closed.encloses {world : World} (closed : world.Closed) :
    world.store.Encloses (Handle.Below world.lists) := by
  refine ⟨fun number _ => closed.lists number, fun number _ => ?_⟩
  cases there : world.store.iterators[number]? with
  | none => exact List.forall_mem_nil _
  | some items => exact closed.iterators items (Array.mem_of_getElem? there)

theorem not_below_self (number : Nat) : ¬ Handle.Below number ⟨.growing, number⟩ :=
  fun below => Nat.lt_irrefl _ (below rfl)

/-- A new list makes no difference to those before it. -/
private theorem Store.Encloses.newList {world : World}
    (encloses : world.store.Encloses (Handle.Below world.lists)) (items : List Value) :
    ((newList items).runFrom world).2.store.Encloses (Handle.Below world.lists) := by
  refine ⟨fun number below => ?_, encloses.iterators⟩
  have isOld : number ≠ world.store.lists.size := Nat.ne_of_lt (below rfl)
  show ∀ item ∈ ({ world.store with
    lists := world.store.lists.push items.toArray } : Store).itemsOf number, _
  rw [itemsOf_push, if_neg isOld]
  exact encloses.lists number below

/-- Telling a list takes only what its items hold. -/
private theorem Store.Encloses.tell_list {world : World} {among : Handle → Prop} {number : Nat}
    (encloses : world.store.Encloses among) (apart : ¬ among ⟨.growing, number⟩)
    (holds : ∀ item ∈ world.store.itemsOf number, item.HoldsOnly among) :
    ((tell (.handle .growing number)).runFrom world).2.store.Encloses among := by
  obtain ⟨depth, told⟩ := runFrom_tell_list number world
  have finds : Finds (Overlooks number [] among) fun _ => among := overlooks_finds apart
  have overlooks : Overlooks number [] among 0 (do
      let told ← (world.store.itemsOf number).mapM (tellTo depth [number])
      Run.lift (Value.list told).requireTellable
      return Value.list told) Whatever :=
    Overlooks.next (finds.mapM (rises_holdsAmong finds.grows) fun item member =>
      finds.tellTo depth _ (holds item member)) fun _ =>
        (Overlooks.ofExcept _).next fun _ => .pure fun _ _ => trivial
  rw [told]
  exact (overlooks world (Nat.zero_le _) encloses).2.2.1

/-- What a step does with a list that it has made takes only what the items of the list hold. -/
theorem Store.Encloses.finish {world : World} {among : Handle → Prop} {number : Nat}
    (encloses : world.store.Encloses among) (apart : ¬ among ⟨.growing, number⟩)
    (holds : ∀ item ∈ world.store.itemsOf number, item.HoldsOnly among) (step : Step) :
    ((step.finish (.handle .growing number)).runFrom world).2.store.Encloses among := by
  unfold Step.finish
  split
  · next name _ =>
      let named : World :=
        { world with bindings := (name, .handle .growing number) :: world.bindings }
      have isNamed : named.store.Encloses among := encloses
      exact isNamed.tell_list apart holds
  · exact encloses.tell_list apart holds

/-- A list is new: nothing that was there before it holds it, whether it was given, has a name or is
kept. -/
structure ListIsNew (number : Nat) (arguments : List Value) (before after : World) : Prop where
  isNew : before.lists ≤ number
  isKept : number < after.lists
  given : ∀ argument ∈ arguments, after.store.Apart number argument
  named : ∀ binding ∈ before.bindings, after.store.Apart number binding.2
  apart : ∀ v, Known before.lists v → after.store.Apart number v

private theorem World.Closed.listIsNew {before : World} (closed : before.Closed) {number : Nat}
    {arguments : List Value} (known : AllKnown before.lists arguments)
    (isNew : before.lists ≤ number) {after : World} (isKept : number < after.lists)
    (encloses : after.store.Encloses (Handle.Below number)) :
    ListIsNew number arguments before after := by
  have apart : ∀ v, Known before.lists v → after.store.Apart number v :=
    fun v isKnown => encloses.apart (not_below_self number) (isKnown.later isNew)
  exact ⟨isNew, isKept, fun argument member => apart argument (known argument member),
    fun binding member => apart binding.2 (closed.bindings binding member), apart⟩

/-- What is handed out is the last list that there is, and the lists before it hold only each
other. -/
theorem exists_handedOut {operation : Operation} {arguments : List Value}
    (handsOut : HandsOut operation arguments) {asked given : World} (closed : asked.Closed)
    (known : AllKnown asked.lists arguments) {result : Value}
    (performed : (perform call operation arguments []).runFrom asked = (.ok result, given)) :
    ∃ number, result = .handle .growing number ∧ asked.lists ≤ number ∧
      given.lists = number + 1 ∧ given.store.Encloses (Handle.Below number) ∧
      AllKnown number (given.store.itemsOf number) := by
  obtain ⟨items, isNew, confines⟩ := exists_newList handsOut call known
  obtain ⟨kept, closedBetween, isKnown⟩ := confines asked (Nat.le_refl _) closed
  rw [isNew] at performed
  obtain ⟨own, between, ended, performed⟩ := exists_of_runFrom_bind performed
  rw [ended] at kept closedBetween isKnown
  have encloses := closedBetween.encloses.newList own
  have holds : AllKnown between.lists
      (((newList own).runFrom between).2.store.itemsOf between.lists) := by
    have ownItems := (itemsOf_push between.store own.toArray between.lists).trans (if_pos rfl)
    exact ownItems ▸ isKnown own rfl
  cases performed
  exact ⟨between.lists, rfl, kept.more, Array.size_push _, encloses, holds⟩

/-! ## Sequences made of lists -/

/-- The operations that make a sequence of what a value is gone through by, or extend one by it. -/
inductive Gathers (v : Value) : Operation → List Value → Prop where
  | ofParts : Gathers v (.sequence .ofParts) [v]
  | extend (before : Value) : Gathers v (.sequence .extend) [before, v]

private theorem keep_sequence (items : List Value) :
    keep (sequence items) = (do return sequence (← rebuildItems keepRule items)) := by
  show ((rebuildItems keepRule items >>= fun own => pure (Value.tuple own)) >>= fun container =>
    (pure container : Run Value) >>= fun container => pure (Value.sequence ⟨container⟩)) = _
  simp only [bind_assoc, pure_bind]
  rfl

/-- Such a sequence has a container of its own. -/
private theorem exists_gathered {v made : Value} {operation : Operation} {arguments : List Value}
    (gathers : Gathers v operation arguments) {world after : World}
    (performed : (perform call operation arguments []).runFrom world = (.ok made, after)) :
    ∃ own, made = sequence own := by
  have kept {items : List Value} {before : World}
      (returns : (keep (sequence items)).runFrom before = (.ok made, after)) :
      ∃ own, made = sequence own := by
    rw [keep_sequence] at returns
    obtain ⟨own, _, -, returns⟩ := exists_of_runFrom_bind returns
    cases returns
    exact ⟨own, rfl⟩
  cases gathers with
  | ofParts =>
      have opened : perform call (.sequence .ofParts) [v] [] =
          (parts v >>= fun items => pure (sequence items)) >>= keep := rfl
      rw [opened] at performed
      obtain ⟨result, _, given, performed⟩ := exists_of_runFrom_bind performed
      obtain ⟨items, _, -, given⟩ := exists_of_runFrom_bind given
      cases given
      exact kept performed
  | extend before =>
      have opened : perform call (.sequence .extend) [before, v] [] =
          (containerOf before >>= fun container => parts v >>= fun others =>
            tupleOf container >>= fun items => pure (sequence (items ++ others))) >>= keep := rfl
      rw [opened] at performed
      obtain ⟨result, _, given, performed⟩ := exists_of_runFrom_bind performed
      obtain ⟨container, _, -, given⟩ := exists_of_runFrom_bind given
      obtain ⟨others, _, -, given⟩ := exists_of_runFrom_bind given
      obtain ⟨items, _, -, given⟩ := exists_of_runFrom_bind given
      cases given
      exact kept performed

/-- A sequence with a container of its own is gone through by the same items at all times. -/
private theorem parts_sequence (own : List Value) : parts (sequence own) = pure own := by
  show (Feed.ofList own).toList = _
  exact Feed.toList_ofList own

/-! ## At any time later -/

/-- What calls that add to a list come to: they disturb nothing that does not hold the list; empty
lists are still given as empty; what is handed out from elsewhere does not hold the list; and what
was gathered from it before has items of its own. -/
structure World.Separate (world : World) (number : Nat) : Prop where
  undisturbed : ∀ items, world.Undisturbed number ((appendAll call number items).runFrom world).2
  empty : ∀ items operation arguments, AsksEmpty operation arguments →
    ((answer operation arguments).runFrom ((appendAll call number items).runFrom world).2).1 =
      .ok (.list [])
  handedOut : ∀ operation arguments result after, HandsOut operation arguments →
    (∀ argument ∈ arguments, world.store.Apart number argument) →
      (perform call operation arguments []).runFrom world = (.ok result, after) →
        after.store.Apart number result
  gathered : ∀ operation arguments made after,
    Gathers (.handle .growing number) operation arguments →
      (perform call operation arguments []).runFrom world = (.ok made, after) →
        ∃ own, made = sequence own ∧ ∀ later : World, (parts made).runFrom later = (.ok own, later)

private theorem World.separate {world : World} {number : Nat} (inside : number < world.lists) :
    world.Separate number := by
  refine ⟨undisturbed_appendAll inside, fun _ _ _ asks => answer_of_asksEmpty asks _, ?_, ?_⟩
  · intro operation arguments result after handsOut areApart performed
    exact apart_of_asked inside handsOut.inquires areApart performed
  · intro operation arguments made after gathers performed
    obtain ⟨own, rfl⟩ := exists_gathered gathers performed
    refine ⟨own, rfl, fun later => ?_⟩
    rw [parts_sequence]
    rfl

/-- The world after some steps of a session. -/
def World.reached (environment : Environment) (now : Moment) (steps : List Step) : World :=
  (runSteps steps (.start environment now)).2

/-- The arguments of a step hold only lists that are kept by then. -/
theorem closed_made {step : Step} (names : step.namesNoSource = true) {world asked : World}
    (closed : world.Closed) {arguments : List Value} {keywords : Keywords}
    (made : step.made.runFrom world.fresh = (.ok (arguments, keywords), asked)) :
    asked.Closed ∧ AllKnown asked.lists arguments := by
  have confines : Confines Anywhere 0 step.made _ := confines_made names
  obtain ⟨-, closedAsked, areKnown⟩ :=
    confines world.fresh (Nat.zero_le _) (world.alike_fresh.closed closed)
  rw [made] at closedAsked areKnown
  exact ⟨closedAsked, (areKnown _ rfl).1⟩

/-- A step names what its operation gives and tells it. -/
theorem runStep_of_performed {step : Step} {operation : Operation}
    (isOperation : step.operation = some operation) {world asked given : World}
    {arguments : List Value} {keywords : Keywords} {result : Value}
    (made : step.made.runFrom world.fresh = (.ok (arguments, keywords), asked))
    (performed : (perform call operation arguments keywords).runFrom asked = (.ok result, given)) :
    (runStep step world).2 = ((step.finish result).runFrom given).2 := by
  have stepped : (performStep step).runFrom world.fresh = (step.finish result).runFrom given := by
    rw [performStep_eq isOperation, runFrom_bind_of_ok _ made]
    exact runFrom_bind_of_ok _ performed
  rcases ended : (step.finish result).runFrom given with ⟨outcome, after⟩
  rw [ended] at stepped
  rw [runStep_of_performStep stepped]

/-- A list that is made is not dropped before the end of its step, nor after it. -/
theorem lists_le_finish {given : World} (closed : given.Closed) {result : Value}
    (known : Known given.lists result) (step : Step) :
    given.lists ≤ ((step.finish result).runFrom given).2.lists := by
  have confines : Confines Anywhere given.lists (step.finish result) Known :=
    confines_finish step known
  exact (confines given (Nat.le_refl _) closed).1.more

private theorem reached_append (environment : Environment) (now : Moment) (front back : List Step) :
    World.reached environment now (front ++ back) =
      (runSteps back (World.reached environment now front)).2 :=
  runSteps_append front back _

/-- A list that is handed out in a run of steps is new: nothing that was there before holds it, when
it is handed out and after its step. It is kept for good, and whenever items are added to it, all
that does not hold it stays as it is. -/
theorem handed_out_lists_fresh {environment : Environment} {now : Moment} {steps : List Step}
    {step : Step} {operation : Operation} {arguments : List Value} {asked given : World}
    {result : Value} (names : ∀ one ∈ step :: steps, one.namesNoSource = true)
    (isOperation : step.operation = some operation) (handsOut : HandsOut operation arguments)
    (made : step.made.runFrom (World.reached environment now steps).fresh =
      (.ok (arguments, []), asked))
    (performed : (perform call operation arguments []).runFrom asked = (.ok result, given)) :
    ∃ number, result = .handle .growing number ∧ ListIsNew number arguments asked given ∧
      ListIsNew number arguments asked (World.reached environment now (steps ++ [step])) ∧
      (∀ more : List Step, (∀ one ∈ more, one.namesNoSource = true) →
        number < (World.reached environment now (steps ++ step :: more)).lists) ∧
      ∀ world : World, number < world.lists → world.Separate number := by
  rw [List.forall_mem_cons] at names
  have closed : (World.reached environment now steps).Closed :=
    (closed_runSteps names.2 (closed_start environment now)).2
  obtain ⟨closedAsked, known⟩ := closed_made names.1 closed made
  obtain ⟨number, rfl, isNew, size, encloses, holds⟩ :=
    exists_handedOut handsOut closedAsked known performed
  have isKept : number < given.lists := Nat.lt_of_lt_of_eq (Nat.lt_succ_self _) size.symm
  have performs : Confines Anywhere asked.lists (perform call operation arguments []) Known :=
    confines_perform callerConfines_call operation known (List.forall_mem_nil _)
      fun _ _ _ _ => trivial
  have closedGiven := (performs asked (Nat.le_refl _) closedAsked).2.1
  rw [performed] at closedGiven
  have staysKept := Nat.lt_of_lt_of_le isKept (lists_le_finish closedGiven (.growing isKept) step)
  have enclosesAfter := encloses.finish (not_below_self number) holds step
  rw [← runStep_of_performed isOperation made performed] at staysKept enclosesAfter
  obtain ⟨-, closedAfter⟩ := closed_runStep names.1 closed
  refine ⟨number, rfl, closedAsked.listIsNew known isNew isKept encloses, ?_, fun more named => ?_,
    fun _ inside => World.separate inside⟩
  · rw [reached_append]
    exact closedAsked.listIsNew known isNew staysKept enclosesAfter
  · rw [reached_append]
    exact Nat.lt_of_lt_of_le staysKept (closed_runSteps named closedAfter).1

/-- A list, and a sequence that holds it. -/
def listInSequence : List Step :=
  [⟨some (.option .zeroOf), [.scalar (.kind .list)], [], some "list"⟩,
    ⟨some (.sequence .make), [.variable "list"], [], some "sequence"⟩]

/-- The items of the sequence are handed out as a second list. -/
theorem handed_out_lists_fresh_listInSequence :
    ∃ asked given, ListIsNew 1 [sequence [.handle .growing 0]] asked given ∧
      ListIsNew 1 [sequence [.handle .growing 0]] asked
        (World.reached ⟨[]⟩ ⟨2024, 2, 29, 1, 2, 3, 0⟩
          (listInSequence ++ [⟨some (.sequence .items), [.variable "sequence"], [], none⟩])) ∧
      ∀ world : World, 1 < world.lists → world.Separate 1 := by
  have names : ∀ one ∈ (⟨some (.sequence .items), [.variable "sequence"], [], none⟩ : Step) ::
      listInSequence, one.namesNoSource = true := by decide
  obtain ⟨number, isList, atOnce, afterStep, -, later⟩ :=
    @handed_out_lists_fresh ⟨[]⟩ ⟨2024, 2, 29, 1, 2, 3, 0⟩ listInSequence _ _
      [sequence [.handle .growing 0]] _ _ (.handle .growing 1) names rfl (.items _) rfl rfl
  cases isList
  exact ⟨_, _, atOnce, afterStep, later⟩

end Presence.Session
