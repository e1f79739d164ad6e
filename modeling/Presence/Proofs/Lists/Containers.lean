import Presence.Proofs.Lists.Operations
import Presence.Proofs.Managed.Lifecycle
import Presence.Proofs.Sort.Contents
import Presence.Session.Construct
import Presence.Session.Dependencies
import Presence.Session.General
import Presence.Session.Rules
import Presence.Session.Sequences

/-!
Contract: operations on containers in closed worlds, and kinds as functions.

Owns: that wherever functions are called so, the operations on sequences and on managed dependencies
are confined; that so are making values of a kind, the functions that are given by rules, and the
operations on loggers and on any value.

Does not own: operations on payloads (`Presence.Proofs.Lists.Operations`).
-/

namespace Presence

variable {among : Handle → Prop} {v w : Value}

private theorem Session.holdsOnly_front {count : Nat} (holds : v.HoldsOnly among)
    (taken : Session.front count v = .ok w) : w.HoldsOnly among := by
  induction holds with
  | @scalar s _ =>
      cases s with
      | text | bytes | byteArray =>
          cases taken
          exact .plain rfl
      | _ => cases taken
  | list each _ =>
      cases taken
      exact .list fun item member => each item (List.mem_of_mem_take member)
  | tuple each _ =>
      cases taken
      exact .tuple fun item member => each item (List.mem_of_mem_take member)
  | sequence _ inductionHypothesis => exact inductionHypothesis taken
  | _ => cases taken

/-- Whatever is no number, no text and no octets cannot be read as a number. -/
private theorem Value.toWhole_of_not_isPlain (notPlain : ¬ v.IsPlain) :
    v.toWhole = .error .wrongType := by
  cases v with
  | scalar s =>
      cases s with
      | handle h =>
          obtain ⟨sort, number⟩ := h
          cases sort with
          | growing | iterator => rfl
          | _ => exact absurd ⟨_, rfl, rfl⟩ notPlain
      | _ => exact absurd ⟨_, rfl, rfl⟩ notPlain
  | _ => rfl

/-- What is reported as no positive number refers to nothing. -/
theorem Example.isPlain_input {source kind : Value} {error : ParseError Value String Int}
    (parsed : parsePositive source = .ok (.left error kind)) :
    error.input.IsPlain ∧ kind = .null := by
  have isInput : source.IsPlain := by
    by_contra notPlain
    unfold parsePositive wholeNumberOf at parsed
    rw [Value.toWhole_of_not_isPlain notPlain] at parsed
    cases parsed
  obtain ⟨n?, _, parsed⟩ := Value.bind_eq_ok parsed
  split at parsed
  · cases parsed
    exact ⟨isInput, rfl⟩
  · split at parsed
    · cases parsed
      exact ⟨isInput, rfl⟩
    · cases parsed

theorem Example.kind_of_right {source kind : Value} {n : Int}
    (parsed : parsePositive source = .ok (.right n kind)) : kind = .null := by
  obtain ⟨n?, _, parsed⟩ := Value.bind_eq_ok parsed
  split at parsed
  · cases parsed
  · split at parsed
    · cases parsed
    · cases parsed
      rfl

namespace Session

open Attempt Run

variable {changed : Nat → Prop} {call : Caller} {base : Nat} {v w f : Value}

/-! ## Managed dependencies -/

private theorem confines_closing {α : Type} {fine : Nat → α → Prop} {body : Run α}
    {close : Run Unit} (rises : Rises fine) (confines : Confines changed base body fine)
    (closes : Confines changed base close Whatever) :
    Confines changed base (Attempt.closing body close) fine := by
  intro world enough closed
  obtain ⟨kept, closedBetween, isFine⟩ := confines world enough closed
  rcases ran : body.runFrom world with ⟨outcome, between⟩
  rw [ran] at kept closedBetween isFine
  obtain ⟨keptAfter, closedAfter, _⟩ := closes between (Nat.le_trans enough kept.more) closedBetween
  rw [Managed.runFrom_closing ran]
  rcases ended : close.runFrom between with ⟨fault | _, after⟩ <;>
    rw [ended] at keptAfter closedAfter
  · refine ⟨kept.trans keptAfter, closedAfter, ?_⟩
    intro result impossible
    cases impossible
  · exact ⟨kept.trans keptAfter, closedAfter,
      fun result isResult => rises (isFine result isResult) keptAfter.more⟩

private theorem confines_managedOf (known : Known base v) :
    Confines changed base (managedOf v) fun size d => Known size (.managed d) := by
  unfold managedOf
  split
  · exact .pure fun _ more => known.later more
  · exact .fail _

section Managed

variable (calls : CallerConfines changed call)

include calls

private theorem confines_openInto {source opener wrap : Value} (isSource : Known base source)
    (isOpener : Known base opener) (isWrap : Known base wrap) :
    Confines changed base (openInto call source opener wrap) Known := by
  have opened : Confines changed base (openOption call source opener) OptionKnown := by
    refine (confines_observe source).next fun seen => ?_
    refine Confines.through (fun size (d : Managed (Optional Value Value)) =>
      OptionKnown size d.basic) ?_ fun _ _ d isBasic => .pure fun _ more => isBasic.later more
    refine Confines.through OptionKnown ?_ fun _ _ o isOption =>
      .pure fun _ more => isOption.later more
    unfold Optional.unlessZero Optional.guarded
    split
    · exact (calls.one isOpener isSource).bind fun _ _ _ isResult =>
        .pure fun _ more => .ok (isResult.later more)
    · exact .pure fun _ _ => .notOk (.plain rfl)
  refine opened.bind fun _ more o isOption => ?_
  dsimp only
  split
  · exact .known (.managed .closable isOption)
  · exact calls.one (isWrap.later more) isOption

private theorem confines_bracket {body : Value} (known : Known base v) (isBody : Known base body) :
    Confines changed base (bracket call v body) Known := by
  unfold bracket
  split
  · split
    · exact confines_closing rises_known (calls.one isBody known)
        (confines_closeInside _ known.of_managed)
    · exact .fail _
  · exact (confines_openStreamAt _ _).next fun _ =>
      confines_closing rises_known (calls.one isBody known) (confines_closeStream _)
  · exact .fail _

/-- The operations on managed dependencies make of the lists that are kept what they make. -/
theorem confines_performManaged (operation : ManagedOperation) {arguments : List Value}
    (known : AllKnown base arguments) :
    Confines changed base (performManaged call operation arguments) Known := by
  unfold performManaged
  split
  · exact .known (.managed .plain (.notOk (.plain rfl)))
  · exact .known (.managed .plain known.one)
  · exact .known (.managed .closable (.notOk (.plain rfl)))
  · exact .known (.managed .closable known.one)
  · exact confines_openInto calls known.two.1 known.two.2 (.plain rfl)
  · exact confines_openInto calls known.three.1 known.three.2.1 known.three.2.2
  · exact confines_bracket calls known.two.1 known.two.2
  · exact (confines_managedOf known.one).next fun _ => (confines_isOk _).next fun _ => .plain rfl
  · exact (confines_managedOf known.one).bind fun _ _ _ isManaged =>
      confines_get isManaged.of_managed
  · exact (confines_managedOf known.one).bind fun _ _ _ isManaged =>
      confines_mustGet isManaged.of_managed
  · exact (confines_managedOf known.two.1).bind fun _ more _ isManaged =>
      confines_orElse isManaged.of_managed (known.two.2.later more)
  · exact (confines_managedOf known.two.1).bind fun _ more _ isManaged =>
      (confines_call isManaged.of_managed fun _ isKnown =>
        confines_effect calls (known.two.2.later more) isKnown).next fun _ => .plain rfl
  · exact (confines_managedOf known.one).bind fun _ _ _ isManaged =>
      (confines_close _ isManaged).next fun _ => .plain rfl
  · exact .fail _

end Managed

/-! ## Sequences -/

theorem confines_containerOf (known : Known base v) :
    Confines changed base (containerOf v) Known := by
  unfold containerOf
  split
  · exact .known known.of_sequence
  · exact .fail _

private theorem confines_itemsOf (known : Known base v) :
    Confines changed base (itemsOf v) fun size feed => FeedConfines changed size feed Known :=
  (confines_containerOf known).bind fun _ _ _ isKnown => confines_finds.feedOf isKnown

/-- A computation that gives items, as one that gives a sequence of them. -/
private theorem Confines.ofItems {body : Run (List Value)}
    (confines : Confines changed base body AllKnown) :
    Confines changed base (do return sequence (← body)) Known :=
  confines_finds.items sequence .ofSequence confines

private theorem confines_countOf (v : Value) : Confines changed base (countOf v) Whatever := by
  unfold countOf
  split
  · exact .done
  · split
    · exact .fail _
    · exact .done
  · exact .fail _

private theorem confines_containsAny {targets : Value} (known : Known base v)
    (isTargets : Known base targets) : Confines changed base (containsAny v targets) Whatever := by
  refine (confines_finds.feedOf isTargets).bind fun _ more _ next => ?_
  refine (confines_toSet next).bind fun _ more' wanted _ => ?_
  split
  · exact .done
  · exact (confines_finds.feedOf (known.later (Nat.le_trans more more'))).bind fun _ _ _ next =>
      confines_meetsSet next wanted

private theorem confines_tupleOf (known : Known base v) :
    Confines changed base (tupleOf v) AllKnown := by
  unfold tupleOf
  split
  · exact .pure fun _ more => rises_allKnown known.of_tuple more
  · exact .fail _

private theorem allKnown_pairs {size : Nat} {xs ys : List Value} (areFirst : AllKnown size xs)
    (areSecond : AllKnown size ys) :
    AllKnown size (List.zipWith (fun x y => .pair ⟨x, y⟩) xs ys) := by
  intro both member
  rw [← List.map_uncurry_zip_eq_zipWith] at member
  obtain ⟨cells, areCells, rfl⟩ := List.mem_map.mp member
  exact .pair (areFirst _ (List.of_mem_zip areCells).1) (areSecond _ (List.of_mem_zip areCells).2)

section Sequences

variable (calls : CallerConfines changed call)

include calls

private theorem confines_unzipParts {functions : List Value} (known : Known base v)
    (areFunctions : AllKnown base functions) :
    Confines changed base (unzipParts call v functions) Known := by
  refine (confines_finds.feedOf known).bind fun _ more _ next => ?_
  refine (confines_unzip rises_known next
    fun column isColumn _ more' x isKnown => ?_).bind fun _ _ columns areCells => ?_
  · obtain ⟨f, isFunction, rfl⟩ := List.mem_map.mp isColumn
    exact calls.one ((areFunctions f isFunction).later (Nat.le_trans more more')) isKnown
  · refine .known (.tuple fun made isMade => ?_)
    obtain ⟨column, isColumn, rfl⟩ := List.mem_map.mp isMade
    exact .ofSequence (areCells column isColumn)

private theorem confines_keyOf {key : Value} (isKey : Known base key) (known : Known base v) :
    Confines changed base (keyOf call key v) Known := by
  unfold keyOf
  split
  · exact .known known
  · exact calls.one isKey known

/-- Items with their keys are the items. -/
private theorem confines_keyed {key : Value} {items : List Value} (isKey : Known base key)
    (areItems : AllKnown base items) :
    Confines changed base ((Sequence.mk items).keyed (keyOf call key) observe) fun size keyed =>
      ∀ cell ∈ keyed, Known size cell.item := by
  have next : FeedConfines changed base (Sequence.mk items).feed Known :=
    Confines.composes.ofList fun _ more item member => (areItems item member).later more
  refine (confines_finds.collect rises_known next fun _ more x isKnown =>
    confines_keyOf calls (isKey.later more) isKnown).bind fun _ more keys _ => ?_
  refine .mapM (fun _ _ _ isKnown more => isKnown.later more) fun made isMade => ?_
  refine (confines_observe made.1).next fun read => .pure fun _ more' => ?_
  exact (areItems made.2 (List.of_mem_zip isMade).2).later (Nat.le_trans more more')

/-- Sorted items are the items, whichever way they are sorted. -/
private theorem confines_sorted {key : Value} {items : List Value}
    {sorting : List (Sort.Keyed Value Value) → Option (List (Sort.Keyed Value Value))}
    (keeps : ∀ {keyed sorted}, sorting keyed = some sorted → ∀ cell ∈ sorted, cell ∈ keyed)
    (isKey : Known base key) (areItems : AllKnown base items) :
    Confines changed base (do
      let sorted ← Attempt.ofOption
        (sorting (← (Sequence.mk items).keyed (keyOf call key) observe))
      return (Sequence.mk (sorted.map Sort.Keyed.item))) fun size s => AllKnown size s.items := by
  refine (confines_keyed calls isKey areItems).bind fun size more keyed areKeyed => ?_
  refine Confines.through (fun size sorted => ∀ cell ∈ sorted, Known size cell.item)
    (.ofOption fun sorted isSorted _ more' cell member =>
      (areKeyed cell (keeps isSorted cell member)).later more') fun _ _ sorted areSorted => ?_
  refine .pure fun _ more' item member => ?_
  obtain ⟨cell, isCell, rfl⟩ := List.mem_map.mp member
  exact (areSorted cell isCell).later more'

/-- The operations on sequences make of the lists that are kept what they make. -/
theorem confines_performSequence (operation : SequenceOperation) {arguments : List Value}
    (known : AllKnown base arguments) :
    Confines changed base (performSequence call operation arguments) Known := by
  unfold performSequence
  split
  · exact .known (.pair known.two.1 known.two.2)
  · refine (confines_finds.size known.two.1).next fun xSize => ?_
    refine (confines_finds.size known.two.2).next fun ySize => (Confines.ofAny _).next fun _ => ?_
    refine (confines_finds.parts known.two.1).bind fun _ more _ areFirst => ?_
    refine (confines_finds.parts (known.two.2.later more)).bind fun _ more' _ areSecond => ?_
    exact .known (.list (allKnown_pairs (rises_allKnown areFirst more') areSecond))
  · refine (confines_finds.size known.three.1).next fun xSize => ?_
    refine (confines_finds.size known.three.2.1).next fun ySize => ?_
    refine (confines_finds.feedOf known.three.1).bind fun _ more _ next => ?_
    refine (confines_finds.feedOf (known.three.2.1.later more)).bind fun _ more' _ next' => ?_
    refine Confines.through AllKnown ((Confines.ofAny _).next fun _ => ?_)
      fun _ _ _ areResults => .known (.list areResults)
    have both := FeedConfines.zip rises_known rises_known (confines_finds.feedLater next more')
      next'
    refine confines_finds.collect rises_known both fun _ more'' both areBoth => ?_
    have all := Nat.le_trans more (Nat.le_trans more' more'')
    exact calls.two (known.three.2.2.later all) areBoth.1 areBoth.2
  · exact .known (.ofSequence known)
  · exact (confines_finds.parts known.one).ofItems
  · exact (confines_containerOf known.one).bind fun _ _ _ isItems =>
      (confines_finds.size isItems).next fun _ => .plain rfl
  · refine (confines_containerOf known.two.1).bind fun _ _ _ isItems => ?_
    refine (confines_finds.look isItems).bind fun _ _ seen isSeen => ?_
    refine (confines_observe _).next fun place => ?_
    exact .ofExcept fun item found _ more => (Value.holdsOnly_item isSeen found).later more
  · exact (confines_containerOf known.one).bind fun _ _ _ isItems =>
      confines_finds.items .list .list (confines_finds.parts isItems)
  · exact (confines_itemsOf known.two.1).bind fun _ more _ next =>
      (confines_map rises_known next fun _ more' _ isKnown =>
        calls.one (known.two.2.later (Nat.le_trans more more')) isKnown).ofItems
  · exact (confines_itemsOf known.two.1).bind fun _ more _ next =>
      (confines_flatCollect rises_known next fun _ more' _ isKnown =>
        (calls.one (known.two.2.later (Nat.le_trans more more')) isKnown).bind
          fun _ _ _ isResult => confines_finds.parts isResult).ofItems
  · exact (confines_itemsOf known.two.1).bind fun _ more _ next =>
      (confines_keepIf rises_known next fun _ more' _ isKnown =>
        confines_test calls (known.two.2.later (Nat.le_trans more more')) isKnown).ofItems
  · exact (confines_itemsOf known.two.1).bind fun _ more _ next =>
      (confines_removeIf rises_known next fun _ more' _ isKnown =>
        confines_test calls (known.two.2.later (Nat.le_trans more more')) isKnown).ofItems
  · refine (confines_countOf _).next fun count => (confines_containerOf known.two.1).bind
      fun _ _ _ isItems => (confines_finds.look isItems).bind fun _ _ seen isSeen => ?_
    refine Confines.through Known (.ofExcept fun front taken _ more =>
      (holdsOnly_front isSeen taken).later more) fun _ _ _ isFront => .known (.sequence isFront)
  · exact (confines_itemsOf known.two.1).bind fun _ more _ next =>
      (confines_each next fun _ more' _ isKnown =>
        confines_effect calls (known.two.2.later (Nat.le_trans more more')) isKnown).next
          fun _ => .plain rfl
  · exact (confines_itemsOf known.two.1).bind fun _ more _ next =>
      (confines_find next fun _ more' _ isKnown =>
        confines_test calls (known.two.2.later (Nat.le_trans more more')) isKnown).ofOptional
  · refine (confines_itemsOf known.two.1).bind fun _ more _ next => ?_
    refine (confines_indexWhere next fun _ more' _ isKnown =>
      confines_test calls (known.two.2.later (Nat.le_trans more more')) isKnown).bind
        fun _ _ found isFound => ?_
    cases found with
    | ok place => exact .known (.ok (.plain rfl))
    | notOk kind => exact .known (.notOk (isFound kind rfl))
  · exact (confines_itemsOf known.two.1).bind fun _ more _ next =>
      (confines_anyPasses rises_known next fun _ more' _ isKnown =>
        confines_test calls (known.two.2.later (Nat.le_trans more more')) isKnown).next
          fun _ => .plain rfl
  · exact (confines_containerOf known.two.1).bind fun _ _ _ isItems =>
      (confines_holds isItems _).next fun _ => .plain rfl
  · exact (confines_containerOf known.two.1).bind fun _ more _ isItems =>
      (confines_containsAny isItems (known.two.2.later more)).next fun _ => .plain rfl
  · refine (confines_containerOf known.two.1).bind fun _ more _ isItems => ?_
    refine (confines_finds.size (known.two.2.later more)).next fun count => ?_
    split
    · exact .plain rfl
    · exact (confines_containsAny isItems (known.two.2.later more)).next fun _ => .plain rfl
  · exact (confines_itemsOf known.one).bind fun _ _ _ next => (confines_unique next).ofItems
  · exact (confines_itemsOf known.one).bind fun _ _ _ next =>
      confines_finds.items .set .set (confines_toSet next)
  · refine (confines_containerOf known.one).bind fun _ _ _ isItems => ?_
    refine (confines_finds.size isItems).next fun count => ?_
    refine Confines.through (fun size (single : Either Value Nat Value) =>
      (∀ n kind, single = .left n kind → Known size kind) ∧
        ∀ x kind, single = .right x kind → Known size x ∧ Known size kind) ?_
      fun _ _ single isSingle => ?_
    · unfold Sequence.singleOf
      split
      · refine Confines.through Known ((confines_finds.look isItems).bind fun _ _ _ isSeen =>
          .ofExcept fun item found _ more => (Value.holdsOnly_item isSeen found).later more)
            fun _ _ only isOnly => .pure fun _ more => ⟨nofun, fun x kind isRight => ?_⟩
        cases isRight
        exact ⟨isOnly.later more, .plain rfl⟩
      · refine .pure fun _ _ => ⟨fun n kind isLeft => ?_, nofun⟩
        cases isLeft
        exact .plain rfl
    · cases single with
      | left n kind => exact .known (.left (.plain rfl) (isSingle.1 n kind rfl))
      | right x kind =>
          obtain ⟨isItem, isKind⟩ := isSingle.2 x kind rfl
          exact .known (.right isItem isKind)
  · exact (confines_itemsOf known.three.1).bind fun _ more _ next =>
      confines_finds.fold rises_known next (fun _ more' _ _ isSofar isItem =>
        calls.two (known.three.2.2.later (Nat.le_trans more more')) isSofar isItem)
        (known.three.2.1.later more)
  · refine (confines_containerOf known.two.1).bind fun _ more _ isItems => ?_
    refine (confines_finds.parts isItems).bind fun _ more' items areItems => ?_
    refine (confines_sorted calls (fun isSorted =>
      Sort.each_sort (fun _ member => member) isSorted)
      (known.two.2.later (Nat.le_trans more more')) areItems).bind fun _ _ _ areSorted =>
        .known (.ofSequence areSorted)
  · refine (confines_containerOf known.two.1).bind fun _ more _ isItems => ?_
    refine (confines_finds.parts isItems).bind fun _ more' items areItems => ?_
    refine (confines_sorted calls (fun isSorted =>
      Sort.each_sortDown (fun _ member => member) isSorted)
      (known.two.2.later (Nat.le_trans more more')) areItems).bind fun _ _ _ areSorted =>
        .known (.ofSequence areSorted)
  · refine (confines_containerOf known.two.1).bind fun _ more _ isItems => ?_
    refine (confines_tupleOf isItems).bind fun _ more' items areItems => ?_
    exact .known (.ofSequence (List.forall_mem_append.mpr ⟨areItems,
      List.forall_mem_singleton.mpr (known.two.2.later (Nat.le_trans more more'))⟩))
  · refine (confines_containerOf known.two.1).bind fun _ more _ isItems => ?_
    refine (confines_finds.parts (known.two.2.later more)).bind fun _ more' others areOthers => ?_
    refine (confines_tupleOf (isItems.later more')).bind fun _ more'' items areItems => ?_
    exact .known (.ofSequence (List.forall_mem_append.mpr
      ⟨areItems, rises_allKnown areOthers more''⟩))
  · exact (confines_finds.feedOf known.three.1).bind fun _ more _ next =>
      confines_finds.fold rises_known next (fun _ more' _ _ isSofar isItem =>
        calls.two (known.three.2.2.later (Nat.le_trans more more')) isSofar isItem)
        (known.three.2.1.later more)
  · rw [AllKnown, List.forall_mem_cons] at known
    split
    · exact confines_unzipParts calls known.1 known.2
    · exact .fail _
  · exact .fail _

end Sequences

end Session

end Presence
