import Presence.Proofs.Calls.Traversal
import Presence.Proofs.Sequence.Search

/-!
Contract: what is left of the values that a session goes through.

Owns: `ReadsParts`, the feeds of what has a size, the parts that they give (`runFrom_parts`), and
`PairsLeft`, the pairs that two of them give side by side; `IsLeft`, what is left of a value from a
place on, which is less for an iterator or a stream after each item that it has given; `Hands`,
feeds that give what is left of them; that the feed of each value serves what is left of it, beside
whatever does not depend on what iterators and streams have left (`exists_serves`).

Does not own: going through what is left (`Presence.Proofs.Calls.Traversal`).

No feed gives more items than anything has. A list may grow while it is gone through, so that what
is left of it is said of each world by itself.
-/

namespace Presence.Session

open Attempt Run Feed

/-! ## What has a size -/

/-- A feed gives the parts of what has a size as they are when it is asked, and changes nothing. -/
def ReadsParts (v : Value) (feed : Feed (StateM World) Value) : Prop :=
  ∀ world items, world.store.partsOf? v = some items → items.length ≤ endless →
    Reads feed world items

private theorem readsParts_ofList {v : Value} {items : List Value}
    (parts : ∀ store : Store, store.partsOf? v = some items) : ReadsParts v (.ofList items) := by
  intro world others sized _
  obtain rfl := Option.some.inj ((parts world.store).symm.trans sized)
  exact .ofList items

private theorem readsParts_listFeed (number : Nat) :
    ReadsParts (.handle .growing number) (listFeed number) := by
  intro world items sized fits place
  cases sized
  unfold Feed.itemAt
  by_cases inside : place < (listFeed number).bound
  · rw [if_pos inside]
    show (_, _) = _
    rw [Store.itemsOf]
    cases world.store.lists[number]? <;> simp
  · rw [if_neg inside, List.getElem?_eq_none (fits.trans (Nat.le_of_not_lt inside))]
    rfl

/-- What has a size is gone through by reading its parts. -/
theorem exists_readsParts (v : Value) :
    ∃ feed, ReadsParts v feed ∧ ∀ (world : World) items, world.store.partsOf? v = some items →
      (feedOf v).runFrom world = (.ok feed, world) := by
  induction v using feedOf.induct with
  | case1 number => exact ⟨listFeed number, readsParts_listFeed number, fun _ _ _ => rfl⟩
  | case2 number | case3 number => exact ⟨.ofList [], nofun, nofun⟩
  | case4 container inductionHypothesis => exact inductionHypothesis
  | case5 v notKept notIterator notStream noSequence =>
      have sized (store : Store) : store.partsOf? v = v.parts? := by
        rw [Store.partsOf?]
        · exact notKept
        · exact noSequence
      have fed : feedOf v = (do return .ofList (← Attempt.ofOption v.parts?)) := by
        rw [feedOf]
        · exact notKept
        · exact notIterator
        · exact notStream
        · exact noSequence
      cases parts : v.parts? with
      | none =>
          refine ⟨.ofList [], fun world items isSized => ?_, fun world items isSized => ?_⟩
          all_goals
            rw [sized, parts] at isSized
            cases isSized
      | some items =>
          refine ⟨.ofList items, readsParts_ofList fun store => (sized store).trans parts, ?_⟩
          intro world others _
          rw [fed, parts]
          rfl

/-- The parts of what has a size. -/
theorem runFrom_parts {world : World} {v : Value} {items : List Value}
    (sized : world.store.partsOf? v = some items) (fits : items.length ≤ endless) :
    (parts v).runFrom world = (.ok items, world) := by
  obtain ⟨feed, reads, fed⟩ := exists_readsParts v
  obtain ⟨results, after, visits, same, isSame, -⟩ :=
    exists_visits (reads world items sized fits).serves (fun x _ => .pure (Eq.refl x)) ⟨rfl, rfl⟩
  rw [List.drop_zero, List.forall₂_eq_eq_eq] at same
  obtain rfl := isSame
  rw [parts, runFrom_bind_of_ok _ (fed after items sized), toList, same]
  exact visits.collect

/-- The pairs that are left of two values with sizes, beside something that holds of the world. -/
def PairsLeft (holds : World → Prop) (v w : Value) (place : Nat) (world : World)
    (pairs : List (Value × Value)) : Prop :=
  holds world ∧ ∃ xs ys, world.store.partsOf? v = some xs ∧ world.store.partsOf? w = some ys ∧
    xs.length ≤ endless ∧ ys.length ≤ endless ∧ pairs = (xs.zip ys).drop place

theorem serves_zip (holds : World → Prop) {v w : Value} {xFeed yFeed : Feed (StateM World) Value}
    (readsX : ReadsParts v xFeed) (readsY : ReadsParts w yFeed) :
    Serves (xFeed.zip yFeed) (PairsLeft holds v w) := by
  rintro place world pairs ⟨isSo, xs, ys, sizedX, sizedY, fitsX, fitsY, rfl⟩
  refine ⟨world, ?_, isSo, xs, ys, sizedX, sizedY, fitsX, fitsY, List.tail_drop⟩
  rw [(readsX world xs sizedX fitsX).zip (readsY world ys sizedY fitsY) place, List.head?_drop]

/-! ## What is gone through only once -/

/-- The lines that a stream has left. -/
inductive Lines : TextStream → List Value → Prop where
  | ends {stream : TextStream} (asks : stream.nextLine? = none) : Lines stream []
  | goesOn {stream later : TextStream} {line : List Char} {lines : List Value}
      (asks : stream.nextLine? = some (line, later)) (rest : Lines later lines) :
      Lines stream (.text (String.ofList line) :: lines)

private theorem isClosed_of_nextLine? {stream later : TextStream} {line : List Char}
    (asks : stream.nextLine? = some (line, later)) : later.isClosed = stream.isClosed := by
  simp only [TextStream.nextLine?, Option.ite_none_left_eq_some, Option.some.injEq,
    Prod.mk.injEq] at asks
  obtain ⟨-, -, rfl⟩ := asks
  rfl

/-- What is left of a value from a place on: the parts from there on of what has a size; whatever an
iterator has left, or a stream that is open, wherever that is. -/
def IsLeft : Value → (place : Nat) → World → List Value → Prop
  | .handle .iterator number, place, world, items =>
      (world.store.iterators[number]?).getD [] = items ∧ items.length ≤ endless - place
  | .handle .stream number, place, world, items =>
      (world.store.streamAt number).isClosed = false ∧
        Lines (world.store.streamAt number) items ∧ items.length ≤ endless - place
  | .sequence ⟨container⟩, place, world, items => IsLeft container place world items
  | v, place, world, items => ∃ all, world.store.partsOf? v = some all ∧ all.length ≤ endless ∧
      items = all.drop place
termination_by structural v => v

/-- Nothing has changed but what iterators and streams have left. -/
def Moves (before after : World) : Prop :=
  ∃ iterators streams, after =
    { before with store := { before.store with iterators := iterators, streams := streams } }

/-- Something that holds of a world whatever its iterators and streams have left. -/
def Unmoved (holds : World → Prop) : Prop := ∀ before after, Moves before after →
  holds before → holds after

/-- What is left of a value, beside something that holds of the world. -/
def LeftBeside (holds : World → Prop) (v : Value) (place : Nat) (world : World)
    (items : List Value) : Prop := holds world ∧ IsLeft v place world items

/-- A feed that gives what is left of it whenever it is asked, and moves nothing but what is gone
through only once. -/
structure Hands (feed : Feed (StateM World) Value) (left : Nat → World → List Value → Prop) :
    Prop where
  done {place : Nat} {world : World} (nothingLeft : left place world []) :
    (feed.next place).runFrom world = (.ok none, world) ∧ left (place + 1) world []
  gives {place : Nat} {world : World} {item : Value} {items : List Value}
    (isLeft : left place world (item :: items)) : ∃ after,
      (feed.next place).runFrom world = (.ok (some item), after) ∧
        left (place + 1) after items ∧ Moves world after

/-- Such a feed serves what is left of it, as far as it may be asked. -/
theorem Hands.serves {feed : Feed (StateM World) Value} {left : Nat → World → List Value → Prop}
    (hands : Hands feed left) {holds : World → Prop} (unmoved : Unmoved holds) :
    Serves feed fun place world items =>
      holds world ∧ left place world items ∧ items.length ≤ feed.bound - place := by
  rintro place world items ⟨isSo, isLeft, fits⟩
  unfold Feed.itemAt
  cases items with
  | nil =>
      obtain ⟨asks, stays⟩ := hands.done isLeft
      refine ⟨world, ?_, isSo, stays, Nat.zero_le _⟩
      by_cases inside : place < feed.bound
      · rw [if_pos inside]
        exact asks
      · rw [if_neg inside]
        rfl
  | cons item items =>
      rw [List.length_cons] at fits
      have inside : place < feed.bound := by omega
      obtain ⟨after, asks, later, moves⟩ := hands.gives isLeft
      rw [if_pos inside]
      exact ⟨after, asks, unmoved world after moves isSo, later, by rw [List.tail_cons]; omega⟩

theorem hands_iteratorFeed (number : Nat) : Hands (iteratorFeed number) fun _ world items =>
    (world.store.iterators[number]?).getD [] = items := by
  have asked (world : World) : (iteratorAt number).runFrom world =
      (.ok ((world.store.iterators[number]?).getD []), world) := rfl
  constructor
  · intro place world kept
    refine ⟨?_, kept⟩
    simp only [iteratorFeed]
    rw [runFrom_bind_of_ok _ (asked world), kept]
    rfl
  · intro place world item items kept
    refine ⟨{ world with store := { world.store with
      iterators := world.store.iterators.setIfInBounds number items } }, ?_, ?_, _, _, rfl⟩
    · simp only [iteratorFeed]
      rw [runFrom_bind_of_ok _ (asked world), kept]
      rfl
    · have inside : number < world.store.iterators.size := by
        by_contra outside
        rw [Array.getElem?_eq_none (Nat.le_of_not_lt outside)] at kept
        cases kept
      show ((world.store.iterators.setIfInBounds number items)[number]?).getD [] = items
      rw [Array.getElem?_setIfInBounds_self_of_lt inside]
      rfl

theorem hands_streamFeed (number : Nat) : Hands (streamFeed number) fun _ world items =>
    (world.store.streamAt number).isClosed = false ∧
      Lines (world.store.streamAt number) items := by
  have asked {world : World} (isOpen : (world.store.streamAt number).isClosed = false) :
      (openStreamAt number .transfer).runFrom world =
        (.ok (world.store.streamAt number), world) := by
    rw [runFrom_openStreamAt, isOpen]
    rfl
  constructor
  · rintro place world ⟨isOpen, lines⟩
    refine ⟨?_, isOpen, lines⟩
    simp only [streamFeed]
    rw [runFrom_bind_of_ok _ (asked isOpen)]
    cases lines with
    | ends asks =>
        rw [asks]
        rfl
  · rintro place world item items ⟨isOpen, lines⟩
    generalize isItems : item :: items = all at lines
    cases lines with
    | ends => cases isItems
    | @goesOn _ later line others asks rest =>
        cases isItems
        have inside : number < world.store.streams.size := by
          by_contra outside
          rw [Store.streamAt, Array.getElem?_eq_none (Nat.le_of_not_lt outside)] at asks
          cases asks
        have moved : ({ world.store with
            streams := world.store.streams.setIfInBounds number later } : Store).streamAt number =
              later := by
          show ((world.store.streams.setIfInBounds number later)[number]?).getD _ = later
          rw [Array.getElem?_setIfInBounds_self_of_lt inside]
          rfl
        refine ⟨{ world with store := { world.store with
          streams := world.store.streams.setIfInBounds number later } }, ?_, ⟨?_, ?_⟩, _, _, rfl⟩
        · simp only [streamFeed]
          rw [runFrom_bind_of_ok _ (asked isOpen), asks]
          rfl
        · rw [moved, isClosed_of_nextLine? asks, isOpen]
        · rw [moved]
          exact rest

section Unmoved

variable {holds : World → Prop} (unmoved : Unmoved holds)

include unmoved

private theorem serves_iteratorFeed (number : Nat) :
    Serves (iteratorFeed number) (LeftBeside holds (.handle .iterator number)) :=
  (hands_iteratorFeed number).serves unmoved

private theorem serves_streamFeed (number : Nat) :
    Serves (streamFeed number) (LeftBeside holds (.handle .stream number)) := by
  have serves := (hands_streamFeed number).serves unmoved
  simp only [and_assoc] at serves
  exact serves

end Unmoved

/-- What has a size is gone through place by place, whatever holds of the world. -/
theorem ReadsParts.serves {v : Value} {feed : Feed (StateM World) Value}
    (reads : ReadsParts v feed) (holds : World → Prop) :
    Serves feed fun place world items => holds world ∧ ∃ all,
      world.store.partsOf? v = some all ∧ all.length ≤ endless ∧ items = all.drop place := by
  rintro place world items ⟨isSo, all, sized, fits, rfl⟩
  refine ⟨world, ?_, isSo, all, sized, fits, List.tail_drop⟩
  rw [reads world all sized fits, List.head?_drop]

/-- Each value is gone through by a feed that serves what is left of it. -/
theorem exists_serves (v : Value) :
    ∃ feed, (∀ holds, Unmoved holds → Serves feed (LeftBeside holds v)) ∧
      ∀ world items, IsLeft v 0 world items → (feedOf v).runFrom world = (.ok feed, world) := by
  induction v using feedOf.induct with
  | case1 number =>
      obtain ⟨feed, reads, fed⟩ := exists_readsParts (.handle .growing number)
      exact ⟨feed, fun holds _ => reads.serves holds,
        fun world items ⟨all, sized, _⟩ => fed world all sized⟩
  | case2 number =>
      exact ⟨iteratorFeed number, fun holds unmoved => serves_iteratorFeed unmoved number,
        fun _ _ _ => rfl⟩
  | case3 number =>
      refine ⟨streamFeed number, fun holds unmoved => serves_streamFeed unmoved number,
        fun world items isLeft => ?_⟩
      have opened := runFrom_openStreamAt number .start world
      rw [isLeft.1] at opened
      exact runFrom_bind_of_ok _ opened
  | case4 container inductionHypothesis => exact inductionHypothesis
  | case5 v notKept notIterator notStream noSequence =>
      obtain ⟨feed, reads, fed⟩ := exists_readsParts v
      have isLeft : IsLeft v = fun place world items => ∃ all, world.store.partsOf? v = some all ∧
          all.length ≤ endless ∧ items = all.drop place := by
        funext place world items
        rw [IsLeft]
        · exact notIterator
        · exact notStream
        · exact noSequence
      unfold LeftBeside
      rw [isLeft]
      exact ⟨feed, fun holds _ => reads.serves holds,
        fun world items ⟨all, sized, _⟩ => fed world all sized⟩

end Presence.Session
