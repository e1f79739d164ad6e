import Presence.Proofs.Session.Sources
import Presence.Proofs.Session.Steps

/-!
Contract: demands, which turn a result that comes with an error into the result or into a fault.

Owns: `Gives`, what a value gives when it is gone through, and that its first parts are the first
that it gives (`runFrom_partsUpTo`); `Unpacked`, what becomes of a value that is taken apart into
two; `Settles`, what becomes of a result with its error; `settle`, what a demanding function does
with what it was given; that a demanding function calls its function once and settles what comes of
it (`demands_settle`).

Does not own: the operations themselves (`Presence.Session.Conditions`).

No more parts are asked for than tell two from more. An iterator or a stream has given those parts
up, also where the demand fails.
-/

namespace Presence.Session

open Attempt Run

/-! ## The first parts of a value -/

theorem Moves.refl (world : World) : Moves world world := ⟨_, _, rfl⟩

private theorem Moves.trans {before between after : World} (first : Moves before between)
    (second : Moves between after) : Moves before after := by
  obtain ⟨_, _, rfl⟩ := first
  obtain ⟨_, _, rfl⟩ := second
  exact ⟨_, _, rfl⟩

/-- What a value gives when it is gone through: the parts of what has a size; whatever an iterator
has left, or a stream that is open. -/
def Gives : Value → World → List Value → Prop
  | .handle .iterator number, world, items => (world.store.iterators[number]?).getD [] = items
  | .handle .stream number, world, items =>
      (world.store.streamAt number).isClosed = false ∧ Lines (world.store.streamAt number) items
  | .sequence ⟨container⟩, world, items => Gives container world items
  | v, world, items => world.store.partsOf? v = some items
termination_by structural v => v

section Feeds

variable {feed : Feed (StateM World) Value} {left : Nat → World → List Value → Prop}

/-- A feed that reads the items of a world place by place has those left that it has not read. -/
private theorem hands_of_next {itemsIn : World → List Value}
    (reads : ∀ place world,
      (feed.next place).runFrom world = (.ok (itemsIn world)[place]?, world)) :
    Hands feed fun place world items => items = (itemsIn world).drop place := by
  constructor
  · intro place world nothingLeft
    rw [reads, ← List.head?_drop, ← List.tail_drop, ← nothingLeft]
    exact ⟨rfl, rfl⟩
  · intro place world item items isLeft
    refine ⟨world, ?_, ?_, .refl world⟩
    · rw [reads, ← List.head?_drop, ← isLeft]
      rfl
    · rw [← List.tail_drop, ← isLeft]
      rfl

/-- What a feed gives that is asked some times. -/
private theorem Hands.goFrom (hands : Hands feed left) (steps : Nat) {place : Nat} {world : World}
    {items : List Value} (isLeft : left place world items) (sofar : Array Value) :
    ∃ after, Moves world after ∧
      (feed.goFrom (fun item sofar => pure (.yield (sofar.push item))) steps place sofar).runFrom
        world = (.ok (sofar ++ (items.take steps).toArray), after) := by
  induction steps generalizing place world items sofar with
  | zero => exact ⟨world, .refl world, by simp [Feed.goFrom]⟩
  | succ steps inductionHypothesis =>
      rw [Feed.goFrom]
      cases items with
      | nil =>
          refine ⟨world, .refl world, ?_⟩
          rw [runFrom_bind_of_ok _ (hands.done isLeft).1]
          simp
      | cons item rest =>
          obtain ⟨asked, asks, later, moves⟩ := hands.gives isLeft
          obtain ⟨after, moved, gone⟩ := inductionHypothesis later (sofar.push item)
          refine ⟨after, moves.trans moved, ?_⟩
          simp only [runFrom_bind_of_ok _ asks, pure_bind]
          rw [gone]
          simp

private theorem Hands.toList_takeUpTo (hands : Hands feed left) {world : World} {items : List Value}
    (isLeft : left 0 world items) (count : Nat) :
    ∃ after, Moves world after ∧ (feed.takeUpTo count).toList.runFrom world =
      (.ok (items.take (min feed.bound count)), after) := by
  have asked : Hands (feed.takeUpTo count) left := ⟨hands.done, hands.gives⟩
  obtain ⟨after, moves, gone⟩ := asked.goFrom (feed.takeUpTo count).bound isLeft #[]
  refine ⟨after, moves, ?_⟩
  simp only [Feed.toList, Feed.collect, Feed.fold, Feed.go, pure_bind]
  rw [runFrom_bind_of_ok _ gone]
  simp [Feed.takeUpTo]

end Feeds

/-- What gives items is gone through by a feed that has them left, and that may be asked for all of
them. -/
private theorem exists_hands (v : Value) : ∃ feed left, Hands feed left ∧ ∀ world items,
    Gives v world items → (feedOf v).runFrom world = (.ok feed, world) ∧ left 0 world items ∧
      (feed.bound = endless ∨ feed.bound = items.length) := by
  induction v using feedOf.induct with
  | case1 number =>
      have reads (place : Nat) (world : World) : ((listFeed number).next place).runFrom world =
          (.ok (world.store.itemsOf number)[place]?, world) := by
        show (_, _) = _
        rw [Store.itemsOf]
        cases world.store.lists[number]? <;> simp
      refine ⟨_, _, hands_of_next reads, fun world items gives => ⟨rfl, ?_, .inl rfl⟩⟩
      exact (Option.some.inj gives).symm
  | case2 number =>
      exact ⟨_, _, hands_iteratorFeed number, fun world items gives => ⟨rfl, gives, .inl rfl⟩⟩
  | case3 number =>
      refine ⟨_, _, hands_streamFeed number, fun world items gives => ⟨?_, gives, .inl rfl⟩⟩
      have opened := runFrom_openStreamAt number .start world
      rw [gives.1] at opened
      exact runFrom_bind_of_ok _ opened
  | case4 container inductionHypothesis => exact inductionHypothesis
  | case5 v notKept notIterator notStream noSequence =>
      have gives (world : World) (items : List Value) :
          Gives v world items ↔ v.parts? = some items := by
        rw [Gives, Store.partsOf?] <;> assumption
      have fed : feedOf v = (do return .ofList (← Attempt.ofOption v.parts?)) := by
        rw [feedOf] <;> assumption
      have reads (items : List Value) (place : Nat) (world : World) :
          ((Feed.ofList items).next place : Run (Option Value)).runFrom world =
            (.ok items[place]?, world) := by
        simp [Feed.ofList]
      refine ⟨.ofList (v.parts?.getD []), _, hands_of_next (reads _), fun world items isAll => ?_⟩
      have parts := (gives world items).mp isAll
      rw [fed, parts]
      exact ⟨rfl, rfl, .inr rfl⟩

/-- The first parts of a value are the first that it gives. -/
theorem runFrom_partsUpTo {v : Value} {world : World} {items : List Value}
    (gives : Gives v world items) {count : Nat} (small : count ≤ endless) :
    ∃ after, Moves world after ∧
      (partsUpTo count v).runFrom world = (.ok (items.take count), after) := by
  obtain ⟨feed, left, hands, fed⟩ := exists_hands v
  obtain ⟨fed, isLeft, bound⟩ := fed world items gives
  obtain ⟨after, moves, gone⟩ := hands.toList_takeUpTo isLeft count
  refine ⟨after, moves, ?_⟩
  rw [partsUpTo, runFrom_bind_of_ok _ fed, gone]
  rcases bound with bound | bound <;> rw [bound]
  · rw [Nat.min_eq_right small]
  · rw [← List.take_take, List.take_of_length_le (List.length_take_le' _ _)]

/-! ## Values taken apart into two -/

/-- What can be gone through. -/
def isIterable : Value → Bool
  | .handle .growing _ => true
  | .handle .iterator _ => true
  | .handle .stream _ => true
  | .sequence ⟨container⟩ => isIterable container
  | v => v.parts?.isSome
termination_by structural v => v

/-- The stream that a value is gone through by. -/
def streamIn? : Value → Option Nat
  | .handle .stream number => some number
  | .sequence ⟨container⟩ => streamIn? container
  | _ => none
termination_by structural v => v

/-- What becomes of a value that is taken apart into a result and its error. A stream that is closed
is not gone through at all. -/
inductive Unpacked (world : World) (v : Value) : Except Fault (Value × Value) → Prop where
  | two {result error : Value} (gives : Gives v world [result, error]) :
      Unpacked world v (.ok (result, error))
  | tooFew {items : List Value} (gives : Gives v world items) (few : items.length < 2) :
      Unpacked world v (.error (.tooFewParts items.length))
  | tooMany {items : List Value} (gives : Gives v world items) (many : 2 < items.length) :
      Unpacked world v (.error .tooManyParts)
  | closed {number : Nat} (isStream : streamIn? v = some number)
      (isClosed : (world.store.streamAt number).isClosed = true) :
      Unpacked world v (.error (.closedStream .start))
  | notIterable (refuses : isIterable v = false) : Unpacked world v (.error .wrongType)

/-- Takes a value apart into a result and its error. -/
def unpack (v : Value) : Run (Value × Value) := do lift (Must.resultOf (← partsUpTo 3 v))

/-- The lines of a stream come to an end. -/
private theorem exists_lines (stream : TextStream) : ∃ lines, Lines stream lines := by
  -- On how much stands behind the position, which is less after each line.
  generalize left : stream.content.length - stream.position = size
  induction size using Nat.strong_induction_on generalizing stream with
  | _ size inductionHypothesis =>
      rcases asks : stream.nextLine? with _ | ⟨line, later⟩
      · exact ⟨[], .ends asks⟩
      · have fewer : later.content.length - later.position < size := by
          simp only [TextStream.nextLine?, Option.ite_none_left_eq_some, Option.some.injEq,
            Prod.mk.injEq] at asks
          obtain ⟨some_line, -, rfl⟩ := asks
          rw [List.isEmpty_iff, List.take_eq_nil_iff, not_or, ← ne_eq,
            List.drop_eq_nil_iff] at some_line
          have longer : 0 < (List.take ((List.takeWhile (· != '\n')
              (stream.content.drop stream.position)).length + 1)
                (stream.content.drop stream.position)).length := by
            simp
            omega
          dsimp only
          omega
        obtain ⟨lines, rest⟩ := inductionHypothesis _ fewer later rfl
        exact ⟨_, .goesOn asks rest⟩

/-- A value that gives items is taken apart into the two that it gives, or is refused. -/
private theorem runFrom_unpack_of_gives {v : Value} {world : World} {items : List Value}
    (gives : Gives v world items) : ∃ outcome after, (unpack v).runFrom world = (outcome, after) ∧
      Moves world after ∧ Unpacked world v outcome := by
  have small : 3 ≤ endless := by decide
  obtain ⟨after, moves, gone⟩ := runFrom_partsUpTo gives small
  rw [unpack, runFrom_bind_of_ok _ gone, runFrom_lift]
  refine ⟨_, after, rfl, moves, ?_⟩
  match items with
  | [] => exact .tooFew gives Nat.zero_lt_two
  | [_] => exact .tooFew gives Nat.one_lt_two
  | [_, _] => exact .two gives
  | _ :: _ :: _ :: _ => exact .tooMany gives (by simp)

/-- Every value is taken apart into two or refused. -/
private theorem runFrom_unpack (v : Value) (world : World) : ∃ outcome after,
    (unpack v).runFrom world = (outcome, after) ∧ Moves world after ∧ Unpacked world v outcome := by
  induction v using feedOf.induct with
  | case1 number =>
      have gives : Gives (.handle .growing number) world (world.store.itemsOf number) := rfl
      exact runFrom_unpack_of_gives gives
  | case2 number =>
      have gives : Gives (.handle .iterator number) world
        ((world.store.iterators[number]?).getD []) := rfl
      exact runFrom_unpack_of_gives gives
  | case3 number =>
      cases isClosed : (world.store.streamAt number).isClosed with
      | false =>
          obtain ⟨lines, areLeft⟩ := exists_lines (world.store.streamAt number)
          have gives : Gives (.handle .stream number) world lines := ⟨isClosed, areLeft⟩
          exact runFrom_unpack_of_gives gives
      | true =>
          have opened := runFrom_openStreamAt number .start world
          rw [isClosed] at opened
          have refused : (feedOf (.handle .stream number)).runFrom world =
              (.error (.closedStream .start), world) := runFrom_bind_of_error _ opened
          exact ⟨_, world, runFrom_bind_of_error _ (runFrom_bind_of_error _ refused), .refl world,
            .closed rfl isClosed⟩
  | case4 container inductionHypothesis =>
      obtain ⟨outcome, after, gone, moves, unpacked⟩ := inductionHypothesis
      refine ⟨outcome, after, gone, moves, ?_⟩
      cases unpacked with
      | two gives => exact .two gives
      | tooFew gives few => exact .tooFew gives few
      | tooMany gives many => exact .tooMany gives many
      | closed isStream isClosed => exact .closed isStream isClosed
      | notIterable refuses => exact .notIterable refuses
  | case5 v notKept notIterator notStream noSequence =>
      cases parts : v.parts? with
      | some items =>
          have gives : Gives v world items := by
            rw [Gives, Store.partsOf?] <;> assumption
          exact runFrom_unpack_of_gives gives
      | none =>
          have refuses : isIterable v = false := by
            rw [isIterable, parts, Option.isSome_none] <;> assumption
          have fed : feedOf v = (do return .ofList (← Attempt.ofOption v.parts?)) := by
            rw [feedOf] <;> assumption
          have refused : (feedOf v).runFrom world = (.error .wrongType, world) := by
            rw [fed, parts]
            rfl
          exact ⟨_, world, runFrom_bind_of_error _ (runFrom_bind_of_error _ refused), .refl world,
            .notIterable refuses⟩

section Unique

variable {world : World} {v : Value} {items : List Value}

private theorem Lines.unique {stream : TextStream} {lines others : List Value}
    (first : Lines stream lines) (second : Lines stream others) : lines = others := by
  induction first generalizing others with
  | ends asks =>
      cases second with
      | ends => rfl
      | goesOn asks' => cases asks.symm.trans asks'
  | goesOn asks _ inductionHypothesis =>
      cases second with
      | ends asks' => cases asks.symm.trans asks'
      | goesOn asks' rest =>
          cases asks.symm.trans asks'
          rw [inductionHypothesis rest]

private theorem Gives.unique {others : List Value} (first : Gives v world items)
    (second : Gives v world others) : items = others := by
  fun_induction Gives v world items with
  | case1 number => exact first.symm.trans second
  | case2 number => exact first.2.unique second.2
  | case3 world items container inductionHypothesis => exact inductionHypothesis first second
  | case4 v world items notIterator notStream noSequence =>
      rw [Gives] at second
      · exact Option.some.inj (first.symm.trans second)
      all_goals assumption

/-- What gives items is iterable, and no closed stream. -/
theorem Gives.isIterable (gives : Gives v world items) : isIterable v = true ∧
    ∀ number, streamIn? v = some number → (world.store.streamAt number).isClosed = false := by
  fun_induction Gives v world items with
  | case1 number => exact ⟨rfl, nofun⟩
  | case2 number =>
      refine ⟨rfl, fun other same => ?_⟩
      cases same
      exact gives.1
  | case3 world items container inductionHypothesis => exact inductionHypothesis gives
  | case4 v world items notIterator notStream noSequence =>
      have noStream : streamIn? v = none := by
        rw [streamIn?] <;> assumption
      refine ⟨?_, fun number same => absurd (noStream.symm.trans same) nofun⟩
      by_cases isKept : ∃ number, v = .handle .growing number
      · obtain ⟨number, rfl⟩ := isKept
        rfl
      · have notKept (number : Nat) (same : v = .handle .growing number) : False :=
          isKept ⟨number, same⟩
        rw [Store.partsOf?] at gives
        · rw [Session.isIterable, gives, Option.isSome_some] <;> assumption
        all_goals assumption

private theorem isIterable_of_streamIn? {number : Nat} (isStream : streamIn? v = some number) :
    isIterable v = true := by
  fun_induction streamIn? v with
  | case1 => rfl
  | case2 container inductionHypothesis => exact inductionHypothesis isStream
  | case3 => cases isStream

/-- A value that gives items is taken apart as they are. -/
private theorem Unpacked.of_gives {outcome : Except Fault (Value × Value)}
    (unpacked : Unpacked world v outcome) (gives : Gives v world items) :
    outcome = Must.resultOf items := by
  cases unpacked with
  | two gives' =>
      cases gives.unique gives'
      rfl
  | tooFew gives' few =>
      cases gives.unique gives'
      match items, few with
      | [], _ => rfl
      | [_], _ => rfl
  | tooMany gives' many =>
      cases gives.unique gives'
      match items, many with
      | _ :: _ :: _ :: _, _ => rfl
  | closed isStream isClosed =>
      rw [gives.isIterable.2 _ isStream] at isClosed
      cases isClosed
  | notIterable refuses =>
      rw [gives.isIterable.1] at refuses
      cases refuses

/-- A value is taken apart in one way. -/
theorem Unpacked.unique {outcome other : Except Fault (Value × Value)}
    (first : Unpacked world v outcome) (second : Unpacked world v other) : outcome = other := by
  cases first with
  | two gives => exact (second.of_gives gives).symm
  | tooFew gives few =>
      rw [second.of_gives gives]
      exact (Unpacked.tooFew gives few).of_gives gives
  | tooMany gives many =>
      rw [second.of_gives gives]
      exact (Unpacked.tooMany gives many).of_gives gives
  | closed isStream isClosed =>
      cases second with
      | closed => rfl
      | notIterable refuses =>
          rw [isIterable_of_streamIn? isStream] at refuses
          cases refuses
      | two gives | tooFew gives | tooMany gives =>
          rw [gives.isIterable.2 _ isStream] at isClosed
          cases isClosed
  | notIterable refuses =>
      cases second with
      | notIterable => rfl
      | closed isStream =>
          rw [isIterable_of_streamIn? isStream] at refuses
          cases refuses
      | two gives | tooFew gives | tooMany gives =>
          rw [gives.isIterable.1] at refuses
          cases refuses

end Unique

/-! ## Results with their errors -/

/-- What becomes of a result with its error. Nothing is no error. A fault object is raised itself.
Whatever else the error is, also where it counts as false, it is wrapped in a fault object that
keeps it and has its text, unless it cannot be written. -/
inductive Settles (world : World) (result error : Value) : Except Fault Value → Prop where
  | nothing (isNull : error = .null) : Settles world result error (.ok result)
  | raised {t : Thrown Value} (isThrown : error = .thrown t) :
      Settles world result error (.error (.thrown t))
  | wrapped {t : Thrown Value} {text : String} (notNull : error ≠ .null)
      (notThrown : ∀ t, error ≠ .thrown t)
      (written : (world.store.settled error).plain = .ok text) (isMust : t.kind = .must)
      (keeps : t.carried = some error) (told : (Value.thrown t).plain = .ok text) :
      Settles world result error (.error (.thrown t))
  | unwritten {fault : Fault} (notNull : error ≠ .null) (notThrown : ∀ t, error ≠ .thrown t)
      (fails : (world.store.settled error).plain = .error fault) :
      Settles world result error (.error fault)

/-- A world in which one more object was made. -/
def World.counted (world : World) : World :=
  { world with store := { world.store with objects := world.store.objects + 1 } }

private theorem settled_counted (world : World) (v : Value) :
    world.counted.store.settled v = world.store.settled v := by
  have same : world.counted.store.lists = world.store.lists := rfl
  exact settled_of_lists same v

/-- How a result is settled depends on the lists of a world alone. -/
private theorem Settles.of_lists {before after : World}
    (same : after.store.lists = before.store.lists)
    {result error : Value} {outcome : Except Fault Value}
    (settles : Settles after result error outcome) : Settles before result error outcome := by
  cases settles with
  | nothing isNull => exact .nothing isNull
  | raised isThrown => exact .raised isThrown
  | wrapped notNull notThrown written isMust keeps told =>
      rw [settled_of_lists same] at written
      exact .wrapped notNull notThrown written isMust keeps told
  | unwritten notNull notThrown fails =>
      rw [settled_of_lists same] at fails
      exact .unwritten notNull notThrown fails

/-- A value that is neither nothing nor a fault object is wrapped. -/
private theorem requireNothing_of_other {error : Value} (notNull : error ≠ .null)
    (notThrown : ∀ t, error ≠ .thrown t) (number : Nat) (observed : Value) :
    Must.requireNothing number error observed =
      observed.plain.bind fun text => .error (.thrown (Must.wrap number error text)) := by
  unfold Must.requireNothing
  split
  · exact absurd rfl notNull
  · exact absurd rfl (notThrown _)
  · rfl

private theorem plain_wrap (number : Nat) (error : Value) (text : String) :
    (Value.thrown (Must.wrap number error text)).plain = .ok text := by
  show Except.ok (String.ofList text.toList) = _
  rw [String.ofList_toList]

/-- A result with its error is settled wherever the error is required to be nothing. -/
theorem runFrom_requireNothing (world : World) (result error : Value) : ∃ outcome,
    (do requireNothing error; return result : Run Value).runFrom world =
      (outcome, world.counted) ∧ Settles world result error outcome := by
  have numbered : newNumber.runFrom world = (.ok world.store.objects, world.counted) := rfl
  have required : (requireNothing error).runFrom world =
      (Must.requireNothing world.store.objects error (world.store.settled error),
        world.counted) := by
    rw [requireNothing, runFrom_bind_of_ok _ numbered, runFrom_bind_of_ok _ (runFrom_observe _ _),
      runFrom_lift, settled_counted]
  rw [runFrom_bind, required]
  by_cases isNull : error = .null
  · subst isNull
    exact ⟨_, rfl, .nothing rfl⟩
  · by_cases isThrown : ∃ t, error = .thrown t
    · obtain ⟨t, rfl⟩ := isThrown
      exact ⟨_, rfl, .raised rfl⟩
    · rw [not_exists] at isThrown
      rw [requireNothing_of_other isNull isThrown]
      cases written : (world.store.settled error).plain with
      | ok text => exact ⟨_, rfl, .wrapped isNull isThrown written rfl rfl (plain_wrap _ _ _)⟩
      | error fault => exact ⟨_, rfl, .unwritten isNull isThrown written⟩

/-! ## Demands -/

/-- What a demanding function does with what it was given: it takes it apart into a result and its
error, and gives the result alone. -/
def settle (v : Value) : Run Value := do
  let (result, error) ← unpack v
  requireNothing error
  return result

/-- What becomes of what a demanding function was given: it is refused, or its result is settled
with its error. -/
inductive Demanded (world : World) (v : Value) : Except Fault Value → Prop where
  | refused {fault : Fault} (unpacked : Unpacked world v (.error fault)) :
      Demanded world v (.error fault)
  | settled {result error : Value} {outcome : Except Fault Value}
      (unpacked : Unpacked world v (.ok (result, error)))
      (settles : Settles world result error outcome) : Demanded world v outcome

private theorem runFrom_settle (v : Value) (world : World) : ∃ outcome after,
    (settle v).runFrom world = (outcome, after) ∧ after.calls = world.calls ∧
      Demanded world v outcome := by
  obtain ⟨unpacked, moved, gone, moves, isUnpacked⟩ := runFrom_unpack v world
  have sameCalls : moved.calls = world.calls := by
    obtain ⟨_, _, rfl⟩ := moves
    rfl
  cases unpacked with
  | error fault => exact ⟨_, moved, runFrom_bind_of_error _ gone, sameCalls, .refused isUnpacked⟩
  | ok both =>
      obtain ⟨result, error⟩ := both
      obtain ⟨outcome, required, settles⟩ := runFrom_requireNothing moved result error
      have sameLists : moved.store.lists = world.store.lists := by
        obtain ⟨_, _, rfl⟩ := moves
        rfl
      exact ⟨outcome, moved.counted, (runFrom_bind_of_ok _ gone).trans required, sameCalls,
        .settled isUnpacked (settles.of_lists sameLists)⟩

/-- A demanding function calls its function once, and then settles what it was given. -/
theorem demand_eq (call : Caller) (f x : Value) : demand call f [x] = call f [x] >>= settle := by
  show (call f [x] >>= fun outcome => partsUpTo 3 outcome >>= fun parts =>
    lift (Must.resultOf parts) >>= fun (result, error) => _) = _
  unfold settle unpack
  simp only [bind_assoc]

/-- Demands turn errors into faults exactly.

A demanding function is made of a function and called with one argument like any other; it calls its
function once, with that argument, and what the function raises is raised. Otherwise what the
function gave is settled, in which no function is called: it is taken apart, in one way, into a
result and its error, and the result is given if the error is nothing. What gives fewer or more than
two is refused for its value, what cannot be gone through for its kind. To require of an error that
it be nothing fails as settling does, and the two other demands, which give one value or two, return
if it returns and fail with the same fault if it fails. -/
theorem demands_settle :
    (∀ (call : Caller) (f : Value) (world : World), ∃ after,
      (performCondition call .requireResult [f]).runFrom world =
        (.ok (.handle .function world.store.functions.size), after) ∧
      after.store.functions[world.store.functions.size]? = some (.demanding f)) ∧
    (∀ (depth number : Nat) (f x : Value) (world : World),
      world.store.functions[number]? = some (.demanding f) →
        (callTo (depth + 1) (.handle .function number) [x]).runFrom world =
          (callTo depth f [x] >>= settle).runFrom world) ∧
    (∀ (v : Value) (world : World), ∃ outcome after,
      (settle v).runFrom world = (outcome, after) ∧ after.calls = world.calls ∧
        Demanded world v outcome) ∧
    (∀ (v : Value) (world : World) (outcome other : Except Fault (Value × Value)),
      Unpacked world v outcome → Unpacked world v other → outcome = other) ∧
    (∀ count, (Fault.tooFewParts count).kind = .value ∧ Fault.tooManyParts.kind = .value ∧
      Fault.wrongType.kind = .type) ∧
    (∀ (call : Caller) (error : Value) (world : World), ∃ outcome,
      (performCondition call .requireNothing [error]).runFrom world = (outcome, world.counted) ∧
        Settles world .null error outcome) ∧
    (∀ (call : Caller) (v error : Value), performCondition call .requireOne [v, error] = (do
      let _ ← performCondition call .requireNothing [error]
      return v)) ∧
    ∀ (call : Caller) (v w error : Value), performCondition call .requireTwo [v, w, error] = (do
      let _ ← performCondition call .requireNothing [error]
      return .tuple [v, w]) := by
  refine ⟨?_, ?_, runFrom_settle, fun _ _ _ _ first second => first.unique second,
    fun _ => ⟨rfl, rfl, rfl⟩, ?_, ?_, ?_⟩
  · intro call f world
    refine ⟨_, rfl, ?_⟩
    exact Array.getElem?_push_size
  · intro depth number f x world known
    simp only [callTo]
    rw [runFrom_bind_of_ok _ (runFrom_store world), known, ← demand_eq]
    rfl
  · exact fun call error world => runFrom_requireNothing world .null error
  · intro call v error
    show _ = (requireNothing error >>= fun _ => pure Value.null) >>= fun _ => pure v
    rw [bind_assoc]
    rfl
  · intro call v w error
    show _ = ((requireNothing error >>= fun _ => pure Value.null) >>= fun _ =>
      pure (Value.tuple [v, w]))
    rw [bind_assoc]
    rfl

/-- A world with a function that gives a number with an empty text as its error, and a demanding
function made of it. -/
def demandingWorld : World :=
  let given : Literal := .const (.tuple [.scalar (.int 7), .scalar (.text "")])
  { World.start ⟨[]⟩ ⟨2024, 2, 29, 1, 2, 3, 0⟩ with
    store := { Store.empty with functions := #[.given given, .demanding (.handle .function 0)] } }

/-- An error that counts as false is an error all the same; a text of two characters is taken apart
into them and no otherwise. -/
theorem demands_settle_emptyText :
    demandingWorld.store.functions[1]? = some (.demanding (.handle .function 0)) ∧
    ((callTo 2 (.handle .function 1) [.null]).runFrom demandingWorld).1 =
      .error (.thrown ⟨0, .must, [.text ""], some (.text "")⟩) ∧
    Unpacked demandingWorld (.text "ab") (.ok (.text "a", .text "b")) ∧
    ∀ other, Unpacked demandingWorld (.text "ab") other → .ok (.text "a", .text "b") = other := by
  obtain ⟨-, calls, -, unique, -⟩ := demands_settle
  have known : demandingWorld.store.functions[1]? = some (.demanding (.handle .function 0)) := rfl
  have unpacked : Unpacked demandingWorld (.text "ab") (.ok (.text "a", .text "b")) := .two rfl
  refine ⟨known, ?_, unpacked, fun other => unique _ _ _ other unpacked⟩
  rw [calls 1 1 (.handle .function 0) .null demandingWorld known]
  rfl

end Presence.Session
