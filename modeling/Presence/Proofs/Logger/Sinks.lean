import Presence.Proofs.Session.Frames
import Presence.Session.Logging

/-!
Contract: where the lines of loggers go.

Owns: `Console.on`, the text of a channel; `Store.channelOf?`, the channel that a sink leads to;
`World.written`, a world after a line has been written; that streams at their ends go on holding
what was said under their names.

Does not own: what lines hold, and when they are written (`Presence.Proofs.Logger.Operations`).
-/

namespace Presence

/-- The text that was written to a channel. -/
def Console.on (console : Console) : Channel → List Char
  | .output => console.output
  | .errors => console.errors
  | .named name => (console.streams.lookup name).getD []

namespace Console

private theorem lookup_addTo (name other : String) (text : List Char)
    (streams : List (String × List Char)) :
    ((addTo name text streams).lookup other).getD [] =
      (streams.lookup other).getD [] ++ if other = name then text else [] := by
  induction streams with
  | nil =>
      by_cases same : other = name
      · simp [addTo, same]
      · simp [addTo, same, List.lookup_cons, beq_false_of_ne same]
  | cons stream rest inductionHypothesis =>
      obtain ⟨first, said⟩ := stream
      by_cases isFirst : other = first
      · subst isFirst
        by_cases isName : other = name <;> simp [addTo, isName]
      · have passed := beq_false_of_ne isFirst
        by_cases isName : first = name
        · subst isName
          simp [addTo, List.lookup_cons, passed, isFirst]
        · simp only [addTo, if_neg isName, List.lookup_cons, passed]
          exact inductionHypothesis

/-- A line goes to the end of its channel, and to no other one. -/
theorem on_writeLine (console : Console) (channel other : Channel) (line : List Char) :
    (console.writeLine channel line).on other =
      console.on other ++ if other = channel then line ++ ['\n'] else [] := by
  cases channel <;> cases other <;> simp [writeLine, on, lookup_addTo]

end Console

namespace Session

open Attempt Run

/-- The channel that a sink leads to. -/
def Store.channelOf? (store : Store) (sink : Value) : Option Channel :=
  match sink with
  | .null => some .errors
  | .handle .stream number =>
      match store.streams[number]? with
      | some stream => if stream.isClosed then none else stream.name.map .named
      | none => none
  | _ => none

/-- A store with a line more in the stream that a sink is. -/
def Store.received (store : Store) (sink : Value) (line : List Char) : Store :=
  match sink with
  | .handle .stream number =>
      { store with
        streams :=
          store.streams.setIfInBounds number ((store.streamAt number).write (line ++ ['\n'])) }
  | _ => store

/-- A world in which a line has gone to a channel through a sink. -/
def World.written (world : World) (sink : Value) (channel : Channel) (line : List Char) : World :=
  { world with
    store := world.store.received sink line
    console := world.console.writeLine channel line }

theorem channelOf?_cases {store : Store} {sink : Value} {channel : Channel}
    (leads : store.channelOf? sink = some channel) :
    (sink = .null ∧ channel = .errors) ∨
      ∃ number stream name, sink = .handle .stream number ∧
        store.streams[number]? = some stream ∧ stream.isClosed = false ∧
        stream.name = some name ∧ channel = .named name := by
  unfold Store.channelOf? at leads
  split at leads
  · exact .inl ⟨rfl, (Option.some.inj leads).symm⟩
  · next number =>
      split at leads
      · next stream found =>
          split at leads
          · cases leads
          · next isOpen =>
              obtain ⟨name, named, same⟩ := Option.map_eq_some_iff.mp leads
              exact .inr ⟨number, stream, name, rfl, found, by simpa using isOpen, named, same.symm⟩
      · cases leads
  · cases leads

/-- A line goes where its sink leads to. -/
theorem runFrom_writeTo {world : World} {sink : Value} {channel : Channel}
    (leads : world.store.channelOf? sink = some channel) (line : List Char) :
    (writeTo sink line).runFrom world = (.ok (), world.written sink channel line) := by
  rcases channelOf?_cases leads with
    ⟨rfl, rfl⟩ | ⟨number, stream, name, rfl, found, isOpen, named, rfl⟩
  · rfl
  · have there : world.store.streamAt number = stream := by rw [Store.streamAt, found]; rfl
    have opened := runFrom_openStreamAt number .transfer world
    rw [there, if_neg (by simp [isOpen])] at opened
    show (writeToStream number line).runFrom world = _
    unfold writeToStream
    rw [runFrom_bind_of_ok _ opened]
    simp only [named, World.written, Store.received, there]
    rfl

/-- What is answered after a line makes no difference to the world. -/
theorem snd_writeTo_return (sink : Value) (line : List Char) (answer : Value) (world : World) :
    ((do writeTo sink line; return answer : Run Value).runFrom world).2 =
      ((writeTo sink line).runFrom world).2 := by
  rw [runFrom_bind]
  rcases (writeTo sink line).runFrom world with ⟨fault | _, after⟩ <;> rfl

/-- A sink that leads nowhere takes no line. -/
theorem quiet_writeTo {world : World} {said : String → List Char} (holds : world.store.Holds said)
    {sink : Value} (nowhere : world.store.channelOf? sink = none) (line : List Char) :
    Quiet world ((writeTo sink line).runFrom world).2 := by
  unfold writeTo
  split
  · cases nowhere
  · next number =>
      rcases found : world.store.streams[number]? with _ | stream
      · have blank : world.store.streamAt number = .ofText none [] := by
          rw [Store.streamAt, found]
          rfl
        have opened := runFrom_openStreamAt number .transfer world
        rw [blank] at opened
        unfold writeToStream
        rw [runFrom_bind_of_ok _ opened]
        refine ⟨rfl, rfl, rfl, rfl, fun said holds => holds.of_streams_eq ?_⟩
        exact Array.setIfInBounds_eq_of_size_le (Array.getElem?_eq_none_iff.mp found)
      · obtain ⟨name, rfl⟩ := holds.each number stream found
        simp [Store.channelOf?, found] at nowhere
  · exact .refl world
  · exact .refl world

/-- A text goes to the end of a stream that stands there. -/
private theorem write_ofSaid (name : String) (said text : List Char) :
    TextStream.write ⟨some name, said, said.length, false⟩ text =
      ⟨some name, said ++ text, (said ++ text).length, false⟩ := by
  simp [TextStream.write]

private theorem map_name_received (store : Store) (sink : Value) (line : List Char) (place : Nat) :
    ((store.received sink line).streams[place]?).map TextStream.name =
      (store.streams[place]?).map TextStream.name := by
  unfold Store.received
  split
  · next number =>
      rw [Array.getElem?_setIfInBounds]
      split
      · next same =>
          subst same
          split
          · next inside =>
              rw [Store.streamAt, Array.getElem?_eq_getElem inside]
              rfl
          · next outside => rw [Array.getElem?_eq_none (by omega)]
      · rfl
  · rfl

/-- The stream that receives a line holds it at its end; the others stay as they are. -/
private theorem Store.Holds.getElem?_received {store : Store} {said : String → List Char}
    (holds : store.Holds said) {number : Nat} {stream : TextStream} {name : String}
    (found : store.streams[number]? = some stream) (named : stream.name = some name)
    (line : List Char) (place : Nat) :
    (store.received (.handle .stream number) line).streams[place]? =
      if place = number then
        some ⟨some name, said name ++ (line ++ ['\n']),
          (said name ++ (line ++ ['\n'])).length, false⟩
      else store.streams[place]? := by
  have inside : number < store.streams.size := (Array.getElem?_eq_some_iff.mp found).1
  obtain ⟨other, rfl⟩ := holds.each number stream found
  cases named
  have atEnd : store.streamAt number = ⟨some name, said name, (said name).length, false⟩ := by
    rw [Store.streamAt, found]
    rfl
  simp only [Store.received, Array.getElem?_setIfInBounds, atEnd, write_ofSaid, if_pos inside,
    eq_comm]

/-- Streams that hold what was said hold the line too that one of them receives. -/
theorem Store.Holds.received {store : Store} {said : String → List Char} (holds : store.Holds said)
    {sink : Value} {channel : Channel} (leads : store.channelOf? sink = some channel)
    (line : List Char) :
    (store.received sink line).Holds fun name =>
      said name ++ if .named name = channel then line ++ ['\n'] else [] := by
  rcases channelOf?_cases leads with ⟨rfl, rfl⟩ | ⟨number, stream, name, rfl, found, _, named, rfl⟩
  · simpa [Store.received] using holds
  · have places := holds.getElem?_received found named line
    have names := map_name_received store (.handle .stream number) line
    refine ⟨?_, ?_, ?_⟩
    · intro place current there
      rw [places] at there
      split at there
      · cases there
        exact ⟨name, by simp⟩
      · next isOther =>
          obtain ⟨other, rfl⟩ := holds.each place current there
          have otherName : other ≠ name := by
            rintro rfl
            exact isOther (holds.distinct place number _ stream there found named.symm)
          exact ⟨other, by simp [otherName]⟩
    · intro i j first second thereFirst thereSecond same
      have nameFirst := names i
      have nameSecond := names j
      rw [thereFirst, Option.map_some, eq_comm, Option.map_eq_some_iff] at nameFirst
      rw [thereSecond, Option.map_some, eq_comm, Option.map_eq_some_iff] at nameSecond
      obtain ⟨oldFirst, foundFirst, keepsFirst⟩ := nameFirst
      obtain ⟨oldSecond, foundSecond, keepsSecond⟩ := nameSecond
      exact holds.distinct i j oldFirst oldSecond foundFirst foundSecond
        (keepsFirst.trans (same.trans keepsSecond.symm))
    · intro other unnamed
      have oldUnnamed : ∀ (place : Nat) current, store.streams[place]? = some current →
          current.name ≠ some other := by
        intro place current old
        have keeps := names place
        rw [old, Option.map_some, Option.map_eq_some_iff] at keeps
        obtain ⟨now, there, same⟩ := keeps
        rw [← same]
        exact unnamed place now there
      have otherName : other ≠ name := by
        rintro rfl
        exact oldUnnamed number stream found named
      simp [holds.silent other oldUnnamed, otherName]

end Session

end Presence
