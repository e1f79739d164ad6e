import Presence.Proofs.Lists.Containers

/-!
Contract: kinds and rules as functions in closed worlds, and operations on loggers and on any value.

Owns: that making values of a kind, and what the functions given by rules do, is confined; that so
are the operations on loggers, and those on any value, where adding to a list changes that list.

Does not own: the operations of the other themes (`Presence.Proofs.Lists.Operations`,
`Presence.Proofs.Lists.Containers`).
-/

namespace Presence.Session

open Attempt Run

variable {changed : Nat → Prop} {call : Caller} {base : Nat} {v w f : Value}
  {arguments : List Value}

/-- Values of arguments that were given by name. -/
abbrev KeywordsKnown (size : Nat) (keywords : Keywords) : Prop :=
  ∀ keyword ∈ keywords, Known size keyword.2

/-! ## Loggers -/

/-- An argument that may be missing. -/
abbrev MaybeKnown (size : Nat) (v : Option Value) : Prop := ∀ w, v = some w → Known size w

private theorem MaybeKnown.getD {size : Nat} {v : Option Value} (known : MaybeKnown size v)
    (isOther : Known size w) : Known size (v.getD w) := by
  cases v with
  | none => exact isOther
  | some v => exact known v rfl

theorem confines_argumentsOf (parameters : List String) {keywords : Keywords}
    (known : AllKnown base arguments) (named : KeywordsKnown base keywords) :
    Confines changed base (argumentsOf parameters arguments keywords) fun size given =>
      ∀ v ∈ given, MaybeKnown size v := by
  unfold argumentsOf
  dsimp only
  split
  · exact .fail _
  · refine .pure fun _ more v member w isGiven => ?_
    rcases List.mem_append.mp member with byPlace | byName
    · obtain ⟨argument, isArgument, rfl⟩ := List.mem_map.mp byPlace
      cases isGiven
      exact (known _ isArgument).later more
    · obtain ⟨name, _, rfl⟩ := List.mem_map.mp byName
      obtain ⟨front, back, split, _⟩ := List.lookup_eq_some_iff.mp isGiven
      exact (named (name, w) (by simp [split])).later more

private theorem confines_contextOf (known : Known base v) :
    Confines changed base (contextOf v) AllEntriesKnown := by
  refine (confines_finds.truth known).next fun counts => ?_
  split
  · exact confines_entriesOf known
  · exact .pure fun _ _ => List.forall_mem_nil _

theorem confines_loggerOf {keywords : Keywords} (known : AllKnown base arguments)
    (named : KeywordsKnown base keywords) :
    Confines changed base (loggerOf arguments keywords) Known := by
  refine (confines_argumentsOf _ known named).bind fun _ _ given areGiven => ?_
  split
  · next name level asDocument context sink =>
      refine (Confines.ofAny _).next fun l => ?_
      refine (confines_contextOf ((areGiven context (by simp)).getD (.plain rfl))).next
        fun fields => confines_newLogger _
  · exact .fail _

theorem confines_loggerAt (number : Nat) : Confines changed base (loggerAt number) Whatever := by
  refine confines_store.next fun store => ?_
  split
  · exact .done
  · exact .fail _

private theorem confines_setLogger (number : Nat) (l : Logger) :
    Confines changed base (setLogger number l) Whatever :=
  .ofStill fun _ => ⟨rfl, rfl, rfl, rfl⟩

theorem confines_writeLine (channel : Channel) (line : List Char) :
    Confines changed base (writeLine channel line) Whatever :=
  .ofStill fun _ => ⟨rfl, rfl, rfl, rfl⟩

private theorem confines_writeTo (sink : Value) (line : List Char) :
    Confines changed base (writeTo sink line) Whatever := by
  unfold writeTo
  split
  · exact confines_writeLine _ _
  · refine (confines_openStreamAt _ _).next fun stream => (confines_setStream _ _).next fun _ => ?_
    split
    · exact confines_writeLine _ _
    · exact .done
  · exact .fail _
  · exact .fail _

private theorem confines_log (number : Nat) (level : Level) (message : Value) (fields : Keywords) :
    Confines changed base (log number level message fields) Whatever := by
  have observed : ∀ v, Confines changed base (observe v) Whatever := confines_observe
  have pairs : ∀ {α : Type} (g : α → Value × Value) (items : List α), Confines changed base
      (items.mapM fun item => do return (← observe (g item).1, ← observe (g item).2))
      Whatever := fun g items =>
    (Confines.mapM rises_whatever fun item _ =>
      (observed _).next fun _ => (observed _).next fun _ => .done).imp fun _ _ _ _ => trivial
  refine (confines_loggerAt number).next fun l => (Confines.ofAny _).next fun passes => ?_
  split
  · refine Confines.after ?_ fun l => ?_
    · exact (observed _).next fun _ => (observed _).next fun _ =>
        (pairs _ l.context).next fun _ => .done
    · refine (observed message).next fun _ => ?_
      refine Confines.after ?_ fun fields => confines_world.next fun _ =>
        (Confines.ofAny _).next fun _ => confines_writeTo _ _
      exact (Confines.mapM rises_whatever fun _ _ =>
        (observed _).next fun _ => .done).imp fun _ _ _ _ => trivial
  · exact .done

private theorem confines_messageOf (keywords : Keywords) :
    Confines changed base (messageOf arguments keywords) Whatever := by
  unfold messageOf
  split
  · exact .fail _
  · dsimp only
    split
    · exact .done
    · exact .done
    · exact .fail _

/-- An operation on a logger gives no list back. -/
private theorem confines_performOnLogger (operation : LoggerOperation) (number : Nat)
    {keywords : Keywords} (known : AllKnown base arguments) (named : KeywordsKnown base keywords) :
    Confines changed base (performOnLogger operation number arguments keywords) Known := by
  refine (confines_loggerAt number).next fun l => ?_
  split
  · refine (confines_argumentsOf _ known named).next fun given => ?_
    split
    · exact (Confines.ofAny _).next fun _ => (confines_setLogger _ _).next fun _ => .plain rfl
    · exact .fail _
  · refine (confines_argumentsOf _ known named).next fun given => ?_
    split
    · refine .ofExcept fun v answered _ _ => ?_
      obtain ⟨level?, _, answered⟩ := Value.bind_eq_ok answered
      cases level? with
      | none =>
          cases answered
          exact .plain rfl
      | some level =>
          obtain ⟨_, _, answered⟩ := Value.bind_eq_ok answered
          cases answered
          exact .plain rfl
    · exact .fail _
  · exact (confines_argumentsOf _ known named).next fun _ => .plain rfl
  · split
    · exact .fail _
    · exact confines_newLogger _
  · split
    · exact (confines_setLogger _ _).next fun _ => .plain rfl
    · exact .fail _
  · refine (confines_messageOf keywords).next fun given => ?_
    dsimp only
    split
    · exact (confines_log _ _ _ _).next fun _ => .plain rfl
    · exact (confines_log _ _ _ _).next fun _ => .plain rfl
    · exact (confines_log _ _ _ _).next fun _ => .plain rfl
    · exact (confines_log _ _ _ _).next fun _ => .plain rfl
    · exact Confines.after (.fail _) fun _ => .plain rfl

theorem confines_performLogger (operation : LoggerOperation) {keywords : Keywords}
    (known : AllKnown base arguments) (named : KeywordsKnown base keywords) :
    Confines changed base (performLogger operation arguments keywords) Known := by
  unfold performLogger
  split
  · exact confines_loggerOf known named
  · refine (confines_argumentsOf _ known named).next fun given => ?_
    split
    · next name variableName asDocument =>
        unfold loggerOfEnvironment
        split
        · exact confines_world.next fun _ => (Confines.ofAny _).next fun _ => confines_newLogger _
        · exact .fail _
    · exact .fail _
  · split
    · exact .fail _
    · next l rest =>
        rw [AllKnown, List.forall_mem_cons] at known
        refine Confines.after ?_ fun number =>
          confines_performOnLogger _ number known.2 named
        unfold loggerNumber
        split
        · exact .done
        · exact .fail _

/-! ## Functions that rules give -/

private theorem confines_readInt (v : Value) : Confines changed base (readInt v) Known := by
  have pair : ∀ {size : Nat} {v w : Value}, Known size v → Known size w →
      Known size (.tuple [v, w]) := fun first second =>
    .tuple (List.forall_mem_cons.mpr ⟨first, List.forall_mem_singleton.mpr second⟩)
  unfold readInt
  split
  · split
    · split
      · exact .fail _
      · exact .known (pair (.plain rfl) (.plain rfl))
    · exact (confines_newThrown .value (List.forall_mem_singleton.mpr (.plain rfl))).bind
        fun _ _ _ isThrown => .known (pair (.plain rfl) isThrown)
  · exact .fail _

theorem confines_applyUnary (rule : UnaryRule) (known : Known base v) :
    Confines changed base (applyUnary rule v) Known := by
  cases rule with
  | neg => exact (confines_observe v).next fun _ =>
      .ofExcept fun _ made _ _ => (Value.isPlain_neg made).holdsOnly
  | no => exact (confines_finds.truth known).next fun _ => .plain rfl
  | truth => exact (confines_finds.truth known).next fun _ => .plain rfl
  | plain => exact (confines_observe v).next fun _ => (Confines.ofAny _).next fun _ => .plain rfl
  | shown => exact (confines_observe v).next fun _ => (Confines.ofAny _).next fun _ => .plain rfl
  | size => exact (confines_finds.size known).next fun _ => .plain rfl
  | twice => exact .known (.list (List.forall_mem_cons.mpr
      ⟨known, List.forall_mem_singleton.mpr known⟩))
  | list => exact confines_finds.items .list .list (confines_finds.parts known)
  | tuple => exact confines_finds.items .tuple .tuple (confines_finds.parts known)
  | client => exact confines_newClient known (.plain rfl)
  | readInt => exact confines_readInt v

/-- An operator makes of two values what it makes of the lists that these hold. -/
private theorem confines_looked {operator : Value → Value → Except Fault Value}
    (holds : ∀ {size : Nat} {v w u : Value}, Known size v → Known size w →
      operator v w = .ok u → Known size u) (first : Known base v) (second : Known base w) :
    Confines changed base (do lift (operator (← look v) (← look w))) Known :=
  (confines_finds.look first).bind fun _ more _ isFirst =>
    (confines_finds.look (second.later more)).bind fun _ more' _ isSecond =>
      .ofExcept fun _ made _ more'' => (holds (isFirst.later more') isSecond made).later more''

theorem confines_applyBinary (rule : BinaryRule) (first : Known base v) (second : Known base w) :
    Confines changed base (applyBinary rule v w) Known := by
  have both : AllKnown base [v, w] :=
    List.forall_mem_cons.mpr ⟨first, List.forall_mem_singleton.mpr second⟩
  cases rule with
  | add => exact confines_looked Value.holdsOnly_add first second
  | sub => exact confines_looked (fun isFirst _ => Value.holdsOnly_sub isFirst) first second
  | mul => exact confines_looked Value.holdsOnly_mul first second
  | mod => exact (confines_observe v).next fun _ => (confines_observe w).next fun _ =>
      .ofExcept fun _ made _ _ => (Value.isPlain_mod made).holdsOnly
  | floorDiv =>
      exact confines_looked (fun _ _ made => (Value.isPlain_floorDiv made).holdsOnly) first second
  | same => exact (confines_observe v).next fun _ => (confines_observe w).next fun _ => .plain rfl
  | different =>
      exact (confines_observe v).next fun _ => (confines_observe w).next fun _ => .plain rfl
  | order sign => exact (confines_observe v).next fun _ => (confines_observe w).next fun _ =>
      Confines.after (.ofOption fun _ _ _ _ => trivial) fun _ => .plain rfl
  | item =>
      refine (confines_finds.look first).bind fun _ _ _ isSeen =>
        (confines_observe w).next fun _ => ?_
      exact .ofExcept fun _ found _ more => (Value.holdsOnly_item isSeen found).later more
  | within => exact (confines_holds second v).next fun _ => .plain rfl
  | tuple => exact .known (.tuple both)
  | list => exact .known (.list both)

/-! ## Kinds as functions -/

namespace Construct

private theorem confines_requireNames (arguments : List Value) :
    Confines changed base (requireNames arguments) Whatever := by
  fun_induction requireNames arguments with
  | case1 => exact .done
  | case2 => exact .fail _
  | case3 _ _ _ inductionHypothesis => exact inductionHypothesis
  | case4 => exact .fail _

theorem confines_requireEncoding (arguments : List Value) :
    Confines changed base (requireEncoding arguments) Whatever := by
  unfold requireEncoding
  split
  · exact confines_requireNames _
  · exact .fail _

theorem confines_encodingOf (name : String) :
    Confines changed base (encodingOf name) Whatever := by
  unfold encodingOf
  split
  · exact .done
  · exact .fail _

private theorem confines_octetsOfAll (beyond : Fault) (known : AllKnown base arguments) :
    Confines changed base (octetsOfAll beyond arguments) Whatever := by
  refine (confines_requireEncoding arguments).next fun _ => ?_
  split
  · exact .done
  · next x =>
      unfold octetsOf
      split
      · exact .fail _
      · exact .ofAny _
      · refine (confines_finds.feedOf known.one).bind fun _ _ _ next => ?_
        exact (confines_finds.collect rises_whatever next
          fun _ _ _ _ => .ofAny _).imp fun _ _ _ _ => trivial
  · refine (confines_encodingOf _).next fun encoding => ?_
    split
    · exact .done
    · exact .fail _
  · exact .fail _

private theorem confines_numberOf (kind : Kind) (arguments : List Value) :
    Confines changed base (numberOf kind arguments) Known := by
  unfold numberOf
  split
  · exact .plain rfl
  · exact (confines_observe _).next fun _ => (Confines.ofAny _).next fun _ => .plain rfl
  · exact (Confines.ofAny _).next fun _ => .plain rfl
  · exact .plain rfl
  · exact (Confines.ofAny _).next fun _ => .plain rfl
  · exact .plain rfl
  · exact .ofExcept fun _ made _ _ => (Value.isPlain_toComplex made).holdsOnly
  · exact .ofExcept fun _ made _ _ => (Value.isPlain_toComplexOf made).holdsOnly
  · exact .fail _

private theorem confines_textOf (arguments : List Value) :
    Confines changed base (textOf arguments) Known := by
  refine (confines_requireEncoding arguments).next fun _ => ?_
  split
  · exact .plain rfl
  · exact (confines_observe _).next fun _ => (Confines.ofAny _).next fun _ => .plain rfl
  · unfold decoded
    split
    · split
      · exact .fail _
      · exact .plain rfl
      · refine (confines_encodingOf _).next fun encoding => ?_
        split
        · exact .plain rfl
        · exact .fail _
    · exact .fail _
  · exact .fail _

private theorem confines_gathered (kind : Kind) (known : AllKnown base arguments) :
    Confines changed base (gathered kind arguments) Known := by
  unfold gathered
  split
  · exact .known (.list (List.forall_mem_nil _))
  · exact confines_finds.items .list .list (confines_finds.parts known.one)
  · exact .known (.tuple (List.forall_mem_nil _))
  · exact confines_finds.items .tuple .tuple (confines_finds.parts known.one)
  · exact .known (.set (List.forall_mem_nil _))
  · exact (confines_finds.feedOf known.one).bind fun _ _ _ next =>
      confines_finds.items .set .set (confines_toSet next)
  · exact .known (.frozenSet (List.forall_mem_nil _))
  · exact (confines_finds.feedOf known.one).bind fun _ _ _ next =>
      confines_finds.items .frozenSet .frozenSet (confines_toSet next)
  · exact .known (.dictionary (List.forall_mem_nil _) (List.forall_mem_nil _))
  · exact (confines_entriesOf known.one).bind fun _ _ _ areEntries =>
      .known (AllEntriesHold.dictionary areEntries)
  · exact .fail _

private theorem confines_contained (kind : Kind) (known : AllKnown base arguments) :
    Confines changed base (contained kind arguments) Known := by
  unfold contained
  split
  · exact .known (.ok known.one)
  · exact .known (.notOk (.plain rfl))
  · exact .known (.notOk known.one)
  · exact .known (.left known.one (.plain rfl))
  · exact .known (.left known.two.1 known.two.2)
  · exact .known (.right known.one (.plain rfl))
  · exact .known (.right known.two.1 known.two.2)
  · exact .known (.pair known.two.1 known.two.2)
  · exact .known (.sequence known.one)
  · exact .known (.guarded known.one)
  · exact .known (.deferred known.one)
  · exact .known (.ternary known.one (.plain rfl))
  · exact .known (.ternary known.two.1 known.two.2)
  · exact .known (.ternary known.three.1 known.three.2.1)
  · exact .known (.ternaryCall known.three.1 known.three.2.1 known.three.2.2)
  · exact .known (.parseError known.three.1 known.three.2.1 known.three.2.2)
  · exact .fail _

private theorem confines_held (holder : Holder) (known : AllKnown base arguments) :
    Confines changed base (held holder arguments) Known := by
  unfold held
  split
  · exact .known (.managed holder (.notOk (.plain rfl)))
  · exact .known (.managed holder known.one)
  · exact .fail _

private theorem confines_distinct (kind : Kind) (known : AllKnown base arguments) :
    Confines changed base (distinct kind arguments) Known := by
  unfold distinct
  split
  · exact confines_newNumber.next fun _ => .plain rfl
  · exact confines_newNumber.next fun _ => .plain rfl
  · exact confines_newNumber.next fun _ => .plain rfl
  · exact confines_newClient known.one (.plain rfl)
  · exact confines_newClient known.two.1 known.two.2
  · exact confines_newStream _
  · exact confines_newStream _
  · exact confines_newStream _
  · exact .fail _

end Construct

open Construct in
/-- A kind makes values of the lists that are kept. -/
theorem confines_construct (kind : Kind) (known : AllKnown base arguments) :
    Confines changed base (construct kind arguments) Known := by
  cases kind with
  | none =>
      unfold construct
      dsimp only
      split
      · exact .plain rfl
      · exact .fail _
  | bool =>
      unfold construct
      dsimp only
      split
      · exact .plain rfl
      · exact (confines_finds.truth known.one).next fun _ => .plain rfl
      · exact .fail _
  | type =>
      unfold construct
      dsimp only
      split
      · exact .plain rfl
      · exact .fail _
  | int | float | complex => exact confines_numberOf _ _
  | text => exact confines_textOf _
  | bytes | byteArray => exact (confines_octetsOfAll _ known).next fun _ => .plain rfl
  | list | tuple | set | frozenSet | dictionary => exact confines_gathered _ known
  | function | iterator | slice => exact .fail _
  | some | notOk | left | right | pair | sequence | guarded | deferred | ternary | parseError =>
      exact confines_contained _ known
  | managed | closable | clientHolder => exact confines_held _ known
  | option | either | object | client | stream => exact confines_distinct _ known
  | logger => exact confines_loggerOf known (List.forall_mem_nil _)
  | fault kind => exact (confines_newThrown kind known).bind fun _ _ _ isThrown => .known isThrown

/-! ## Any value -/

private theorem confines_runScript (script : Example.Script Unit) :
    Confines changed base (runScript script) Whatever := by
  refine confines_world.next fun world => ?_
  refine Confines.after (.ofStill fun _ => ⟨rfl, rfl, rfl, rfl⟩) fun _ => ?_
  exact .ofAny _

/-- Adding to a list changes that list alone. -/
private theorem confines_appendToList {item : Value} (known : Known base v)
    (isItem : Known base item) (may : ∀ number, v = .handle .growing number → changed number) :
    Confines changed base (appendToList v item) Known := by
  unfold appendToList
  split
  · next number => exact (confines_addToList (may number rfl) isItem).next fun _ => .known known
  · exact .fail _

/-- The operations on any value make of the lists that are kept what they make. -/
theorem confines_performGeneral (calls : CallerConfines changed call)
    (operation : GeneralOperation) (known : AllKnown base arguments)
    (may : operation = .appendToList → ∀ number rest,
      arguments = .handle .growing number :: rest → changed number) :
    Confines changed base (performGeneral call operation arguments) Known := by
  unfold performGeneral
  split
  · exact (confines_finds.size known.one).next fun _ => .plain rfl
  · exact (confines_observe _).next fun _ => (Confines.ofAny _).next fun _ =>
      (confines_writeLine _ _).next fun _ => .plain rfl
  · exact (confines_observe _).next fun _ => (confines_observe _).next fun _ => .plain rfl
  · exact (confines_observe _).next fun _ => (confines_observe _).next fun _ => .plain rfl
  · exact (confines_observe _).next fun _ => (Confines.ofAny _).next fun _ => .plain rfl
  · exact (confines_observe _).next fun _ => (Confines.ofAny _).next fun _ => .plain rfl
  · exact (confines_finds.truth known.one).next fun _ => .plain rfl
  · exact (Confines.ofAnyHash _).next fun _ => .plain rfl
  · exact (Confines.ofAnyHash _).next fun _ =>
      (Confines.ofAnyHash _).next fun _ => .plain rfl
  · exact .known known.one
  · rw [AllKnown, List.forall_mem_cons] at known
    exact calls known.1 known.2
  · exact confines_appendToList known.two.1 known.two.2 fun number isList =>
      may rfl number _ (by rw [isList])
  · refine (confines_observe _).next fun seen => ?_
    refine Confines.through (fun _ e => Example.parsePositive seen = .ok e)
      (.ofExcept fun _ parsed _ _ => parsed) fun _ _ e parsed => ?_
    split
    · obtain ⟨isInput, rfl⟩ := Example.isPlain_input parsed
      exact .known (.left (.parseError isInput.holdsOnly (.plain rfl) (.plain rfl)) (.plain rfl))
    · obtain rfl := Example.kind_of_right parsed
      exact .known (.right (.plain rfl) (.plain rfl))
  · exact (confines_runScript _).next fun _ => .plain rfl
  · exact confines_world.next fun _ => (confines_runScript _).next fun _ => .plain rfl
  · exact .fail _

end Presence.Session
