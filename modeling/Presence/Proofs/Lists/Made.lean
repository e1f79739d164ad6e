import Presence.Proofs.Lists.GoneThrough

/-!
Contract: values that are made, kept and told in closed worlds.

Owns: that the values of literals that name no list by a handle hold only lists that are kept, and
so do fault objects, values whose lists are kept, and what is told; that no list that is kept before
changes by any of it.

Does not own: confined computations themselves (`Presence.Proofs.Lists.Confined`).
-/

namespace Presence.Session

open Attempt Run

variable {changed : Nat → Prop} {base : Nat}

/-! ## Fault objects -/

/-- A fault object that holds only lists that are kept. -/
abbrev ThrownKnown (size : Nat) (t : Thrown Value) : Prop := Known size (.thrown t)

private theorem confines_newWrapped {error : Value} (known : Known base error) :
    Confines changed base (newWrapped error) ThrownKnown := by
  refine (confines_observe error).next fun observed => ?_
  refine (Confines.ofAny _).next fun text => ?_
  refine confines_newNumber.next fun number => .pure fun _ more => .thrown number .must ?_ ?_
  · exact List.forall_mem_singleton.mpr (.plain rfl)
  · intro v isError
    cases isError
    exact known.later more

private theorem confines_requirePlace {arguments : List Value} (known : AllKnown base arguments) :
    Confines changed base (requirePlace arguments) Whatever := by
  unfold requirePlace
  split
  · next first details =>
      refine (confines_finds.parts (known details (by simp))).next fun parts => ?_
      dsimp only
      split
      · exact .fail _
      · exact .done
  · exact .done

theorem confines_newThrown (kind : FaultKind) {arguments : List Value}
    (known : AllKnown base arguments) :
    Confines changed base (newThrown kind arguments) ThrownKnown := by
  have numbered : ∀ kind, Confines changed base
      (do return (⟨← newNumber, kind, arguments, none⟩ : Thrown Value)) ThrownKnown := fun kind =>
    confines_newNumber.next fun number => .pure fun _ more =>
      .thrown number kind (rises_allKnown known more) nofun
  unfold newThrown
  split
  · next error => exact confines_newWrapped (List.forall_mem_singleton.mp known)
  -- Errors of devices, and then all kinds that take any arguments; the rest refuse theirs.
  case h_9 => exact numbered _
  case h_10 =>
    split
    · exact (confines_requirePlace known).next fun _ => numbered kind
    · exact numbered kind
  all_goals exact .fail _

/-! ## Literals -/

/-- The items of a set are among those that it is made of. -/
private theorem confines_setOf {items : List Value} (known : AllKnown base items) :
    Confines changed base (Attempt.ofHash (Value.setOf items)) AllKnown :=
  .ofHash fun _ isSet _ more item member =>
    (known item (Value.mem_of_setOf isSet item member)).later more

private theorem confines_dictionaryOf {entries : List (Value × Value)}
    (known : AllEntriesKnown base entries) :
    Confines changed base (Attempt.ofHash (Value.dictionaryOf entries)) AllEntriesKnown :=
  .ofHash fun _ isMade _ more =>
    rises_allEntriesKnown (Value.holdsOnly_dictionaryOf known isMade) more

/-- What has a name holds only lists that are kept. -/
private theorem confines_variable (name : String) :
    Confines changed base (Literal.variable name).build Known := by
  refine Confines.through (fun size world => ∀ binding ∈ world.bindings,
    Known size binding.2) ?_ fun size more world isKnown => ?_
  · exact .ofAlike (fun _ => ⟨rfl, rfl, rfl, rfl⟩) fun world _ closed result ended => by
      cases ended
      exact closed.bindings
  · split
    · next v found =>
        obtain ⟨front, back, split, _⟩ := List.lookup_eq_some_iff.mp found
        exact .known (isKnown (name, v) (by simp [split]))
    · exact .fail _

mutual

/-- The value of a literal holds only lists that are kept, the new ones included. -/
theorem confines_build : (literal : Literal) → literal.namesNoSource = true →
    Confines changed base literal.build Known
  | .scalar s, names => .plain (Option.isNone_iff_eq_none.mp names)
  | .list items, names => (confines_buildItems items names).bind fun _ _ _ areMade =>
      confines_newList areMade
  | .tuple items, names => confines_finds.items .tuple .tuple (confines_buildItems items names)
  | .set items, names => (confines_buildItems items names).bind fun _ _ _ areMade =>
      confines_finds.items .set .set (confines_setOf areMade)
  | .frozenSet items, names => (confines_buildItems items names).bind fun _ _ _ areMade =>
      confines_finds.items .frozenSet .frozenSet (confines_setOf areMade)
  | .dictionary entries, names => (confines_buildEntries entries names).bind fun _ _ _ areMade =>
      (confines_dictionaryOf areMade).bind fun _ _ _ areKept =>
        .pure fun _ more => AllEntriesHold.dictionary (rises_allEntriesKnown areKept more)
  | .some v, names => confines_finds.one (fun v => .option (.ok v)) .ok (confines_build v names)
  | .notOk kind, _ => .known (.notOk (.ofKind? kind))
  | .left v kind, names => confines_finds.one (fun v => .either (.left v (.ofKind? kind)))
      (fun isKnown => .left isKnown (.ofKind? kind)) (confines_build v names)
  | .right v kind, names => confines_finds.one (fun v => .either (.right v (.ofKind? kind)))
      (fun isKnown => .right isKnown (.ofKind? kind)) (confines_build v names)
  | .pair v w, names => by
      have both := Bool.and_eq_true_iff.mp names
      exact confines_finds.two (fun v w => .pair ⟨v, w⟩) .pair (confines_build v both.1)
        (confines_build w both.2)
  | .sequence items, names => confines_finds.items (fun items => .ofSequence ⟨items⟩) .ofSequence
      (confines_buildItems items names)
  | .managed holder basic, names =>
      confines_finds.one (fun basic => .managed ⟨holder, basic⟩) (.managed holder)
        (confines_build basic names)
  | .thrown kind argument, names => (confines_build argument names).bind fun _ _ _ isMade =>
      (confines_newThrown kind (List.forall_mem_singleton.mpr isMade)).bind
        fun _ _ _ isThrown => .known isThrown
  | .client users failing, names => (confines_build users names).bind fun _ _ _ isMade =>
      confines_newClient isMade (.plain rfl)
  | .bareOption, _ => confines_newNumber.next fun _ => .plain rfl
  | .bareEither, _ => confines_newNumber.next fun _ => .plain rfl
  | .variable name, _ => confines_variable name
  | .iterator items, names => (confines_buildItems items names).bind fun _ _ _ areMade =>
      confines_newIterator areMade
  | .stream name, _ => confines_streamOf name
  | .malformed, _ => .fail _
  | .const v, names => confines_newFunction (.given (.const v)) names
  | .fail kind argument, names =>
      confines_newFunction (.given (.fail kind argument)) names
  | .first, names => confines_newFunction (.given .first) names
  | .second, names => confines_newFunction (.given .second) names
  | .unary rule, names => confines_newFunction (.given (.unary rule)) names
  | .binary rule fixed, names =>
      confines_newFunction (.given (.binary rule fixed)) names
  | .compose functions, names =>
      confines_newFunction (.given (.compose functions)) names
  | .choose condition yes no, names =>
      confines_newFunction (.given (.choose condition yes no)) names
  | .operation named rest, names =>
      confines_newFunction (.given (.operation named rest)) names

theorem confines_buildItems : (items : List Literal) → Literal.allNameNoSource items = true →
    Confines changed base (Literal.buildItems items) AllKnown
  | [], _ => .pure fun _ _ => List.forall_mem_nil _
  | item :: rest, names => by
      have both := Bool.and_eq_true_iff.mp names
      exact confines_finds.cons (confines_build item both.1) (confines_buildItems rest both.2)

theorem confines_buildEntries : (entries : List (Literal × Literal)) →
    Literal.entriesNameNoSource entries = true →
      Confines changed base (Literal.buildEntries entries) AllEntriesKnown
  | [], _ => .pure fun _ _ => List.forall_mem_nil _
  | (key, v) :: rest, names => by
      have all := Bool.and_eq_true_iff.mp names
      have both := Bool.and_eq_true_iff.mp all.1
      exact confines_finds.consEntry (confines_build key both.1) (confines_build v both.2)
        (confines_buildEntries rest all.2)

end

theorem confines_buildArgument {literal : Literal} (names : literal.namesNoSource = true)
    (place : Nat) : Confines changed base (literal.buildArgument place) Known := by
  refine (confines_build literal names).bind fun size more v isKnown => ?_
  split
  · exact confines_newFunction (.traced place v) isKnown
  · exact .known isKnown

/-! ## Keeping and telling -/

theorem confines_keep {v : Value} (known : Known base v) :
    Confines changed base (keep v) Known := by
  exact confines_finds.rebuild ⟨fun number below => .known (.growing (below rfl)),
    fun _ _ _ => confines_newList, fun _ _ _ isKnown => .known isKnown⟩ known

theorem confines_tell {v : Value} (known : Known base v) :
    Confines changed base (tell v) Known :=
  confines_store.next fun _ => (confines_finds.tellTo _ _ known).bind fun _ _ _ isTold =>
    (Confines.ofAny _).next fun _ => .known isTold

end Presence.Session
