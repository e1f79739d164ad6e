import Presence.Either
import Presence.Proofs.Json.Grammar
import Presence.Proofs.Lists.Held

/-!
Contract: which lists and iterators payloads and documents hold.

Owns: zeros, and the values that documents spell, hold none; what is taken out of an option or a
side holds none but those that the option, the side or what stands in for it holds.

Does not own: operations in a session (`Presence.Proofs.Lists.Operations`).
-/

namespace Presence

variable {among : Handle → Prop} {v w kind : Value} {o : Optional Value Value}

/-! ## Zeros and options of values -/

theorem Value.holdsOnly_zeroOf (given : zeroOf kind = .ok v) : v.HoldsOnly among := by
  obtain ⟨_, _, isZero⟩ := Value.bind_eq_ok given
  split at isZero
  · next named _ =>
      obtain rfl := Except.ok.inj isZero
      cases named with
      | list => exact .list (List.forall_mem_nil _)
      | dictionary => exact .dictionary (List.forall_mem_nil _) (List.forall_mem_nil _)
      | tuple => exact .tuple (List.forall_mem_nil _)
      | set => exact .set (List.forall_mem_nil _)
      | frozenSet => exact .frozenSet (List.forall_mem_nil _)
      | _ => exact .plain rfl
  · cases isZero
    exact .plain rfl

namespace Optional

theorem holdsOnly_guarded (holds : v.HoldsOnly among) (condition : Bool) :
    (Value.option (guarded v condition)).HoldsOnly among := by
  cases condition with
  | false => exact .notOk (.kindLeft v)
  | true => exact .ok holds

theorem holdsOnly_ofNullable (holds : v.HoldsOnly among) (holdsKind : kind.HoldsOnly among) :
    (Value.option (ofNullable v kind)).HoldsOnly among := by
  unfold ofNullable
  split
  · exact .notOk holdsKind
  · exact .ok holds

theorem holdsOnly_get {flag : Bool} (holds : (Value.option o).HoldsOnly among)
    (given : o.get = .ok (v, flag)) : v.HoldsOnly among := by
  cases o with
  | ok payload =>
      cases given
      exact holds.of_ok
  | notOk kind =>
      obtain ⟨zero, isZero, given⟩ := Value.bind_eq_ok given
      cases given
      exact Value.holdsOnly_zeroOf isZero

theorem holdsOnly_orElse (holds : (Value.option o).HoldsOnly among)
    (holdsFallback : w.HoldsOnly among) : (o.orElse w).HoldsOnly among := by
  cases o with
  | ok payload => exact holds.of_ok
  | notOk kind => exact holdsFallback

theorem holdsOnly_mustGet (holds : (Value.option o).HoldsOnly among) (given : o.mustGet = .ok v) :
    v.HoldsOnly among := by
  cases o with
  | ok payload =>
      cases given
      exact holds.of_ok
  | notOk kind => cases given

theorem holdsOnly_kind (holds : (Value.option o).HoldsOnly among) : o.kind.HoldsOnly among := by
  cases o with
  | ok payload => exact .plain rfl
  | notOk kind => exact holds.of_notOk

end Optional

namespace Either

variable {e : Either Value Value Value}

theorem holdsOnly_get {flag : Bool} (holds : (Value.either e).HoldsOnly among)
    (given : e.get = .ok (v, flag)) : v.HoldsOnly among := by
  cases e with
  | left error kind =>
      obtain ⟨zero, isZero, given⟩ := Value.bind_eq_ok given
      cases given
      exact Value.holdsOnly_zeroOf isZero
  | right payload kind =>
      cases given
      exact holds.of_right.1

theorem holdsOnly_getLeft {flag : Bool} (holds : (Value.either e).HoldsOnly among)
    (given : e.getLeft = .ok (v, flag)) : v.HoldsOnly among := by
  cases e with
  | left error kind =>
      cases given
      exact holds.of_left.1
  | right payload kind =>
      obtain ⟨zero, isZero, given⟩ := Value.bind_eq_ok given
      cases given
      exact Value.holdsOnly_zeroOf isZero

theorem holdsOnly_getOrElse (holds : (Value.either e).HoldsOnly among)
    (holdsFallback : w.HoldsOnly among) : (e.getOrElse w).HoldsOnly among := by
  cases e with
  | left error kind => exact holdsFallback
  | right payload kind => exact holds.of_right.1

theorem holdsOnly_leftOrElse (holds : (Value.either e).HoldsOnly among)
    (holdsFallback : w.HoldsOnly among) : (e.leftOrElse w).HoldsOnly among := by
  cases e with
  | left error kind => exact holds.of_left.1
  | right payload kind => exact holdsFallback

theorem holdsOnly_mustGet (holds : (Value.either e).HoldsOnly among) (given : e.mustGet = .ok v) :
    v.HoldsOnly among := by
  cases e with
  | left error kind => cases given
  | right payload kind =>
      cases given
      exact holds.of_right.1

theorem holdsOnly_mustGetLeft (holds : (Value.either e).HoldsOnly among)
    (given : e.mustGetLeft = .ok v) : v.HoldsOnly among := by
  cases e with
  | left error kind =>
      cases given
      exact holds.of_left.1
  | right payload kind => cases given

theorem holdsOnly_toOption (holds : (Value.either e).HoldsOnly among) :
    (Value.option e.toOption).HoldsOnly among := by
  cases e with
  | left error kind => exact .notOk holds.of_left.2
  | right payload kind => exact .ok holds.of_right.1

end Either

/-! ## Documents -/

namespace Json

theorem holdsOnly_of_spellsPlain {text : List Char} (spells : SpellsPlain text v) :
    v.HoldsOnly among := by
  cases spells with
  | word isWord =>
      simp only [words, List.mem_cons, Prod.mk.injEq, List.not_mem_nil, or_false] at isWord
      rcases isWord with ⟨_, rfl⟩ | ⟨_, rfl⟩ | ⟨_, rfl⟩ | ⟨_, rfl⟩ | ⟨_, rfl⟩ | ⟨_, rfl⟩ <;>
        exact .plain rfl
  | whole _ _ _ _ => exact .plain rfl
  | real _ _ _ => exact .plain rfl

mutual

/-- A value that is read from a document refers to nothing. -/
theorem holdsOnly_of_spellsValue {text rest : List Char} {v : Value} :
    SpellsValue text v rest → v.HoldsOnly among
  | .text _ => .plain rfl
  | .emptyList _ => .list (List.forall_mem_nil _)
  | .list spells => .list (holdsOnly_of_spellsItems spells)
  | .emptyDictionary _ => .dictionary (List.forall_mem_nil _) (List.forall_mem_nil _)
  | .dictionary spells => by
      refine .dictionary (fun entry isEntry => ?_) fun entry isEntry => ?_
      all_goals obtain ⟨member, isKept, rfl⟩ := List.mem_map.mp isEntry
      · exact .plain rfl
      · exact holdsOnly_of_spellsMembers spells member (mem_of_mem_kept isKept)
  | .plain spells => holdsOnly_of_spellsPlain spells

theorem holdsOnly_of_spellsItems {text rest : List Char} {items : List Value} :
    SpellsItems text items rest → ∀ item ∈ items, item.HoldsOnly among
  | .last spells _ => List.forall_mem_singleton.mpr (holdsOnly_of_spellsValue spells)
  | .cons spells _ follow => List.forall_mem_cons.mpr
      ⟨holdsOnly_of_spellsValue spells, holdsOnly_of_spellsItems follow⟩

theorem holdsOnly_of_spellsMembers {text rest : List Char} {members : List (String × Value)} :
    SpellsMembers text members rest → ∀ member ∈ members, member.2.HoldsOnly among
  | .last _ _ spells _ => List.forall_mem_singleton.mpr (holdsOnly_of_spellsValue spells)
  | .cons _ _ spells _ follow => List.forall_mem_cons.mpr
      ⟨holdsOnly_of_spellsValue spells, holdsOnly_of_spellsMembers follow⟩

end

private theorem holdsOnly_of_read {text : List Char} (isRead : read text = .ok v) :
    v.HoldsOnly among := by
  unfold read at isRead
  cases whole : readWhole text with
  | error halt =>
      rw [whole] at isRead
      cases isRead
  | ok found =>
      rw [whole] at isRead
      cases isRead
      obtain ⟨_, spells, _⟩ := spellsValue_of_readWhole whole
      exact holdsOnly_of_spellsValue spells

theorem holdsOnly_of_load {source : Value} (loaded : load source = .ok v) : v.HoldsOnly among := by
  have octets : ∀ {octets}, loadOctets octets = .ok v → v.HoldsOnly among := by
    intro octets isLoaded
    unfold loadOctets at isLoaded
    split at isLoaded
    · exact holdsOnly_of_read isLoaded
    · cases isLoaded
  unfold load at loaded
  split at loaded
  · split at loaded
    · cases loaded
    · exact holdsOnly_of_read loaded
  · exact octets loaded
  · exact octets loaded
  · cases loaded

end Json

end Presence
