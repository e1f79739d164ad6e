import Presence.Proofs.Kinds.Options
import Presence.Proofs.Kinds.Sides
import Presence.Session.Step

/-!
Contract: kinds are seen by no operation but those that give a zero or the kind itself.

Owns: what is asked of sequences comes to kindred answers; that similar values are kindred
(`kindred_of_similar`); `kinds_unseen`.

Does not own: what is asked of options, of sides and of holders (`Presence.Proofs.Kinds.Options`,
`Presence.Proofs.Kinds.Sides`, `Presence.Proofs.Kinds.Members`).
-/

namespace Presence.Session

open Attempt Run Value

variable {call : Caller} {world : World}

/-! ## Sequences -/

section Sequences

variable {items items' v v' : Value}

/-- What is made of parts that a world with the same lists has given. -/
theorem Indistinct.of_hasLists {α β : Type} {related : α → β → Prop} {first : Run α}
    {second : Run β}
    (alike : Alike world (fun after a b => HasLists world.store after ∧ related a b) first second)
    {make : α → Value} {make' : β → Value}
    (makes : ∀ a b, related a b → Kindred world.store (make a) (make' b)) :
    Indistinct world (do return make (← first)) (do return make' (← second)) :=
  alike.bind fun _ a b ⟨hasLists, relates⟩ =>
    Alike.pure ⟨(makes a b relates).of_lists hasLists, .of_hasLists hasLists⟩

private theorem kindred_sequence {xs ys : List Value}
    (each : List.Forall₂ (Kindred world.store) xs ys) :
    Kindred world.store (sequence xs) (sequence ys) :=
  kindred_sequence_iff.mpr (.tuple each)

private theorem indistinct_unique (kindred : Kindred world.store items items')
    (opens : world.store.Opens items) (opens' : world.store.Opens items') :
    Indistinct world (performSequence call .unique [.sequence ⟨items⟩])
      (performSequence call .unique [.sequence ⟨items'⟩]) := by
  simp only [performSequence, itemsOf, containerOf, pure_bind]
  have distinct : Alike world (fun after xs ys => HasLists world.store after ∧
      List.Forall₂ (Kindred world.store) xs ys)
      (do (← feedOf items).unique) (do (← feedOf items').unique) :=
    (alike_feedOf items kindred opens opens' rfl).bind fun _ _ _ ⟨hasLists, feeds⟩ =>
      alike_unique feeds hasLists
  have made := Indistinct.of_hasLists distinct fun _ _ => kindred_sequence
  simpa only [bind_assoc] using made

private theorem indistinct_toSet (kindred : Kindred world.store items items')
    (opens : world.store.Opens items) (opens' : world.store.Opens items') :
    Indistinct world (performSequence call .toSet [.sequence ⟨items⟩])
      (performSequence call .toSet [.sequence ⟨items'⟩]) := by
  simp only [performSequence, itemsOf, containerOf, pure_bind]
  have gathered : Alike world (fun after xs ys => HasLists world.store after ∧
      List.Forall₂ (Kindred world.store) xs ys)
      (do (← feedOf items).toSet) (do (← feedOf items').toSet) :=
    (alike_feedOf items kindred opens opens' rfl).bind fun _ _ _ ⟨hasLists, feeds⟩ =>
      alike_toSet feeds hasLists
  have made := Indistinct.of_hasLists gathered fun _ _ => Kindred.set
  simpa only [bind_assoc] using made

private theorem indistinct_contains (kindred : Kindred world.store items items')
    (opens : world.store.Opens items) (opens' : world.store.Opens items')
    (target : Kindred world.store v v') :
    Indistinct world (performSequence call .contains [.sequence ⟨items⟩, v])
      (performSequence call .contains [.sequence ⟨items'⟩, v']) := by
  simp only [performSequence, containerOf, pure_bind]
  refine .of_hasLists (alike_holds kindred target opens opens' rfl) ?_
  rintro found _ rfl
  exact Kindred.refl _

theorem indistinct_containsAny (kindred : Kindred world.store items items')
    (opens : world.store.Opens items) (opens' : world.store.Opens items')
    (targets : Kindred world.store v v') (opensTargets : world.store.Opens v)
    (opensTargets' : world.store.Opens v') :
    Indistinct world (do return .bool (← containsAny items v))
      (do return .bool (← containsAny items' v')) := by
  refine .of_hasLists (alike_containsAny kindred targets opens opens' opensTargets opensTargets'
    rfl) ?_
  rintro found _ rfl
  exact Kindred.refl _

private theorem indistinct_meets (kindred : Kindred world.store items items')
    (opens : world.store.Opens items) (opens' : world.store.Opens items')
    (targets : Kindred world.store v v') (opensTargets : world.store.Opens v)
    (opensTargets' : world.store.Opens v') :
    Indistinct world (performSequence call .meets [.sequence ⟨items⟩, v])
      (performSequence call .meets [.sequence ⟨items'⟩, v']) := by
  simp only [performSequence, containerOf, pure_bind]
  refine (calm_size targets).indistinct fun size _ same => ?_
  rw [← same]
  -- Nothing is asked for where there are no targets.
  by_cases none : size = 0
  · rw [if_pos none, if_pos none]
    exact .refl rfl
  · rw [if_neg none, if_neg none]
    exact indistinct_containsAny kindred opens opens' targets opensTargets opensTargets'

end Sequences

/-! ## What sees kinds -/

section Tellers

theorem not_indistinct {first second : Run Value} {v w : Value}
    (ended : first.runFrom world = (.ok v, world))
    (ended' : second.runFrom world = (.ok w, world)) (differ : ¬ Kindred world.store v w) :
    ¬ Indistinct world first second := by
  intro indistinct
  cases indistinct with
  | error failed => cases ended.symm.trans failed
  | ok came came' relates =>
      cases ended.symm.trans came
      cases ended'.symm.trans came'
      exact differ relates.1

theorem not_kindred_zeros (store : Store) : ¬ Kindred store (.int 0) (.text "") := nofun

theorem not_kindred_flagged (store : Store) :
    ¬ Kindred store (.tuple [.int 0, .bool false]) (.tuple [.text "", .bool false]) := by
  intro kindred
  rw [Kindred, settled_tuple, settled_tuple] at kindred
  cases kindred with
  | tuple items =>
      cases items with
      | cons first _ => exact not_kindred_zeros store first

/-- Each operation on options that gives a zero or the kind tells some kindred options apart. -/
theorem option_tells (call : Caller) (world : World) :
    ∀ operation ∈ OptionOperation.tellers, ∃ o o', Kindred world.store (.option o) (.option o') ∧
      ¬ Indistinct world (performOption call operation [.option o])
        (performOption call operation [.option o']) := by
  intro operation member
  refine ⟨.notOk (.ofKind .int), .notOk (.ofKind .text), .notOk _ _, ?_⟩
  simp only [OptionOperation.tellers, List.mem_cons, List.not_mem_nil, or_false] at member
  rcases member with rfl | rfl | rfl
  · exact not_indistinct rfl rfl (not_kindred_flagged _)
  · exact not_indistinct rfl rfl (not_kindred_zeros _)
  · exact not_indistinct rfl rfl nofun

/-- Each operation on sides that gives a zero tells some kindred sides apart. -/
theorem either_tells (call : Caller) (world : World) :
    ∀ operation ∈ EitherOperation.tellers, ∃ e e', Kindred world.store (.either e) (.either e') ∧
      ¬ Indistinct world (performEither call operation [.either e])
        (performEither call operation [.either e']) := by
  intro operation member
  simp only [EitherOperation.tellers, List.mem_cons, List.not_mem_nil, or_false] at member
  rcases member with rfl | rfl
  · refine ⟨.left .null (.ofKind .int), .left .null (.ofKind .text),
      .left _ _ (Value.Similar.refl _), ?_⟩
    exact not_indistinct rfl rfl (not_kindred_flagged _)
  · refine ⟨.right .null (.ofKind .int), .right .null (.ofKind .text),
      .right _ _ (Value.Similar.refl _), ?_⟩
    exact not_indistinct rfl rfl (not_kindred_flagged _)

/-- A holder passes on what tells the kinds of what it is made around. -/
theorem managed_tells (call : Caller) (world : World) :
    ∃ d d', Kindred world.store (.managed d) (.managed d') ∧
      ¬ Indistinct world (performManaged call .get [.managed d])
        (performManaged call .get [.managed d']) :=
  ⟨⟨.plain, .option (.notOk (.ofKind .int))⟩, ⟨.plain, .option (.notOk (.ofKind .text))⟩,
    .managed _ (.notOk _ _), not_indistinct rfl rfl (not_kindred_flagged _)⟩

end Tellers

/-! ## All operations -/

/-- Values that differ in nothing but the kinds of absences and of sides are equal to the same
values, have the same hashes, texts and documents, and count as true alike. Whatever is asked of
such options and sides comes to the same answers up to kinds, or to the same fault, and so does what
holders pass on, and whatever calls a function that sees no kinds itself; so do the distinct items
of such sequences, their sets, and whether they contain something. What tells such values apart are
the operations that give a zero, and the kind itself. -/
theorem kinds_unseen (call : Caller) (world : World) :
    (∀ v w, Similar false v w → Kindred world.store v w) ∧
    (∀ v v' w w', Kindred world.store v v' → Kindred world.store w w' →
      (∀ operation ∈ [GeneralOperation.shown, .plain, .truthy, .hashable, .size, .printLine, .give],
        Indistinct world (performGeneral call operation [v])
          (performGeneral call operation [v'])) ∧
      (∀ operation ∈ [GeneralOperation.same, .different, .sameHash],
        Indistinct world (performGeneral call operation [v, w])
          (performGeneral call operation [v', w'])) ∧
      (∀ operation ∈ [OptionOperation.encode, .encodeCompact, .isZero, .unlessZero],
        Indistinct world (performOption call operation [v])
          (performOption call operation [v'])) ∧
      Indistinct world (performOption call .toDocument [v])
        (performOption call .toDocument [v'])) ∧
    (∀ o o', Kindred world.store (.option o) (.option o') →
      (∀ operation ∉ OptionOperation.lift :: OptionOperation.tellers ++ OptionOperation.callers,
        ∀ arguments arguments', List.Forall₂ (Kindred world.store) arguments arguments' →
          Indistinct world (performOption call operation (.option o :: arguments))
            (performOption call operation (.option o' :: arguments'))) ∧
      ∀ f g, CannotTell call f g →
        (∀ operation ∈ OptionOperation.callers,
          Indistinct world (performOption call operation [.option o, f])
            (performOption call operation [.option o', g])) ∧
        ∀ operation ∈ [OptionOperation.map, .mapFree], ∀ kind kind',
          Indistinct world (performOption call operation [.option o, f, kind])
            (performOption call operation [.option o', g, kind'])) ∧
    (∀ e e', Kindred world.store (.either e) (.either e') →
      (∀ operation ∉ EitherOperation.tellers ++ EitherOperation.callers ++ EitherOperation.folders,
        ∀ arguments arguments', List.Forall₂ (Kindred world.store) arguments arguments' →
          Indistinct world (performEither call operation (.either e :: arguments))
            (performEither call operation (.either e' :: arguments'))) ∧
      ∀ f f', CannotTell call f f' →
        (∀ operation ∈ EitherOperation.callers,
          Indistinct world (performEither call operation [.either e, f])
            (performEither call operation [.either e', f'])) ∧
        ∀ g g', CannotTell call g g' → ∀ operation ∈ EitherOperation.folders,
          Indistinct world (performEither call operation [.either e, f, g])
            (performEither call operation [.either e', f', g'])) ∧
    (∀ d d', Kindred world.store (.managed d) (.managed d') →
      (∀ v v', Kindred world.store v v' →
        Indistinct world (performManaged call .isOk [.managed d])
          (performManaged call .isOk [.managed d']) ∧
        Indistinct world (performManaged call .mustGet [.managed d])
          (performManaged call .mustGet [.managed d']) ∧
        Indistinct world (performManaged call .orElse [.managed d, v])
          (performManaged call .orElse [.managed d', v'])) ∧
      ∀ f f', CannotTell call f f' →
        Indistinct world (performManaged call .call [.managed d, f])
          (performManaged call .call [.managed d', f'])) ∧
    (∀ s s', Kindred world.store (.sequence s) (.sequence s') →
      world.store.Opens (.sequence s) → world.store.Opens (.sequence s') →
      (∀ operation ∈ [SequenceOperation.unique, .toSet],
        Indistinct world (performSequence call operation [.sequence s])
          (performSequence call operation [.sequence s'])) ∧
      ∀ v v', Kindred world.store v v' →
        Indistinct world (performSequence call .contains [.sequence s, v])
          (performSequence call .contains [.sequence s', v']) ∧
        (world.store.Opens v → world.store.Opens v' →
          ∀ operation ∈ [SequenceOperation.containsAny, .meets],
            Indistinct world (performSequence call operation [.sequence s, v])
              (performSequence call operation [.sequence s', v']))) ∧
    (∀ operation ∈ OptionOperation.tellers, ∃ o o', Kindred world.store (.option o) (.option o') ∧
      ¬ Indistinct world (performOption call operation [.option o])
        (performOption call operation [.option o'])) ∧
    (∀ operation ∈ EitherOperation.tellers, ∃ e e', Kindred world.store (.either e) (.either e') ∧
      ¬ Indistinct world (performEither call operation [.either e])
        (performEither call operation [.either e'])) ∧
    (∃ d d', Kindred world.store (.managed d) (.managed d') ∧
      ¬ Indistinct world (performManaged call .get [.managed d])
        (performManaged call .get [.managed d'])) := by
  refine ⟨fun v w => kindred_of_similar world.store, ?_, ?_, ?_, ?_, ?_,
    option_tells call world, either_tells call world, managed_tells call world⟩
  · intro v v' w w' kindred other
    exact ⟨indistinct_general_one kindred, indistinct_general_two kindred other,
      indistinct_option_one kindred, indistinct_documentOf kindred⟩
  · intro o o' kindred
    have subject := kindred_option_iff.mp kindred
    refine ⟨fun operation asks _ _ related => indistinct_option subject related operation asks, ?_⟩
    intro f g function
    exact ⟨indistinct_option_calling function subject, fun operation maps kind kind' =>
      indistinct_option_mapping function subject kind kind' operation maps⟩
  · intro e e' kindred
    have subject := kindred_either_iff.mp kindred
    refine ⟨fun operation asks _ _ related => indistinct_either subject related operation asks, ?_⟩
    intro f f' onLeft
    exact ⟨indistinct_either_calling onLeft subject, fun g g' onRight =>
      indistinct_either_folding subject onLeft onRight⟩
  · intro d d' kindred
    exact ⟨fun _ _ other => indistinct_managed kindred other, fun _ _ function =>
      indistinct_managed_calling kindred function⟩
  · rintro ⟨items⟩ ⟨items'⟩ kindred opens opens'
    have container := kindred_sequence_iff.mp kindred
    constructor
    · intro operation member
      rcases List.mem_pair.mp member with rfl | rfl
      · exact indistinct_unique container opens opens'
      · exact indistinct_toSet container opens opens'
    · intro v v' other
      refine ⟨indistinct_contains container opens opens' other, fun opensV opensV' => ?_⟩
      intro operation member
      rcases List.mem_pair.mp member with rfl | rfl
      · simp only [performSequence, containerOf, pure_bind]
        exact indistinct_containsAny container opens opens' other opensV opensV'
      · exact indistinct_meets container opens opens' other opensV opensV'

/-- A world that keeps two lists, with an absence of a number and with one of a text. -/
def twoLists : World :=
  { World.start ⟨[]⟩ ⟨2024, 2, 29, 1, 2, 3, 0⟩ with
    store := { Store.empty with
      lists := #[#[.option (.notOk (.ofKind .int))], #[.option (.notOk (.ofKind .text))]] } }

private theorem outsideItself_twoLists {number : Nat} (isKept : number = 0 ∨ number = 1) :
    twoLists.store.OutsideItself number := by
  refine ⟨fun _ => False, id, ?_, nofun⟩
  intro item member
  rcases isKept with rfl | rfl <;> rw [List.mem_singleton.mp member] <;> exact fun _ _ _ _ _ => rfl

/-- The truth of a value sees no kinds. -/
theorem cannotTell_bool : CannotTell Session.call (.ofKind .bool) (.ofKind .bool) := by
  intro world arguments arguments' related
  have opens (arguments : List Value) : Session.call (.ofKind .bool) arguments =
      (do keep (← construct .bool arguments)) := rfl
  rw [opens, opens]
  cases related with
  | nil => exact .refl rfl
  | cons first rest =>
      cases rest with
      | cons => exact .fault _
      | nil =>
          have asBool (v : Value) : construct .bool [v] = (do return .bool (← truth v)) := rfl
          simp only [asBool, bind_assoc, pure_bind]
          refine (calm_truth first).indistinct fun holds _ same => ?_
          rw [same]
          exact .refl rfl

/-- Two lists that are kept in different places, and hold absences of different kinds, cannot be
told apart: not by their text, nor as payloads, nor by what sequences around them hold. -/
theorem kinds_unseen_twoLists :
    Kindred twoLists.store (.handle .growing 0) (.handle .growing 1) ∧
    Indistinct twoLists (performGeneral Session.call .shown [.handle .growing 0])
      (performGeneral Session.call .shown [.handle .growing 1]) ∧
    Indistinct twoLists
      (performOption Session.call .mustGet [.option (.ok (.handle .growing 0))])
      (performOption Session.call .mustGet [.option (.ok (.handle .growing 1))]) ∧
    Indistinct twoLists
      (performOption Session.call .map [.option (.ok (.handle .growing 0)), .ofKind .bool])
      (performOption Session.call .map [.option (.ok (.handle .growing 1)), .ofKind .bool]) ∧
    Indistinct twoLists
      (performEither Session.call .mustGetLeft [.either (.left (.handle .growing 0) .null)])
      (performEither Session.call .mustGetLeft
        [.either (.left (.handle .growing 1) (.ofKind .int))]) ∧
    Indistinct twoLists
      (performEither Session.call .map
        [.either (.right (.handle .growing 0) .null), .ofKind .bool])
      (performEither Session.call .map
        [.either (.right (.handle .growing 1) (.ofKind .int)), .ofKind .bool]) ∧
    Indistinct twoLists
      (performManaged Session.call .mustGet [.managed ⟨.plain, .option (.ok (.handle .growing 0))⟩])
      (performManaged Session.call .mustGet
        [.managed ⟨.plain, .option (.ok (.handle .growing 1))⟩]) ∧
    Indistinct twoLists
      (performSequence Session.call .unique [.sequence ⟨.handle .growing 0⟩])
      (performSequence Session.call .unique [.sequence ⟨.handle .growing 1⟩]) ∧
    Indistinct twoLists
      (performSequence Session.call .containsAny
        [.sequence ⟨.handle .growing 0⟩, .handle .growing 1])
      (performSequence Session.call .containsAny
        [.sequence ⟨.handle .growing 1⟩, .handle .growing 0]) := by
  have kindred : Kindred twoLists.store (.handle .growing 0) (.handle .growing 1) :=
    Similar.list (.cons (Similar.notOk _ _) .nil)
  have kindred' : Kindred twoLists.store (.handle .growing 1) (.handle .growing 0) :=
    Similar.list (.cons (Similar.notOk _ _) .nil)
  obtain ⟨-, values, options, sides, holders, sequences, -⟩ := kinds_unseen Session.call twoLists
  have shown := (values _ _ _ _ kindred kindred).1 .shown (by decide)
  have payload := options (.ok _) (.ok _) (Similar.ok kindred)
  have left := sides (.left _ .null) (.left _ (.ofKind .int)) (Similar.left _ _ kindred)
  have right := sides (.right _ .null) (.right _ (.ofKind .int)) (Similar.right _ _ kindred)
  have held := holders ⟨.plain, .option (.ok _)⟩ ⟨.plain, .option (.ok _)⟩
    (Similar.managed _ (Similar.ok kindred))
  have opens : twoLists.store.Opens (.handle .growing 0) := outsideItself_twoLists (.inl rfl)
  have opens' : twoLists.store.Opens (.handle .growing 1) := outsideItself_twoLists (.inr rfl)
  have inside := sequences ⟨.handle .growing 0⟩ ⟨.handle .growing 1⟩ (Similar.sequence kindred)
    opens opens'
  exact ⟨kindred, shown, payload.1 .mustGet (by decide) [] [] .nil,
    (payload.2 _ _ cannotTell_bool).1 .map (by decide),
    left.1 .mustGetLeft (by decide) [] [] .nil,
    (right.2 _ _ cannotTell_bool).1 .map (by decide),
    (held.1 _ _ kindred).2.1,
    inside.1 .unique (by decide), (inside.2 _ _ kindred').2 opens' opens .containsAny (by decide)⟩

end Presence.Session
