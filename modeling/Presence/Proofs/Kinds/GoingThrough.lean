import Presence.Proofs.Kinds.Kindred
import Presence.Proofs.Session.Nesting
import Presence.Session.Sequences

/-!
Contract: kindred values are gone through alike.

Owns: `Store.Opens`, containers whose lists are kept and are not inside themselves; that the parts
of kindred containers are kindred, one after the other (`alike_feedOf`); what follows for sets of
parts, for distinct parts and for whether one of the parts is among others.

Does not own: the operations of a session (`Presence.Proofs.Kinds.Unseen`).

Going through an iterator or a stream leaves less of it, but leaves all lists as they are, so that
what was kindred stays so.
-/

namespace Presence.Session

open Attempt Run Value

variable {store : Store}

/-- A container that is gone through as what is observed of it: if it is a list, the list is kept,
and is not inside itself. -/
def Store.Opens (store : Store) : Value → Prop
  | .sequence ⟨items⟩ => store.Opens items
  | .list _ => False
  | .handle .growing number => store.OutsideItself number
  | _ => True
termination_by structural v => v

/-- A world with the lists of a store. -/
def HasLists (store : Store) (world : World) : Prop := world.store.lists = store.lists

/-- Feeds of kindred items, as long as no list changes. -/
abbrev KindredFeeds (store : Store) : (xs ys : Feed (StateM World) Value) → Prop :=
  FeedsAlike (HasLists store) (Kindred store)

/-! ## Sources of parts -/

/-- Where the parts of a value come from. -/
inductive Source : Value → Prop where
  | kept (number : Nat) : Source (.handle .growing number)
  | list (items : List Value) : Source (.list items)
  | iterator (number : Nat) : Source (.handle .iterator number)
  | stream (number : Nat) : Source (.handle .stream number)
  | sequence (items : Value) : Source (.sequence ⟨items⟩)
  | plain {v : Value} (kind : v.kindOf ∉ [Kind.list, .iterator, .stream, .sequence])
      (parts : feedOf v = do return .ofList (← Attempt.ofOption v.parts?))
      (isAll : ∀ part, Run.holds v part = (do
        let part ← observe part
        lift ((← observe v).holds part))) : Source v

theorem source (v : Value) : Source v := by
  cases v using cases_forms with
  | scalar s notKept =>
      cases s with
      | handle h =>
          obtain ⟨sort, number⟩ := h
          cases sort with
          | growing => exact .kept number
          | iterator => exact .iterator number
          | stream => exact .stream number
          | _ => exact .plain (by simp [kindOf, Scalar.kindOf, HandleSort.kind]) rfl fun _ => rfl
      | _ => exact .plain (by simp [kindOf, Scalar.kindOf]) rfl fun _ => rfl
  | kept number => exact .kept number
  | list items => exact .list items
  | sequence items => exact .sequence items
  | managed holder basic =>
      cases holder <;> exact .plain (by simp [kindOf, Holder.kind]) rfl fun _ => rfl
  | _ => exact .plain (by simp [kindOf]) rfl fun _ => rfl

/-! ## Feeds -/

theorem eq_scalar_of_settled {w : Value} {s : Scalar} (isScalar : store.settled w = .scalar s) :
    w = .scalar s := by
  cases w using cases_forms with
  | scalar s notKept => rwa [settled_scalar store notKept] at isScalar
  | _ => cases isScalar

/-- What is kindred to a value without parts, other than a list, is that value. -/
theorem Kindred.eq_scalar {s : Scalar} {w : Value} (kindred : Kindred store (.scalar s) w)
    (notKept : s.kindOf ≠ .list) : w = .scalar s := by
  rw [Kindred, settled_scalar store notKept] at kindred
  exact eq_scalar_of_settled ((scalar_iff_of_similar kindred s).mp rfl)

theorem Kindred.scalar_eq {s : Scalar} {v : Value} (kindred : Kindred store v (.scalar s))
    (notKept : s.kindOf ≠ .list) : v = .scalar s := by
  rw [Kindred, settled_scalar store notKept] at kindred
  exact eq_scalar_of_settled ((scalar_iff_of_similar kindred s).mpr rfl)

/-- A feed gives the same items as itself, if it leaves the lists as they are. -/
private theorem KindredFeeds.refl {feed : Feed (StateM World) Value}
    (keeps : ∀ place world, ((feed.next place).runFrom world).2.store.lists = world.store.lists) :
    KindredFeeds store feed feed := by
  refine ⟨rfl, fun place world hasLists => .refl fun after item ended => ⟨?_, ?_⟩⟩
  · have same := keeps place world
    rw [ended] at same
    exact same.trans hasLists
  · cases item with
    | none => exact .none
    | some item => exact .some (Kindred.refl item)

private theorem lists_iteratorFeed (number place : Nat) (world : World) :
    (((iteratorFeed number).next place).runFrom world).2.store.lists = world.store.lists := by
  have left : (iteratorAt number).runFrom world =
      (.ok ((world.store.iterators[number]?).getD []), world) := rfl
  simp only [iteratorFeed]
  rw [runFrom_bind_of_ok _ left]
  cases (world.store.iterators[number]?).getD [] <;> rfl

private theorem lists_streamFeed (number place : Nat) (world : World) :
    (((streamFeed number).next place).runFrom world).2.store.lists = world.store.lists := by
  have opened := runFrom_openStreamAt number .transfer world
  simp only [streamFeed]
  split at opened
  · rw [runFrom_bind_of_error _ opened]
  · rw [runFrom_bind_of_ok _ opened]
    cases (world.store.streamAt number).nextLine? <;> rfl

private theorem kindredFeeds_listFeed {number number' : Nat}
    (items : List.Forall₂ (Kindred store) (store.itemsOf number) (store.itemsOf number')) :
    KindredFeeds store (listFeed number) (listFeed number') := by
  have cell (number place : Nat) : (store.lists[number]?).bind (·[place]?) =
      (store.itemsOf number)[place]? := by
    rw [Store.itemsOf]
    cases store.lists[number]? <;> simp
  refine ⟨rfl, fun place world hasLists => ?_⟩
  refine .ok rfl rfl ⟨hasLists, ?_⟩
  rw [hasLists, cell, cell]
  exact getElem?_rel_of_forall₂ items place

/-- The parts of kindred values that are neither lists nor sequences. -/
private theorem Kindred.parts? {v w : Value} (kindred : Kindred store v w)
    (plain : v.kindOf ∉ [Kind.list, .iterator, .stream, .sequence]) :
    Option.Rel (List.Forall₂ (Kindred store)) v.parts? w.parts? := by
  have plain' := plain
  rw [kindred.kindOf_eq] at plain'
  simp only [List.mem_cons, List.not_mem_nil, or_false, not_or] at plain plain'
  have parts := parts?_similar _ kindred
  rw [parts?_settled store plain.1 plain.2.2.2, parts?_settled store plain'.1 plain'.2.2.2] at parts
  generalize v.parts? = one, w.parts? = other at parts
  cases one with
  | none =>
      cases other with
      | none => exact .none
      | some => nomatch parts
  | some xs =>
      cases other with
      | none => nomatch parts
      | some ys =>
          cases parts with
          | some items =>
              rw [List.forall₂_map_left_iff, List.forall₂_map_right_iff] at items
              exact .some items

section Going

variable {v w : Value} {world : World}

/-- The feeds that values give are kindred. -/
abbrev GivesKindred (store : Store) (world : World) (v w : Value) : Prop :=
  Alike world (fun after xs ys => HasLists store after ∧ KindredFeeds store xs ys) (feedOf v)
    (feedOf w)

private theorem alike_feedOf_of_ne (noSequence : ∀ items, v ≠ .sequence items)
    (kindred : Kindred store v w)
    (opens : store.Opens v) (opens' : store.Opens w) (hasLists : HasLists store world) :
    GivesKindred store world v w := by
  have sameKind := kindred.kindOf_eq
  cases source v with
  | list items => exact opens.elim
  | sequence items => exact absurd rfl (noSequence _)
  | iterator number =>
      rw [kindred.eq_scalar nofun]
      exact .pure ⟨hasLists, .refl (lists_iteratorFeed number)⟩
  | stream number =>
      rw [kindred.eq_scalar nofun]
      have started : Alike world (fun after _ _ => HasLists store after)
          (openStreamAt number .start) (openStreamAt number .start) := .refl fun after _ ended => by
        rw [runFrom_openStreamAt] at ended
        split at ended <;> cases ended
        exact hasLists
      -- Both runs are on the same stream, and what is left of it is no list.
      exact started.bind fun after _ _ hasLists => .pure ⟨hasLists, .refl (lists_streamFeed number)⟩
  | kept number =>
      cases source w with
      | kept number' =>
          rw [Store.Opens] at opens opens'
          rw [Kindred, Store.settled_kept opens, Store.settled_kept opens'] at kindred
          cases kindred with
          | list items =>
              rw [List.forall₂_map_left_iff, List.forall₂_map_right_iff] at items
              -- The items are read from the store place by place, not from what was observed.
              exact .pure ⟨hasLists, kindredFeeds_listFeed items⟩
      | list items => exact opens'.elim
      | plain kind => exact absurd (sameKind ▸ List.mem_cons_self) kind
      | _ => cases sameKind
  | plain kind parts =>
      cases source w with
      | plain kind' parts' =>
          have given : Alike world
              (fun after xs ys => HasLists store after ∧ List.Forall₂ (Kindred store) xs ys)
              (Attempt.ofOption v.parts?) (Attempt.ofOption w.parts?) :=
            .ofOption (kindred.parts? kind) fun _ _ items => ⟨hasLists, items⟩
          rw [GivesKindred, parts, parts']
          refine given.bind ?_
          rintro after xs ys ⟨hasLists, items⟩
          exact .pure ⟨hasLists, feedsAlike_ofList items⟩
      | _ => exact absurd (sameKind ▸ by simp [kindOf, Scalar.kindOf, HandleSort.kind]) kind

/-- Kindred containers give kindred parts. -/
theorem alike_feedOf : (v : Value) → ∀ {w : Value}, Kindred store v w → store.Opens v →
    store.Opens w → HasLists store world → GivesKindred store world v w
  | .sequence ⟨items⟩, w, kindred, opens, opens', hasLists => by
      have sameKind := kindred.kindOf_eq
      cases source w with
      | sequence items' =>
          have goesOn := alike_feedOf items (kindred_sequence_iff.mp kindred) opens opens' hasLists
          exact goesOn
      | plain kind => exact absurd (sameKind ▸ by simp [kindOf]) kind
      | _ => cases sameKind
  | .scalar _, _, kindred, opens, opens', hasLists | .list _, _, kindred, opens, opens', hasLists
  | .tuple _, _, kindred, opens, opens', hasLists | .set _, _, kindred, opens, opens', hasLists
  | .frozenSet _, _, kindred, opens, opens', hasLists
  | .dictionary _, _, kindred, opens, opens', hasLists
  | .option _, _, kindred, opens, opens', hasLists | .either _, _, kindred, opens, opens', hasLists
  | .pair _, _, kindred, opens, opens', hasLists | .managed _, _, kindred, opens, opens', hasLists
  | .guarded _, _, kindred, opens, opens', hasLists
  | .deferred _, _, kindred, opens, opens', hasLists
  | .ternary _, _, kindred, opens, opens', hasLists
  | .parseError _, _, kindred, opens, opens', hasLists
  | .thrown _, _, kindred, opens, opens', hasLists
  | .client _, _, kindred, opens, opens', hasLists =>
      alike_feedOf_of_ne nofun kindred opens opens' hasLists

/-! ## What is made of the parts -/

theorem alike_toSet {xs ys : Feed (StateM World) Value} (feeds : KindredFeeds store xs ys)
    (hasLists : HasLists store world) :
    Alike world (fun after items items' =>
      HasLists store after ∧ List.Forall₂ (Kindred store) items items') xs.toSet ys.toSet := by
  refine feeds.fold ?_ hasLists .nil
  intro middle hasLists x y item sofar sofar' items
  exact .ofHash (item.addToSet items) fun _ _ items => ⟨hasLists, items⟩

private theorem alike_meetsSet {xs ys : Feed (StateM World) Value}
    (feeds : KindredFeeds store xs ys)
    {wanted wanted' : List Value} (targets : List.Forall₂ (Kindred store) wanted wanted')
    (hasLists : HasLists store world) :
    Alike world (fun after found found' => HasLists store after ∧ found = found')
      (xs.meetsSet wanted) (ys.meetsSet wanted') := by
  refine feeds.any ?_ hasLists
  intro middle hasLists x y item
  rw [item.isInSet_eq targets]
  exact .ofHash (.refl _) fun _ _ same => ⟨hasLists, same⟩

theorem alike_unique {xs ys : Feed (StateM World) Value} (feeds : KindredFeeds store xs ys)
    (hasLists : HasLists store world) :
    Alike world (fun after items items' =>
      HasLists store after ∧ List.Forall₂ (Kindred store) items items') xs.unique ys.unique := by
  rw [Feed.unique, Feed.unique]
  refine Alike.bind (?gathered : Alike world (fun after (s t : List Value × List Value) =>
    HasLists store after ∧ List.Forall₂ (Kindred store) s.1 t.1 ∧
      List.Forall₂ (Kindred store) s.2 t.2) _ _) ?_
  · refine feeds.fold ?_ hasLists ⟨.nil, .nil⟩
    -- What was seen and what is kept stay kindred item by item, so that both runs find the same.
    rintro middle hasLists x y item ⟨seen, kept⟩ ⟨seen', kept'⟩ ⟨seenAlike, keptAlike⟩
    have searched : Alike middle (fun after found found' => after = middle ∧ found = found')
        (Attempt.ofHash (x.isInSet seen)) (Attempt.ofHash (y.isInSet seen')) := by
      rw [item.isInSet_eq seenAlike]
      exact .ofHash (.refl _) fun _ _ same => ⟨rfl, same⟩
    have added : Alike middle (fun after items items' => after = middle ∧
        List.Forall₂ (Kindred store) items items')
        (Attempt.ofHash (Value.addToSet seen x)) (Attempt.ofHash (Value.addToSet seen' y)) :=
      .ofHash (item.addToSet seenAlike) fun _ _ items => ⟨rfl, items⟩
    refine searched.bind ?_
    rintro _ found _ ⟨rfl, rfl⟩
    cases found with
    | true => exact .pure ⟨hasLists, seenAlike, keptAlike⟩
    | false =>
        refine added.bind ?_
        rintro _ seen seen' ⟨rfl, seenAlike⟩
        exact .pure ⟨hasLists, seenAlike, List.rel_append keptAlike (.cons item .nil)⟩
  · rintro after s t ⟨hasLists, -, kept⟩
    exact .pure ⟨hasLists, kept⟩

private theorem alike_passesBy {part part' : Value} (kindred : Kindred store v w)
    (other : Similar false part part') (opens : store.Opens v) (opens' : store.Opens w)
    (hasLists : HasLists store world) :
    Alike world (fun after found found' => HasLists store after ∧ found = found')
      (passesBy v part) (passesBy w part') := by
  refine (alike_feedOf v kindred opens opens' hasLists).bind
    fun middle xs ys ⟨hasLists, feeds⟩ => ?_
  refine feeds.any ?_ hasLists
  intro middle hasLists x y item
  -- An iterator may have moved on meanwhile; what is observed of the part has not changed.
  exact .ok rfl rfl ⟨hasLists, same_similar _ (item.of_lists hasLists) other⟩

theorem alike_holds {part part' : Value} (kindred : Kindred store v w)
    (other : Kindred store part part') (opens : store.Opens v) (opens' : store.Opens w)
    (hasLists : HasLists store world) :
    Alike world (fun after found found' => HasLists store after ∧ found = found')
      (Run.holds v part) (Run.holds w part') := by
  have observed : Alike world (fun after part part' => HasLists store after ∧
      Similar false part part') (observe part) (observe part') :=
    .ok rfl rfl ⟨hasLists, other.of_lists hasLists⟩
  have passes : Alike world (fun after found found' => HasLists store after ∧ found = found')
      (do passesBy v (← observe part)) (do passesBy w (← observe part')) :=
    observed.bind fun _ _ _ ⟨hasLists, other⟩ => alike_passesBy kindred other opens opens' hasLists
  have all (isAll : ∀ part, Run.holds v part = (do
        let part ← observe part
        lift ((← observe v).holds part)))
      (isAll' : ∀ part, Run.holds w part = (do
        let part ← observe part
        lift ((← observe w).holds part))) :
      Alike world (fun after found found' => HasLists store after ∧ found = found')
        (Run.holds v part) (Run.holds w part') := by
    have held := runFrom_holds part world (isAll part)
    have held' := runFrom_holds part' world (isAll' part')
    rw [holds_similar (kindred.of_lists hasLists) (other.of_lists hasLists)] at held
    cases answer : (world.store.settled w).holds (world.store.settled part') with
    | ok found =>
        rw [answer] at held held'
        exact .ok held held' ⟨hasLists, rfl⟩
    | error fault =>
        rw [answer] at held held'
        exact .error held held'
  have sameKind := kindred.kindOf_eq
  cases source v with
  | list items => exact opens.elim
  | iterator number | stream number =>
      obtain rfl := kindred.eq_scalar nofun
      exact passes
  | kept number =>
      cases source w with
      | kept | list => exact all (fun _ => rfl) fun _ => rfl
      | plain kind => exact absurd (sameKind ▸ List.mem_cons_self) kind
      | _ => cases sameKind
  | sequence items =>
      cases source w with
      | sequence items' => exact passes
      | plain kind => exact absurd (sameKind ▸ by simp [kindOf]) kind
      | _ => cases sameKind
  | plain kind _ isAll =>
      cases source w with
      | plain _ _ isAll' => exact all isAll isAll'
      | _ => exact absurd (sameKind ▸ by simp [kindOf, Scalar.kindOf, HandleSort.kind]) kind

theorem alike_containsAny {targets targets' : Value} (kindred : Kindred store v w)
    (other : Kindred store targets targets') (opens : store.Opens v) (opens' : store.Opens w)
    (opensTargets : store.Opens targets) (opensTargets' : store.Opens targets')
    (hasLists : HasLists store world) :
    Alike world (fun after found found' => HasLists store after ∧ found = found')
      (containsAny v targets) (containsAny w targets') := by
  refine (alike_feedOf targets other opensTargets opensTargets' hasLists).bind
    fun middle xs ys ⟨hasLists, feeds⟩ => ?_
  refine (alike_toSet feeds hasLists).bind fun middle wanted wanted' ⟨hasLists, items⟩ => ?_
  rw [isEmpty_eq_of_forall₂ items]
  by_cases nothing : wanted'.isEmpty = true
  · rw [if_pos nothing, if_pos nothing]
    exact .pure ⟨hasLists, rfl⟩
  · rw [if_neg nothing, if_neg nothing]
    refine (alike_feedOf v kindred opens opens' hasLists).bind
      fun after xs ys ⟨hasLists, feeds⟩ => ?_
    exact alike_meetsSet feeds items hasLists

end Going

end Presence.Session
