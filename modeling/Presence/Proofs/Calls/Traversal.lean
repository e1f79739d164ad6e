import Mathlib.Data.List.Forall2
import Presence.Proofs.Calls.Propagation

/-!
Contract: going through a feed from its first item to its last one.

Owns: `Serves`, a feed of which it is known what is left of it in any state; `Spares`, a computation
that returns something fine and leaves what is left as it is; `Visits`, a traversal that asks the
feed once for each item, and only after the item before has been dealt with; that there is such a
traversal if what is done with the items spares the feed (`exists_visits`), that collecting returns
for a traversal and for nothing else (`Visits.collect`, `Visits.exists_of_collect`), and that it
remains one beside a record of calls (`Visits.recorded`); `Reads`, a feed that gives the items of a
list and changes nothing.

Does not own: traversals that are cut short by a fault (`Presence.Proofs.Calls.Propagation`).

What is left of a feed depends on the state, and on the place if the feed can be gone through more
than once. A feed that gives each item only once is left with less after each time it is asked.
-/

namespace Presence

open Attempt Calls

variable {σ α β γ δ ε : Type}

namespace Feed

/-! ## What is left of a feed -/

/-- At each place and in each state of which it is known what is left, a feed gives the first item
that is left, and leaves the others for the next place. -/
def Serves (feed : Feed (StateM σ) α) (left : (place : Nat) → σ → List α → Prop) : Prop :=
  ∀ place start items, left place start items → ∃ after,
    (feed.itemAt place).runFrom start = (.ok items.head?, after) ∧ left (place + 1) after items.tail

/-- A computation returns a result that is fine, and leaves what is left of a feed. -/
def Spares (left : (place : Nat) → σ → List α → Prop) (body : Attempt (StateM σ) β)
    (fine : β → Prop) : Prop :=
  ∀ place start items, left place start items → ∃ result after,
    body.runFrom start = (.ok result, after) ∧ fine result ∧ left place after items

namespace Spares

variable {left : (place : Nat) → σ → List α → Prop}

theorem pure {result : β} {fine : β → Prop} (isFine : fine result) :
    Spares left (pure result : Attempt (StateM σ) β) fine :=
  fun _ start _ isLeft => ⟨result, start, rfl, isFine, isLeft⟩

private theorem bind {first : Attempt (StateM σ) β} {next : β → Attempt (StateM σ) γ}
    {fine : β → Prop} {well : γ → Prop} (begins : Spares left first fine)
    (goesOn : ∀ result, fine result → Spares left (next result) well) :
    Spares left (first >>= next) well := by
  intro place start items isLeft
  obtain ⟨result, middle, ended, isFine, isLeft⟩ := begins place start items isLeft
  obtain ⟨final, after, finished, isWell⟩ := goesOn result isFine place middle items isLeft
  exact ⟨final, after, (runFrom_bind_of_ok _ ended).trans finished, isWell⟩

theorem mapM {f : γ → Attempt (StateM σ) β} {arguments : List γ} {fine : γ → β → Prop}
    (each : ∀ argument ∈ arguments, Spares left (f argument) (fine argument)) :
    Spares left (arguments.mapM f) (List.Forall₂ fine arguments) := by
  induction arguments with
  | nil => exact .pure .nil
  | cons argument rest inductionHypothesis =>
      rw [List.forall_mem_cons] at each
      rw [List.mapM_cons]
      exact each.1.bind fun first isFirst =>
        (inductionHypothesis each.2).bind fun others areFine => .pure (.cons isFirst areFine)

end Spares

/-! ## Traversals -/

/-- A feed is gone through from a place and a state on: it is asked for an item, the item is dealt
with, and so on until it has none. The items come with what is made of them. -/
inductive Visits (feed : Feed (StateM σ) α) (visit : α → Attempt (StateM σ) β) :
    (place : Nat) → (before : σ) → List α → List β → (after : σ) → Prop where
  | ends {place : Nat} {before after : σ}
      (asks : (feed.itemAt place).runFrom before = (.ok none, after)) :
      Visits feed visit place before [] [] after
  | goesOn {place : Nat} {before asked middle after : σ} {item : α} {items : List α} {result : β}
      {results : List β} (asks : (feed.itemAt place).runFrom before = (.ok (some item), asked))
      (gives : (visit item).runFrom asked = (.ok result, middle))
      (later : Visits feed visit (place + 1) middle items results after) :
      Visits feed visit place before (item :: items) (result :: results) after

theorem exists_visits {feed : Feed (StateM σ) α} {left : (place : Nat) → σ → List α → Prop}
    (serves : Serves feed left) {visit : α → Attempt (StateM σ) β} {fine : α → β → Prop}
    {items : List α} (spares : ∀ item ∈ items, Spares left (visit item) (fine item)) {place : Nat}
    {start : σ} (isLeft : left place start items) :
    ∃ results after, Visits feed visit place start items results after ∧
      List.Forall₂ fine items results ∧ left (place + items.length + 1) after [] := by
  induction items generalizing place start with
  | nil =>
      obtain ⟨after, asks, nothingLeft⟩ := serves _ _ _ isLeft
      exact ⟨[], after, .ends asks, .nil, nothingLeft⟩
  | cons item rest inductionHypothesis =>
      rw [List.forall_mem_cons] at spares
      obtain ⟨asked, asks, isLeft⟩ := serves _ _ _ isLeft
      obtain ⟨result, middle, gives, isFine, isLeft⟩ := spares.1 _ _ _ isLeft
      obtain ⟨results, after, later, areFine, nothingLeft⟩ := inductionHypothesis spares.2 isLeft
      refine ⟨result :: results, after, .goesOn asks gives later, .cons isFine areFine, ?_⟩
      rw [Nat.add_right_comm place 1] at nothingLeft
      exact nothingLeft

namespace Visits

variable {feed : Feed (StateM σ) α} {visit : α → Attempt (StateM σ) β} {place : Nat}
  {before after : σ} {items : List α} {results : List β}

theorem length_eq (visits : Visits feed visit place before items results after) :
    results.length = items.length := by
  induction visits with
  | ends => rfl
  | goesOn _ _ _ inductionHypothesis => exact congrArg (· + 1) inductionHypothesis

theorem exists_of_mem (visits : Visits feed visit place before items results after) :
    ∀ result ∈ results, ∃ item ∈ items, ∃ asked middle,
      (visit item).runFrom asked = (.ok result, middle) := by
  induction visits with
  | ends => exact nofun
  | goesOn _ gives _ inductionHypothesis =>
      rw [List.forall_mem_cons]
      refine ⟨⟨_, List.mem_cons_self, _, _, gives⟩, fun result member => ?_⟩
      obtain ⟨item, isItem, others⟩ := inductionHypothesis result member
      exact ⟨item, List.mem_cons_of_mem _ isItem, others⟩

private theorem foldFrom (visits : Visits feed visit place before items results after)
    (sofar : Array β) :
    (feed.foldFrom (fun sofar item => do return sofar.push (← visit item)) place sofar).runFrom
      before = (.ok (sofar ++ results.toArray), after) := by
  induction visits generalizing sofar with
  | ends asks =>
      rw [foldFrom_itemAt, runFrom_bind_of_ok _ asks, Array.append_empty]
      rfl
  | @goesOn _ _ _ _ _ _ _ result _ asks gives _ inductionHypothesis =>
      have goesOn := inductionHypothesis (sofar.push result)
      rw [foldFrom_itemAt, runFrom_bind_of_ok _ asks]
      simp only [bind_assoc, pure_bind]
      rw [runFrom_bind_of_ok _ gives, goesOn]
      simp

theorem collect (visits : Visits feed visit 0 before items results after) :
    (feed.collect visit).runFrom before = (.ok results, after) := by
  rw [Feed.collect]
  refine (runFrom_bind_of_ok _ (visits.foldFrom #[])).trans ?_
  simp

/-- Whatever the feed and the function do to each other, collecting that returns has been a
traversal. -/
private theorem exists_of_foldFrom {sofar all : Array β}
    (returns : (feed.foldFrom (fun sofar item => do return sofar.push (← visit item)) place
      sofar).runFrom before = (.ok all, after)) :
    ∃ items results, Visits feed visit place before items results after ∧
      all = sofar ++ results.toArray := by
  -- On how many places are left up to the bound.
  generalize isLeft : feed.bound - place = left
  induction left generalizing place before sofar with
  | zero =>
      have outside : ¬ place < feed.bound := by omega
      have asks : (feed.itemAt place).runFrom before = (.ok none, before) := by
        rw [Feed.itemAt, if_neg outside, runFrom_pure]
      rw [foldFrom_itemAt, runFrom_bind_of_ok _ asks] at returns
      cases returns
      exact ⟨[], [], .ends asks, (Array.append_empty).symm⟩
  | succ left inductionHypothesis =>
      rw [foldFrom_itemAt] at returns
      obtain ⟨asked, middle, asks, returns⟩ := exists_of_runFrom_bind returns
      cases asked with
      | none =>
          cases returns
          exact ⟨[], [], .ends asks, (Array.append_empty).symm⟩
      | some item =>
          simp only [bind_assoc, pure_bind] at returns
          obtain ⟨result, last, gives, returns⟩ := exists_of_runFrom_bind returns
          obtain ⟨items, results, later, rfl⟩ := inductionHypothesis returns (by omega)
          exact ⟨item :: items, result :: results, .goesOn asks gives later, by simp⟩

theorem exists_of_collect
    (returns : (feed.collect visit).runFrom before = (.ok results, after)) :
    ∃ items, Visits feed visit 0 before items results after := by
  obtain ⟨all, middle, folded, returns⟩ := exists_of_runFrom_bind returns
  cases returns
  have whole : (feed.foldFrom (fun sofar item => do return sofar.push (← visit item)) 0 #[]).runFrom
      before = (.ok all, after) := folded
  obtain ⟨items, made, visits, rfl⟩ := exists_of_foldFrom whole
  rw [Array.empty_append, List.toList_toArray]
  exact ⟨items, visits⟩

/-- Collecting that has failed has done so where the feed was asked for an item or an item was dealt
with. -/
private theorem fails_of_foldFrom {sofar : Array β} {fault : Fault}
    (fails : (feed.foldFrom (fun sofar item => do return sofar.push (← visit item)) place
      sofar).runFrom before = (.error fault, after)) :
    (∃ place asked, (feed.itemAt place).runFrom asked = (.error fault, after)) ∨
      ∃ item asked, (visit item).runFrom asked = (.error fault, after) := by
  -- On how many places are left up to the bound.
  generalize isLeft : feed.bound - place = left
  induction left generalizing place before sofar with
  | zero =>
      have outside : ¬ place < feed.bound := by omega
      rw [foldFrom_itemAt, Feed.itemAt, if_neg outside] at fails
      cases fails
  | succ left inductionHypothesis =>
      rw [foldFrom_itemAt] at fails
      rcases fails_of_runFrom_bind fails with asks | ⟨asked, middle, -, fails⟩
      · exact .inl ⟨place, before, asks⟩
      · cases asked with
        | none => cases fails
        | some item =>
            simp only [bind_assoc, pure_bind] at fails
            rcases fails_of_runFrom_bind fails with visited | ⟨result, last, -, fails⟩
            · exact .inr ⟨item, middle, visited⟩
            · exact inductionHypothesis fails (by omega)

theorem fails_of_collect {fault : Fault}
    (fails : (feed.collect visit).runFrom before = (.error fault, after)) :
    (∃ place asked, (feed.itemAt place).runFrom asked = (.error fault, after)) ∨
      ∃ item asked, (visit item).runFrom asked = (.error fault, after) := by
  rcases fails_of_runFrom_bind fails with folded | ⟨_, _, -, fails⟩
  · have whole : (feed.foldFrom (fun sofar item => do return sofar.push (← visit item)) 0
        #[]).runFrom before = (.error fault, after) := folded
    exact fails_of_foldFrom whole
  · cases fails

/-- A traversal whose visits put calls on record has the calls of all visits on record, in the order
of the items. -/
theorem recorded (visits : Visits feed visit place before items results after)
    {visit' : α → Attempt (StateM (Record σ δ ε)) β} {noted : α → β → List (Entry δ ε)}
    (notes : ∀ {item asked result middle}, (visit item).runFrom asked = (.ok result, middle) →
      ∀ record, (visit' item).runFrom ⟨asked, record⟩ =
        (.ok result, ⟨middle, record ++ noted item result⟩))
    (record : List (Entry δ ε)) :
    Visits (feedAside feed) visit' place ⟨before, record⟩ items results
      ⟨after, record ++ (List.zipWith noted items results).flatten⟩ := by
  induction visits generalizing record with
  | ends asks =>
      refine .ends ?_
      rw [itemAt_feedAside, List.zipWith_nil_left, List.flatten_nil, List.append_nil]
      exact runFrom_aside asks record
  | @goesOn _ _ _ _ _ item _ result _ asks gives _ inductionHypothesis =>
      have later := inductionHypothesis (record ++ noted item result)
      rw [List.append_assoc] at later
      rw [List.zipWith_cons_cons, List.flatten_cons]
      refine .goesOn ?_ (notes gives record) later
      rw [itemAt_feedAside]
      exact runFrom_aside asks record

end Visits

/-! ## Items that stay as they are -/

/-- In a state, a feed gives the items of a list, and leaves the state as it is. -/
def Reads (feed : Feed (StateM σ) α) (state : σ) (items : List α) : Prop :=
  ∀ place, (feed.itemAt place).runFrom state = (.ok items[place]?, state)

namespace Reads

variable {state : σ}

theorem ofList (items : List α) : Reads (.ofList items) state items := by
  intro place
  rw [itemAt_ofList, runFrom_pure]

/-- Two feeds side by side give the pairs of their items. -/
theorem zip {xs : Feed (StateM σ) α} {ys : Feed (StateM σ) β} {xItems : List α} {yItems : List β}
    (readsX : Reads xs state xItems) (readsY : Reads ys state yItems) :
    Reads (xs.zip ys) state (xItems.zip yItems) := by
  intro place
  have atX := readsX place
  have atY := readsY place
  unfold Feed.itemAt at atX atY ⊢
  rw [List.zip, List.getElem?_zipWith]
  by_cases inside : place < (xs.zip ys).bound
  · obtain ⟨insideX, insideY⟩ := Nat.lt_min.mp inside
    rw [if_pos insideX] at atX
    rw [if_pos insideY] at atY
    rw [if_pos inside]
    simp only [Feed.zip]
    rw [runFrom_bind_of_ok _ atX]
    cases xItems[place]? with
    | none => rfl
    | some x =>
        rw [runFrom_bind_of_ok _ atY]
        cases yItems[place]? <;> rfl
  · rw [if_neg inside]
    rcases Decidable.not_and_iff_or_not.mp (mt Nat.lt_min.mpr inside) with outsideX | outsideY
    · rw [if_neg outsideX] at atX
      have noX : none = xItems[place]? := Except.ok.inj (congrArg Prod.fst atX)
      rw [← noX]
      rfl
    · rw [if_neg outsideY] at atY
      have noY : none = yItems[place]? := Except.ok.inj (congrArg Prod.fst atY)
      rw [← noY]
      cases xItems[place]? <;> rfl

theorem serves {feed : Feed (StateM σ) α} {items : List α} (reads : Reads feed state items) :
    Serves feed fun place now rest => now = state ∧ rest = items.drop place := by
  rintro place _ _ ⟨rfl, rfl⟩
  refine ⟨_, ?_, rfl, List.tail_drop⟩
  rw [reads place, List.head?_drop]

end Reads

end Feed

end Presence
