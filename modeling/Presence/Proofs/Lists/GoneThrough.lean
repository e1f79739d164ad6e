import Presence.Proofs.Lists.Confined

/-!
Contract: going through values in closed worlds.

Owns: `FeedConfines`, feeds whose items hold only lists that are kept; that looking for items in
such feeds and picking some of them is confined wherever what is done with each item is; that
finding what is kept is confined (`confines_finds`), and so is asking what values hold.

Does not own: confined computations themselves (`Presence.Proofs.Lists.Confined`), and what holds of
computations by their parts (`Presence.Proofs.Lists.Judgements`).

Items may be added to a list while it is gone through, and iterators give their items away; what
comes next is known among the lists that there are when it comes.
-/

namespace Presence.Session

open Attempt Run

variable {changed : Nat → Prop}

/-! ## Going through feeds -/

/-- A feed whose items are as they should be. -/
abbrev FeedConfines {α : Type} (changed : Nat → Prop) (base : Nat) (feed : Feed (StateM World) α)
    (fine : Nat → α → Prop) : Prop := FeedJudged (Confines changed) base feed fine

section Feeds

variable {α β σ : Type} {base : Nat} {feed : Feed (StateM World) α} {fine : Nat → α → Prop}
  {well : Nat → β → Prop} {inv : Nat → σ → Prop}

theorem confines_each (next : FeedConfines changed base feed fine) {f : α → Run Unit}
    (each : ∀ size, base ≤ size → ∀ item, fine size item →
      Confines changed size (f item) Whatever) : Confines changed base (feed.each f) Whatever :=
  Confines.composes.fold rises_whatever next
    (fun size more _ item _ isItem => each size more item isItem) trivial

private theorem confines_filter (rises : Rises fine) (next : FeedConfines changed base feed fine)
    {p : α → Run Bool}
    (each : ∀ size, base ≤ size → ∀ item, fine size item →
      Confines changed size (p item) Whatever) :
    Confines changed base (feed.filter p) fun size items => ∀ item ∈ items, fine size item := by
  have risesAll : Rises fun size (items : Array α) => ∀ item ∈ items, fine size item :=
    fun _ _ _ all more item member => rises (all item member) more
  refine (Confines.composes.fold risesAll next
    (fun size more sofar item isSofar isItem => ?_) ?_).bind fun size more items isItems =>
      .pure fun _ more' item member =>
        rises (isItems item (Array.mem_toList_iff.mp member)) more'
  · refine (each size more item isItem).bind fun size' more' passes _ => ?_
    refine .pure fun _ more'' other member => ?_
    have all := Nat.le_trans more' more''
    split at member
    · rcases Array.mem_push.mp member with old | rfl
      · exact rises (isSofar other old) all
      · exact rises isItem all
    · exact rises (isSofar other member) all
  · exact fun item member => absurd member (Array.not_mem_empty item)

theorem confines_findPlace (rises : Rises fine) (next : FeedConfines changed base feed fine)
    {p : α → Run Bool}
    (each : ∀ size, base ≤ size → ∀ item, fine size item →
      Confines changed size (p item) Whatever) :
    Confines changed base (feed.findPlace p) fun size found =>
      ∀ place, found = some place → fine size place.1 := by
  have risesFound : Rises fun size (sofar : Nat × Option (α × Nat)) =>
      ∀ place, sofar.2 = some place → fine size place.1 :=
    fun _ _ _ isFine more place found => rises (isFine place found) more
  refine (Confines.composes.goFrom risesFound next (fun size more item sofar isItem _ => ?_) _ _
    (fun _ found => by cases found)).bind fun size more sofar isSofar =>
      .pure fun _ more' place found => rises (isSofar place found) more'
  refine (each size more item isItem).bind fun size' more' passes _ => ?_
  refine .pure fun _ more'' => ?_
  cases passes with
  | false => exact fun _ => nofun
  | true =>
      intro place found
      cases found
      exact rises isItem (Nat.le_trans more' more'')

theorem confines_any (rises : Rises fine) (next : FeedConfines changed base feed fine)
    {p : α → Run Bool}
    (each : ∀ size, base ≤ size → ∀ item, fine size item →
      Confines changed size (p item) Whatever) : Confines changed base (feed.any p) Whatever :=
  (confines_findPlace rises next each).next fun _ => .done

private theorem FeedConfines.takeUpTo (next : FeedConfines changed base feed fine) (count : Nat) :
    FeedConfines changed base (feed.takeUpTo count) fine := next

theorem FeedConfines.zip {feed' : Feed (StateM World) β} (rises : Rises fine)
    (rises' : Rises well) (next : FeedConfines changed base feed fine)
    (next' : FeedConfines changed base feed' well) :
    FeedConfines changed base (feed.zip feed') fun size both =>
      fine size both.1 ∧ well size both.2 := by
  intro place
  refine (next place).bind fun size more item? isItem => ?_
  cases item? with
  | none => exact .pure fun _ _ _ => nofun
  | some item =>
      refine ((next' place).later more).bind fun size' more' other? isOther => ?_
      cases other? with
      | none => exact .pure fun _ _ _ => nofun
      | some other =>
          refine .pure fun _ more'' both isBoth => ?_
          cases isBoth
          exact ⟨rises (isItem item rfl) (Nat.le_trans more' more''),
            rises' (isOther other rfl) more''⟩

end Feeds

/-! ## Sequences of items -/

section Items

variable {α β : Type} {base : Nat} {feed : Feed (StateM World) α} {fine : Nat → α → Prop}
  {well : Nat → β → Prop}

theorem confines_map (rises : Rises well) (next : FeedConfines changed base feed fine)
    {f : α → Run β}
    (each : ∀ size, base ≤ size → ∀ item, fine size item →
      Confines changed size (f item) well) :
    Confines changed base (feed.map f) fun size results => ∀ result ∈ results, well size result :=
  (Confines.composes.collect rises next each).sealed

theorem confines_flatCollect (rises : Rises well) (next : FeedConfines changed base feed fine)
    {f : α → Run (List β)}
    (each : ∀ size, base ≤ size → ∀ item, fine size item →
      Confines changed size (f item) fun size results => ∀ result ∈ results, well size result) :
    Confines changed base (feed.flatCollect f) fun size results =>
      ∀ result ∈ results, well size result := by
  have risesAll : Rises fun size (results : List β) => ∀ result ∈ results, well size result :=
    fun _ _ _ all more result member => rises (all result member) more
  refine (Confines.composes.collect risesAll next each).bind fun size more results isResults =>
    .pure fun _ more' result member => ?_
  obtain ⟨part, isPart, member⟩ := List.mem_flatten.mp member
  exact rises (isResults part isPart result member) more'

theorem confines_keepIf (rises : Rises fine) (next : FeedConfines changed base feed fine)
    {p : α → Run Bool}
    (each : ∀ size, base ≤ size → ∀ item, fine size item →
      Confines changed size (p item) Whatever) :
    Confines changed base (feed.keepIf p) fun size items => ∀ item ∈ items, fine size item :=
  (confines_filter rises next each).sealed

theorem confines_removeIf (rises : Rises fine) (next : FeedConfines changed base feed fine)
    {p : α → Run Bool}
    (each : ∀ size, base ≤ size → ∀ item, fine size item →
      Confines changed size (p item) Whatever) :
    Confines changed base (feed.removeIf p) fun size items => ∀ item ∈ items, fine size item :=
  confines_keepIf rises next fun size more item isItem =>
    (each size more item isItem).next fun _ => .done

theorem confines_anyPasses (rises : Rises fine) (next : FeedConfines changed base feed fine)
    {p : α → Run Bool}
    (each : ∀ size, base ≤ size → ∀ item, fine size item →
      Confines changed size (p item) Whatever) :
    Confines changed base (feed.anyPasses p) Whatever :=
  (confines_any rises next each).sealed

/-- A cell of a column is what the function of the column gives for a row. -/
theorem confines_unzip (rises : Rises well) (next : FeedConfines changed base feed fine)
    {columns : List (α → Run β)}
    (each : ∀ column ∈ columns, ∀ size, base ≤ size → ∀ item, fine size item →
      Confines changed size (column item) well) :
    Confines changed base (feed.unzip columns) fun size columns =>
      ∀ column ∈ columns, ∀ cell ∈ column, well size cell := by
  have risesAll : Rises fun size (row : List β) => ∀ cell ∈ row, well size cell :=
    fun _ _ _ all more cell member => rises (all cell member) more
  refine (Confines.composes.collect risesAll next fun size more item isItem => ?_).bind
    fun size more cells isCells => .pure fun _ more' column isColumn cell member => ?_
  · exact .mapM rises fun column member => each column member size more item isItem
  · obtain ⟨place, _, rfl⟩ := List.mem_map.mp isColumn
    obtain ⟨row, isRow, isCell⟩ := List.mem_filterMap.mp member
    exact rises (isCells row isRow cell (List.mem_of_getElem? isCell)) more'

end Items

section Values

variable {base : Nat} {feed : Feed (StateM World) Value}

theorem confines_find (next : FeedConfines changed base feed Known) {p : Value → Run Bool}
    (each : ∀ size, base ≤ size → ∀ item, Known size item →
      Confines changed size (p item) Whatever) :
    Confines changed base (feed.find p) fun size found => Known size (.option found) := by
  refine (confines_findPlace rises_known next each).bind fun size more found isFound => ?_
  cases found with
  | none => exact .pure fun _ _ => .notOk (.plain rfl)
  | some place => exact .pure fun _ more' => .ok ((isFound place rfl).later more')

theorem confines_indexWhere (next : FeedConfines changed base feed Known) {p : Value → Run Bool}
    (each : ∀ size, base ≤ size → ∀ item, Known size item →
      Confines changed size (p item) Whatever) :
    Confines changed base (feed.indexWhere p) fun size found =>
      ∀ kind, found = .notOk kind → Known size kind := by
  refine (confines_findPlace rises_known next each).next fun found => ?_
  cases found with
  | none =>
      refine .pure fun _ _ kind isKind => ?_
      cases isKind
      exact .plain rfl
  | some place => exact .pure fun _ _ _ => nofun

theorem confines_toSet (next : FeedConfines changed base feed Known) :
    Confines changed base feed.toSet AllKnown := by
  refine Confines.composes.fold rises_allKnown next (fun size more sofar item isSofar isItem => ?_)
    (List.forall_mem_nil _)
  refine .ofHash fun kept added _ more' other member => ?_
  rcases Value.mem_of_addToSet added other member with old | rfl
  · exact (isSofar other old).later more'
  · exact isItem.later more'

theorem confines_meetsSet (next : FeedConfines changed base feed Known) (wanted : List Value) :
    Confines changed base (feed.meetsSet wanted) Whatever :=
  confines_any rises_known next fun _ _ _ _ => .ofHash fun _ _ _ _ => trivial

theorem confines_unique (next : FeedConfines changed base feed Known) :
    Confines changed base feed.unique AllKnown := by
  have risesKept : Rises fun size (sofar : List Value × List Value) => AllKnown size sofar.2 :=
    fun _ _ _ known more => rises_allKnown known more
  refine (Confines.composes.fold risesKept next (fun size more sofar item isSofar isItem => ?_)
    (List.forall_mem_nil _)).bind fun size more kept isKept =>
      .pure fun _ more' => rises_allKnown isKept more'
  refine (Confines.ofAnyHash _).next fun isSeen => ?_
  split
  · exact .pure fun _ more' => rises_allKnown isSofar more'
  · refine (Confines.ofAnyHash _).next fun seen => ?_
    refine .pure fun _ more' => List.forall_mem_append.mpr ?_
    exact ⟨rises_allKnown isSofar more', List.forall_mem_singleton.mpr (isItem.later more')⟩

/-! ## Values gone through -/

private theorem feedConfines_listFeed (number : Nat) :
    FeedConfines changed base (listFeed number) Known := by
  refine fun place => .ofAlike (fun _ => ⟨rfl, rfl, rfl, rfl⟩) fun world _ closed item? ended => ?_
  intro item found
  cases ended
  obtain ⟨cells, there, isItem⟩ := Option.bind_eq_some_iff.mp found
  refine closed.lists number item ?_
  unfold Store.itemsOf
  rw [there]
  exact Array.mem_toList_iff.mpr (Array.mem_of_getElem? isItem)

private theorem feedConfines_iteratorFeed (number : Nat) :
    FeedConfines changed base (iteratorFeed number) Known := by
  refine fun place => (confines_iteratorAt number).bind fun size more items isItems => ?_
  cases items with
  | nil => exact .pure fun _ _ _ => nofun
  | cons item rest =>
      rw [AllKnown, List.forall_mem_cons] at isItems
      refine (confines_setIterator number isItems.2).next fun _ => .pure fun _ more' => ?_
      intro other isOther
      cases isOther
      exact isItems.1.later more'

/-- Finding what is kept is confined, and so is whatever goes through values. -/
theorem confines_finds : Finds (Confines changed) Handle.Below where
  toComposes := Confines.composes
  grows := rises_below
  listAt _ := confines_listAt _
  listFeed _ := feedConfines_listFeed _
  iteratorFeed _ := feedConfines_iteratorFeed _
  openStreamAt := confines_openStreamAt
  setStream := confines_setStream

theorem confines_partsUpTo (count : Nat) {v : Value} (known : Known base v) :
    Confines changed base (partsUpTo count v) AllKnown :=
  (confines_finds.feedOf known).bind fun _ _ _ next =>
    Confines.composes.toList rises_known (FeedConfines.takeUpTo next count)

private theorem allEntriesKnown_addEntry {entries made : List (Value × Value)} {place : Nat}
    {entry : List Value} (each : AllEntriesKnown base entries) (isEntry : AllKnown base entry)
    (added : addEntry entries place entry = .ok made) : AllEntriesKnown base made := by
  unfold addEntry at added
  split at added
  · next key v =>
      rw [AllKnown, List.forall_mem_cons, List.forall_mem_singleton] at isEntry
      cases put : Value.putUnder entries key v with
      | error kind =>
          rw [put] at added
          cases added
      | ok put' =>
          rw [put] at added
          cases added
          exact Value.holdsOnly_putUnder isEntry.1 isEntry.2 each put
  · cases added

theorem confines_entriesOf {v : Value} (known : Known base v) :
    Confines changed base (entriesOf v) AllEntriesKnown := by
  unfold entriesOf
  split
  · next entries =>
      cases known with
      | dictionary keys each =>
          exact .pure fun _ more => rises_allEntriesKnown
            (fun entry member => ⟨keys entry member, each entry member⟩) more
  · have risesEntries : Rises fun size (sofar : List (Value × Value) × Nat) =>
        AllEntriesKnown size sofar.1 := fun _ _ _ known more => rises_allEntriesKnown known more
    refine (confines_finds.feedOf known).bind fun size more feed next => ?_
    refine (Confines.composes.fold risesEntries next
      (fun size' more' sofar entry isSofar isEntry => ?_) (List.forall_mem_nil _)).bind
        fun _ _ made isMade => .pure fun _ more' => rises_allEntriesKnown isMade more'
    refine (confines_finds.parts isEntry).bind fun size'' more'' items isItems => ?_
    refine Confines.through AllEntriesKnown (.ofExcept fun made added _ more => ?_)
      fun _ _ made isMade => .pure fun _ more => rises_allEntriesKnown isMade more
    exact rises_allEntriesKnown
      (allEntriesKnown_addEntry (rises_allEntriesKnown isSofar more'') isItems added) more

private theorem confines_passesBy {v : Value} (known : Known base v) (part : Value) :
    Confines changed base (passesBy v part) Whatever :=
  (confines_finds.feedOf known).bind fun _ _ _ next => confines_any rises_known next
    fun _ _ item _ => (confines_observe item).next fun _ => .done

theorem confines_holds {v : Value} (known : Known base v) (part : Value) :
    Confines changed base (Run.holds v part) Whatever := by
  refine (confines_observe part).next fun observed => ?_
  split
  · exact confines_passesBy known observed
  · exact confines_passesBy known observed
  · exact confines_passesBy known observed
  · exact (confines_observe v).next fun _ => .ofAny _

end Values

end Presence.Session
