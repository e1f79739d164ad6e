import Presence.Proofs.Calls.Feed

/-!
Contract: what becomes of a fault of a function that an operation on a sequence calls.

Owns: `stopped`, the one change that a fault can undergo; `Passes`, what an operation does with a
fault; `faults_pass`, the same for all operations on sequences that call a function.

Does not own: the order of the calls (`Presence.Proofs.Calls.Feed`).

A fault ends the operation at once. It leaves as it is, but for the end of an iteration: mapping,
keeping, removing and asking whether any item passes run the function inside an iteration of their
own, which the end of an iteration may not leave.
-/

namespace Presence.Calls

open Feed

variable {m : Type → Type} [Monad m] {α β γ δ σ : Type}

/-! ## The end of an iteration -/

/-- What a fault becomes on its way out of an iteration inside another one. -/
def stopped (fault : Fault) : Fault :=
  if fault.kind = .stopIteration then .stoppedInside else fault

/-- The end of an iteration is the one fault that becomes another. -/
theorem stopped_eq_self_iff (fault : Fault) :
    stopped fault = fault ↔ fault.kind ≠ .stopIteration := by
  unfold stopped
  by_cases ends : fault.kind = .stopIteration
  · rw [if_pos ends]
    refine ⟨fun same => ?_, fun goesOn => absurd ends goesOn⟩
    rw [← same] at ends
    cases ends
  · rw [if_neg ends]
    exact ⟨fun _ => ends, fun _ => rfl⟩

/-- Only a fault can be another one outside. -/
theorem runFrom_sealed (body : Attempt (StateM σ) γ) (start : σ) :
    (Attempt.sealed body).runFrom start =
      ((body.runFrom start).1.mapError stopped, (body.runFrom start).2) := by
  unfold Attempt.sealed Attempt.runFrom
  rw [ExceptT.run_tryCatch, StateT.run_bind]
  generalize body.run.run start = ended
  obtain ⟨outcome, middle⟩ := ended
  cases outcome with
  | error fault => rfl
  | ok result => rfl

private theorem runFrom_sealed_of_error {body : Attempt (StateM σ) γ} {start after : σ}
    {fault : Fault} (ended : body.runFrom start = (.error fault, after)) :
    (Attempt.sealed body).runFrom start = (.error (stopped fault), after) := by
  rw [runFrom_sealed, ended]
  rfl

/-! ## Operations that pass faults on -/

/-- An operation lets the faults of the function that it calls out as `leave` says: whichever
function it is, whatever state that function works on, and however many calls of the schedule it
has answered, a fault of the next call is what the operation ends in, and the calls on record are
those that were answered and the one that failed. -/
def Passes (leave : Fault → Fault) (schedule : Schedule (StateM σ) α β)
    (operation : (α → Attempt (StateM (Record σ α β)) β) → Attempt (StateM (Record σ α β)) γ) :
    Prop :=
  ∀ (f : α → Attempt (StateM σ) β) (start reached asked after : σ) (calls : List (α × β))
    (argument : α) (fault : Fault),
    Reaches schedule f start calls reached →
    (schedule calls).runFrom reached = (.ok (some argument), asked) →
    (f argument).runFrom asked = (.error fault, after) →
    (operation (recorded f)).runFrom ⟨start, []⟩ =
      (.error (leave fault), ⟨after, calls.map Entry.answered ++ [⟨argument, .error fault⟩]⟩)

/-- What follows its schedule with the record beside it lets faults out as they are. -/
theorem passes_of_follows {schedule : Schedule (StateM σ) α β}
    {operation : (α → Attempt (StateM (Record σ α β)) β) → Attempt (StateM (Record σ α β)) γ}
    (follows : ∀ f, Follows (fun calls => aside (schedule calls)) (recorded f)
      (operation (recorded f))) :
    Passes id schedule operation := by
  intro f start reached asked after calls argument fault reaches asks fails
  exact run_of_follows_of_fault (follows f) reaches.recorded (runFrom_aside asks _)
    (runFrom_recorded fails _)

/-- Sealing an operation turns the end of an iteration into another fault, and changes no call. -/
theorem Passes.sealed {schedule : Schedule (StateM σ) α β}
    {operation : (α → Attempt (StateM (Record σ α β)) β) → Attempt (StateM (Record σ α β)) γ}
    (passes : Passes id schedule operation) :
    Passes stopped schedule fun f => Attempt.sealed (operation f) := by
  intro f start reached asked after calls argument fault reaches asks fails
  exact runFrom_sealed_of_error
    (passes f start reached asked after calls argument fault reaches asks fails)

/-- What is done with the result in the end makes no difference to faults. -/
theorem Passes.bind {leave : Fault → Fault} {schedule : Schedule (StateM σ) α β}
    {operation : (α → Attempt (StateM (Record σ α β)) β) → Attempt (StateM (Record σ α β)) γ}
    (passes : Passes leave schedule operation) (next : γ → Attempt (StateM (Record σ α β)) δ) :
    Passes leave schedule fun f => operation f >>= next := by
  intro f start reached asked after calls argument fault reaches asks fails
  exact Attempt.runFrom_bind_of_error next
    (passes f start reached asked after calls argument fault reaches asks fails)

/-! ## Feeds beside a record -/

/-- A feed that leaves the record as it is. -/
def feedAside (feed : Feed (StateM σ) δ) : Feed (StateM (Record σ α β)) δ :=
  { next := fun place => aside (feed.next place), bound := feed.bound }

theorem itemAt_feedAside (feed : Feed (StateM σ) δ) (place : Nat) :
    (feedAside feed : Feed (StateM (Record σ α β)) δ).itemAt place = aside (feed.itemAt place) := by
  unfold itemAt
  by_cases inside : place < feed.bound
  · rw [if_pos inside]
    exact if_pos inside
  · rw [if_neg inside]
    exact if_neg inside

private theorem aside_eachItem (feed : Feed (StateM σ) α) :
    (fun calls => aside (eachItem feed calls)) =
      (eachItem (feedAside feed) : Schedule (StateM (Record σ α β)) α β) := by
  funext calls
  exact (itemAt_feedAside feed calls.length).symm

private theorem aside_untilPasses (feed : Feed (StateM σ) α) :
    (fun calls => aside (untilPasses feed calls)) =
      (untilPasses (feedAside feed) : Schedule (StateM (Record σ α Bool)) α Bool) := by
  funext calls
  unfold untilPasses
  cases passed calls with
  | some item => rfl
  | none => exact (itemAt_feedAside feed calls.length).symm

private theorem aside_folding (feed : Feed (StateM σ) α) (initial : β) :
    (fun calls => aside (folding feed initial calls)) =
      (folding (feedAside feed) initial : Schedule (StateM (Record σ (β × α) β)) (β × α) β) := by
  funext calls
  unfold folding
  rw [itemAt_feedAside, aside_bind]
  rfl

private theorem aside_rowByRow (feed : Feed (StateM σ) α) (columns : Nat) :
    (fun calls => aside (rowByRow feed columns calls)) =
      (rowByRow (feedAside feed) columns :
        Schedule (StateM (Record σ (Nat × α) β)) (Nat × α) β) := by
  funext calls
  unfold rowByRow
  split
  · rfl
  · rw [itemAt_feedAside, aside_bind]
    rfl

/-! ## Items in order -/

/-- However far a schedule is followed, its calls take the first items, one after the other. -/
def InOrder (items : List δ) (item : α → δ) (schedule : Schedule (StateM σ) α β) : Prop :=
  ∀ (f : α → Attempt (StateM σ) β) (start reached asked : σ) (calls : List (α × β)) (argument : α),
    Reaches schedule f start calls reached →
    (schedule calls).runFrom reached = (.ok (some argument), asked) →
    (calls.map Prod.fst ++ [argument]).map item = items.take (calls.length + 1)

/-- It is enough that each call, after calls that have taken the first items, takes the next one. -/
theorem inOrder_of_next {items : List δ} {item : α → δ} {schedule : Schedule (StateM σ) α β}
    (next : ∀ (calls : List (α × β)) (before asked : σ) (argument : α),
      (calls.map Prod.fst).map item = items.take calls.length →
      (schedule calls).runFrom before = (.ok (some argument), asked) →
      items[calls.length]? = some (item argument)) :
    InOrder items item schedule := by
  intro f start reached asked calls argument reaches asks
  have answered : (calls.map Prod.fst).map item = items.take calls.length := by
    clear asks
    induction reaches with
    | begins => rfl
    | @answers calls before asked after argument answer _ asks _ inductionHypothesis =>
        rw [List.map_append, List.map_append, inductionHypothesis, List.length_append,
          List.length_singleton, List.take_add_one,
          next calls before asked argument inductionHypothesis asks]
        rfl
  rw [List.map_append, answered, List.take_add_one, next calls reached asked argument answered asks]
  rfl

private theorem eachItem_inOrder (items : List α) :
    InOrder items id (eachItem (.ofList items) : Schedule (StateM σ) α β) := by
  refine inOrder_of_next fun calls before asked argument _ asks => ?_
  rw [eachItem, itemAt_ofList, Attempt.runFrom_pure] at asks
  injection asks with asks
  injection asks

private theorem untilPasses_inOrder (items : List α) :
    InOrder items id (untilPasses (.ofList items) : Schedule (StateM σ) α Bool) := by
  refine inOrder_of_next fun calls before asked argument _ asks => ?_
  unfold untilPasses at asks
  cases ended : passed calls with
  | some item =>
      rw [ended, Attempt.runFrom_pure] at asks
      cases asks
  | none =>
      rw [ended, itemAt_ofList, Attempt.runFrom_pure] at asks
      injection asks with asks
      injection asks

private theorem folding_inOrder (items : List α) (initial : β) :
    InOrder items Prod.snd
      (folding (.ofList items) initial : Schedule (StateM σ) (β × α) β) := by
  refine inOrder_of_next fun calls before asked argument _ asks => ?_
  rw [folding, itemAt_ofList, pure_bind, Attempt.runFrom_pure] at asks
  injection asks with asks
  injection asks with asks
  obtain ⟨item, isNext, rfl⟩ := Option.map_eq_some_iff.mp asks
  exact isNext

/-- The calls of some columns on some rows: all columns on a row before any on the next one. -/
def grid (columns : Nat) (rows : List α) : List (Nat × α) :=
  rows.flatMap fun row => (List.range columns).map fun column => (column, row)

private theorem getElem?_grid {columns : Nat} (some_column : 0 < columns) (rows : List α)
    (place : Nat) :
    (grid columns rows)[place]? =
      rows[place / columns]?.map fun row => (place % columns, row) := by
  induction rows generalizing place with
  | nil => rfl
  | cons row rows inductionHypothesis =>
      rw [grid, List.flatMap_cons]
      by_cases first : place < columns
      · rw [List.getElem?_append_left (by simpa using first), Nat.div_eq_of_lt first,
          Nat.mod_eq_of_lt first]
        simp [first]
      · have after : columns ≤ place := Nat.le_of_not_lt first
        rw [List.getElem?_append_right (by simpa using after), List.length_map, List.length_range]
        rw [← grid, inductionHypothesis, Nat.div_eq_sub_div some_column after,
          Nat.mod_eq_sub_mod after]
        rfl

private theorem rowByRow_inOrder {columns : Nat} (some_column : 0 < columns) (rows : List α) :
    InOrder (grid columns rows) id
      (rowByRow (.ofList rows) columns : Schedule (StateM σ) (Nat × α) β) := by
  refine inOrder_of_next fun calls before asked argument answered asks => ?_
  rw [getElem?_grid some_column]
  unfold rowByRow at asks
  split at asks
  · rename_i column used row answer within last
    rw [Attempt.runFrom_pure] at asks
    cases asks
    -- The row is that of the last call, which stands in the grid one place before.
    obtain ⟨before, length⟩ : ∃ before, calls.length = before + 1 := by
      cases count : calls.length with
      | zero => rw [count] at within; cases within
      | succ before => exact ⟨before, rfl⟩
    have previous : (grid columns rows)[before]? = some (used, row) := by
      rw [List.getLast?_eq_getElem?, length, Nat.add_sub_cancel] at last
      have taken := congrArg (fun arguments => arguments[before]?) answered
      simp only [List.map_id, List.getElem?_map, last, Option.map_some] at taken
      rw [taken, List.getElem?_take_of_lt (by omega)]
    rw [getElem?_grid some_column] at previous
    obtain ⟨row, isRow, same⟩ := Option.map_eq_some_iff.mp previous
    cases same
    rw [within]
    rw [length] at within ⊢
    rw [Nat.succ_div_of_mod_ne_zero (by omega), isRow]
    rfl
  · rename_i notWithin
    have boundary : calls.length % columns = 0 := by
      cases within : calls.length % columns with
      | zero => rfl
      | succ column =>
          cases last : calls.getLast? with
          | none =>
              rw [List.getLast?_eq_none_iff.mp last] at within
              cases within
          | some call => exact (notWithin _ _ _ _ within last).elim
    rw [itemAt_ofList, pure_bind, Attempt.runFrom_pure] at asks
    injection asks with asks
    injection asks with asks
    rw [boundary]
    exact asks

/-! ## All operations -/

/-- A function that is called beside a record of its calls. -/
abbrev Callback (σ α β : Type) : Type := α → Attempt (StateM (Record σ α β)) β

theorem passes_eachItem (feed : Feed (StateM σ) α)
    {operation : Callback σ α β → Attempt (StateM (Record σ α β)) γ}
    (follows : ∀ f, Follows (eachItem (feedAside feed)) f (operation f)) :
    Passes id (eachItem feed) operation := by
  refine passes_of_follows fun f => ?_
  rw [aside_eachItem]
  exact follows (recorded f)

theorem passes_untilPasses (feed : Feed (StateM σ) α)
    {operation : Callback σ α Bool → Attempt (StateM (Record σ α Bool)) γ}
    (follows : ∀ p, Follows (untilPasses (feedAside feed)) p (operation p)) :
    Passes id (untilPasses feed) operation := by
  refine passes_of_follows fun p => ?_
  rw [aside_untilPasses]
  exact follows (recorded p)

private theorem passes_fold (feed : Feed (StateM σ) α) (initial : β) :
    Passes id (folding feed initial) fun f : Callback σ (β × α) β =>
      (feedAside feed).fold initial fun sofar item => f (sofar, item) := by
  refine passes_of_follows fun f => ?_
  rw [aside_folding]
  exact follows_folding (feedAside feed) initial (recorded f)

private theorem passes_unzip (feed : Feed (StateM σ) α) (columns : Nat) :
    Passes id (rowByRow feed (columns + 1)) fun f : Callback σ (Nat × α) β =>
      (feedAside feed).unzip (columnsOf (columns + 1) f) := by
  refine passes_of_follows fun f => ?_
  rw [aside_rowByRow]
  exact follows_rowByRow (feedAside feed) (columns + 1) (recorded f) (Nat.succ_pos columns)

private theorem passes_map (s : Sequence (List α)) :
    Passes stopped (eachItem s.feed) fun f : Callback σ α β => s.map f :=
  (passes_eachItem s.feed (follows_collect s.feed)).sealed.bind _

private theorem passes_keepIf (s : Sequence (List α)) :
    Passes stopped (eachItem s.feed) fun p : Callback σ α Bool => s.keepIf p :=
  (passes_eachItem s.feed fun p =>
    follows_filter s.feed p id fun _ => (bind_pure _).symm).sealed.bind _

private theorem passes_removeIf (s : Sequence (List α)) :
    Passes stopped (eachItem s.feed) fun p : Callback σ α Bool => s.removeIf p :=
  (passes_eachItem s.feed fun p => follows_filter s.feed p not fun _ => rfl).sealed.bind _

private theorem passes_any (s : Sequence (List α)) :
    Passes stopped (untilPasses s.feed) fun p : Callback σ α Bool => s.any p :=
  (passes_untilPasses s.feed (follows_any s.feed)).sealed

/-- The faults of functions that operations on sequences and feeds call. At the first fault of a
function an operation has made exactly the calls of its schedule, which takes the items in their
order, makes no call after that, and ends in this fault. Only where the function runs inside an
iteration of its own, which is so for the first four operations, does the end of an iteration
become another fault. -/
theorem faults_pass (s : Sequence (List α)) (items : Feed (StateM σ) α) (initial : β)
    (columns : Nat) :
    (Passes stopped (eachItem s.feed) fun f : Callback σ α β => s.map f) ∧
    (Passes stopped (eachItem s.feed) fun p : Callback σ α Bool => s.keepIf p) ∧
    (Passes stopped (eachItem s.feed) fun p : Callback σ α Bool => s.removeIf p) ∧
    (Passes stopped (untilPasses s.feed) fun p : Callback σ α Bool => s.any p) ∧
    (Passes id (eachItem s.feed) fun f : Callback σ α (List β) => s.flatMap f) ∧
    (Passes id (eachItem s.feed) fun f : Callback σ α Unit => s.each f) ∧
    (Passes id (untilPasses s.feed) fun p : Callback σ α Bool => s.find p) ∧
    (Passes id (untilPasses s.feed) fun p : Callback σ α Bool => s.indexWhere p) ∧
    (Passes id (folding s.feed initial) fun f : Callback σ (β × α) β =>
      s.fold initial fun sofar item => f (sofar, item)) ∧
    (∀ read, Passes id (eachItem s.feed) fun key : Callback σ α β => s.sortBy key read) ∧
    (∀ read, Passes id (eachItem s.feed) fun key : Callback σ α β => s.sortByDesc key read) ∧
    (Passes id (folding items initial) fun f : Callback σ (β × α) β =>
      (feedAside items).fold initial fun sofar item => f (sofar, item)) ∧
    (Passes id (rowByRow items (columns + 1)) fun f : Callback σ (Nat × α) β =>
      (feedAside items).unzip (columnsOf (columns + 1) f)) ∧
    (∀ fault, stopped fault = fault ↔ fault.kind ≠ .stopIteration) ∧
    InOrder s.items id (eachItem s.feed : Schedule (StateM σ) α β) ∧
    InOrder s.items id (untilPasses s.feed : Schedule (StateM σ) α Bool) ∧
    InOrder s.items Prod.snd (folding s.feed initial : Schedule (StateM σ) (β × α) β) ∧
    InOrder (grid (columns + 1) s.items) id
      (rowByRow s.feed (columns + 1) : Schedule (StateM σ) (Nat × α) β) := by
  have flatMaps : Passes id (eachItem s.feed) fun f : Callback σ α (List β) => s.flatMap f :=
    passes_eachItem s.feed fun f => ((follows_collect s.feed f).bind _).bind _
  have each : Passes id (eachItem s.feed) fun f : Callback σ α Unit => s.each f :=
    passes_eachItem s.feed (follows_each s.feed)
  have finds : Passes id (untilPasses s.feed) fun p : Callback σ α Bool => s.find p :=
    passes_untilPasses s.feed (follows_find s.feed)
  have places : Passes id (untilPasses s.feed) fun p : Callback σ α Bool => s.indexWhere p :=
    passes_untilPasses s.feed (follows_indexWhere s.feed)
  have sorts (read : β → Attempt (StateM (Record σ α β)) Value) :
      Passes id (eachItem s.feed) fun key : Callback σ α β => s.keyed key read :=
    passes_eachItem s.feed fun key => (follows_collect s.feed key).bind _
  exact ⟨passes_map s, passes_keepIf s, passes_removeIf s, passes_any s, flatMaps, each, finds,
    places, passes_fold s.feed initial, fun read => (sorts read).bind _,
    fun read => (sorts read).bind _, passes_fold items initial, passes_unzip items columns,
    stopped_eq_self_iff, eachItem_inOrder s.items, untilPasses_inOrder s.items,
    folding_inOrder s.items initial, rowByRow_inOrder (Nat.succ_pos columns) s.items⟩

/-- A function that answers its first call and ends an iteration at its second one: that fault is
what going through two items for the effects ends in. -/
theorem faults_pass_at_second :
    ((Sequence.mk [1, 2]).each (recorded fun item : Nat =>
      if item = 1 then pure () else throw (.thrown ⟨0, .stopIteration, [], none⟩))).runFrom
        (⟨(), []⟩ : Record Unit Nat Unit) =
      (.error (.thrown ⟨0, .stopIteration, [], none⟩),
        ⟨(), [⟨1, .ok ()⟩, ⟨2, .error (.thrown ⟨0, .stopIteration, [], none⟩)⟩]⟩) :=
  (@faults_pass Nat Unit Unit (Sequence.mk [1, 2]) (.ofList []) () 0).2.2.2.2.2.1 _
    () () () () [(1, ())] 2 _ (.answers .begins rfl rfl) rfl rfl

/-- The end of an iteration, raised by a function that is mapped, leaves as another fault of
another kind. -/
theorem map_changes_end_of_iteration :
    ((Sequence.mk [1, 2]).map (recorded fun _ : Nat =>
      (throw (.thrown ⟨0, .stopIteration, [], none⟩) : Attempt (StateM Unit) Nat))).runFrom
        ⟨(), []⟩ =
      (.error .stoppedInside,
        ⟨(), [⟨1, .error (.thrown ⟨0, .stopIteration, [], none⟩)⟩]⟩) ∧
    Fault.stoppedInside.kind = .runtime :=
  ⟨rfl, rfl⟩

end Presence.Calls
