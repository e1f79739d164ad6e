import Presence.Proofs.Sequence.ItemByItem
import Presence.Proofs.Session.Sources
import Presence.Proofs.Session.Steps

/-!
Contract: rows taken apart into columns, and columns put together into rows.

Owns: `IsTable` and `Turns`, rows of cells and the same cells as columns; `TakenApart`, rows of
which columns have been made row by row; that taking rows apart comes to this whenever it returns
(`takenApart_of_returns`), that it returns if the functions leave the rows to come alone
(`exists_takenApart`), and what it fails with (`fails_of_unzip`); that columns of one length are put
together place by place, and others not at all (`zip_spec`, `zipWith_ofList`, `zipWith_of_ne`); that
either undoes the other (`columns_and_rows`).

Does not own: going through a feed (`Presence.Proofs.Calls.Traversal`), what is left of the values
of a session (`Presence.Proofs.Session.Sources`).

A column is made of what its function has answered for the rows, whatever that depends on. Only
functions that leave the rows to come alone are given the rows that there have been before.
-/

namespace Presence.Sequence

open Attempt Calls Feed Session Run

variable {m : Type → Type} [Monad m] {σ α β γ : Type}

/-! ## Tables -/

/-- Rows of cells, one for each item, with one cell for each column. -/
structure IsTable (columns : Nat) (items : List α) (table : List (List β)) : Prop where
  rows : table.length = items.length
  cells : ∀ row ∈ table, row.length = columns

/-- The columns of a table: each holds its cell of every row, in the order of the rows. -/
structure Turns (columns : Nat) (table made : List (List β)) : Prop where
  count : made.length = columns
  column {place : Nat} {column : List β} : made[place]? = some column →
    column.map some = table.map (·[place]?)

/-- A table turned, as a list of its columns. -/
def turned (columns : Nat) (table : List (List β)) : List (List β) :=
  (List.range columns).map fun place => table.filterMap (·[place]?)

private theorem Turns.length_eq {columns : Nat} {items : List α} {table made : List (List β)}
    (turns : Turns columns table made) (isTable : IsTable columns items table) :
    ∀ column ∈ made, column.length = items.length := by
  intro column member
  obtain ⟨place, isThere⟩ := List.mem_iff_getElem?.mp member
  have same := congrArg List.length (turns.column isThere)
  rw [List.length_map, List.length_map] at same
  exact same.trans isTable.rows

private theorem filterMap_getElem? {table : List (List β)} {place : Nat}
    (within : ∀ row ∈ table, place < row.length) :
    (table.filterMap (·[place]?)).map some = table.map (·[place]?) := by
  induction table with
  | nil => rfl
  | cons row table inductionHypothesis =>
      rw [List.forall_mem_cons] at within
      rw [List.filterMap_cons, List.map_cons, List.getElem?_eq_getElem within.1,
        List.map_cons, inductionHypothesis within.2]

theorem eq_of_getElem?_turned {columns place : Nat} {table : List (List β)} {column : List β}
    (isThere : (turned columns table)[place]? = some column) :
    place < columns ∧ column = table.filterMap (·[place]?) := by
  rw [turned, List.getElem?_map, Option.map_eq_some_iff] at isThere
  obtain ⟨_, isPlace, rfl⟩ := isThere
  obtain ⟨inside, rfl⟩ := List.getElem?_eq_some_iff.mp isPlace
  rw [List.length_range] at inside
  rw [List.getElem_range]
  exact ⟨inside, rfl⟩

private theorem turns_turned {columns : Nat} {items : List α} {table : List (List β)}
    (isTable : IsTable columns items table) : Turns columns table (turned columns table) := by
  constructor
  · rw [turned, List.length_map, List.length_range]
  · intro place column isThere
    obtain ⟨inside, rfl⟩ := eq_of_getElem?_turned isThere
    exact filterMap_getElem? fun row member => (isTable.cells row member).symm ▸ inside

/-- What holds of all cells by the places of their columns holds of the cells of one column. -/
private theorem forall₂_filterMap {fine : Nat → α → β → Prop} {columns : Nat} {items : List α}
    {table : List (List β)}
    (cells : List.Forall₂ (fun item row =>
      List.Forall₂ (fun column cell => fine column item cell) (List.range columns) row) items table)
    {place : Nat} (inside : place < columns) :
    List.Forall₂ (fine place) items (table.filterMap (·[place]?)) := by
  induction cells with
  | nil => exact .nil
  | @cons item row items table first _ inductionHypothesis =>
      have isCell := getElem?_rel_of_forall₂ first place
      rw [List.getElem?_range inside] at isCell
      rw [List.filterMap_cons]
      generalize row[place]? = atPlace at isCell ⊢
      cases isCell with
      | some isFine => exact .cons isFine inductionHypothesis

theorem map_eq_of_forall₂ {g : α → β} {items : List α} {results : List β}
    (each : List.Forall₂ (fun item => (g item = ·)) items results) : items.map g = results := by
  have same : List.Forall₂ (· = ·) (items.map g) results := List.forall₂_map_left_iff.mpr each
  rwa [List.forall₂_eq_eq_eq] at same

/-! ## Taking rows apart -/

/-- The cells that the functions of columns make of an item. -/
def rowOf (functions : List (α → Attempt m β)) (item : α) : Attempt m (List β) :=
  functions.mapM fun f => f item

/-- The functions of columns on an item are one function on the places of the columns. -/
theorem rowOf_columnsOf [LawfulMonad m] (columns : Nat) (f : Nat × α → Attempt m β) (item : α) :
    rowOf (columnsOf columns f) item =
      ((List.range columns).map fun column => (column, item)).mapM f := by
  rw [rowOf, columnsOf, List.mapM_map, List.mapM_map]
  rfl

omit [Monad m] in
theorem length_columnsOf (columns : Nat) (f : Nat × α → Attempt m β) :
    (columnsOf columns f).length = columns := by
  rw [columnsOf, List.length_map, List.length_range]

section Unzip

variable {feed : Feed (StateM σ) α} {functions : List (α → Attempt (StateM σ) β)} {columns : Nat}
  {f : Nat × α → Attempt (StateM σ) β} {items : List α} {table : List (List β)} {start after : σ}

theorem isTable_of_visits
    (visits : Visits feed (rowOf functions) 0 start items table after) :
    IsTable functions.length items table := by
  refine ⟨visits.length_eq, fun row member => ?_⟩
  obtain ⟨item, -, asked, middle, gives⟩ := visits.exists_of_mem row member
  exact length_of_mapM gives

/-- Taking rows apart gives the columns of their cells. -/
theorem runFrom_unzip
    (visits : Visits feed (rowOf functions) 0 start items table after) :
    (feed.unzip functions).runFrom start =
      (.ok (turned functions.length table), after) :=
  runFrom_bind_of_ok _ visits.collect

/-- Calls that have been answered, with their answers. -/
def answered (arguments : List γ) (answers : List β) : List (Entry γ β) :=
  List.zipWith (fun argument answer => ⟨argument, .ok answer⟩) arguments answers

/-- The calls row by row are those of the rows one after the other. -/
private theorem answered_grid (isTable : IsTable columns items table) :
    answered (grid columns items) table.flatten =
      (List.zipWith (fun item row =>
        answered ((List.range columns).map fun column => (column, item)) row) items
          table).flatten := by
  obtain ⟨rows, cells⟩ := isTable
  induction items generalizing table with
  | nil => rfl
  | cons item items inductionHypothesis =>
      cases table with
      | nil => cases rows
      | cons row table =>
          rw [List.forall_mem_cons] at cells
          have first : grid columns (item :: items) =
              ((List.range columns).map fun column => (column, item)) ++ grid columns items := rfl
          have width : ((List.range columns).map fun column => (column, item)).length =
              row.length := by
            rw [List.length_map, List.length_range, cells.1]
          rw [List.zipWith_cons_cons, List.flatten_cons, List.flatten_cons, first, answered,
            List.zipWith_append width, ← inductionHypothesis (Nat.succ.inj rows) cells.2]
          rfl

/-- The calls on record go row by row, with the cells as their answers. -/
private theorem runFrom_unzip_recorded
    (visits : Visits feed (rowOf (columnsOf columns f)) 0 start items table after) :
    ((feedAside feed).unzip (columnsOf columns (recorded f))).runFrom ⟨start, []⟩ =
      (.ok (turned columns table), ⟨after, answered (grid columns items) table.flatten⟩) := by
  have isTable := isTable_of_visits visits
  rw [length_columnsOf] at isTable
  have notes {item : α} {asked middle : σ} {row : List β}
      (gives : (rowOf (columnsOf columns f) item).runFrom asked = (.ok row, middle))
      (record : List (Entry (Nat × α) β)) :
      (rowOf (columnsOf columns (recorded f)) item).runFrom ⟨asked, record⟩ = (.ok row, ⟨middle,
        record ++ answered ((List.range columns).map fun column => (column, item)) row⟩) := by
    rw [rowOf_columnsOf] at gives ⊢
    exact runFrom_recorded_mapM gives record
  have onRecord := visits.recorded notes []
  rw [List.nil_append, ← answered_grid isTable] at onRecord
  have ran := runFrom_unzip onRecord
  rw [length_columnsOf] at ran
  exact ran

end Unzip

/-! ## Putting columns together -/

theorem zip_spec {xs : List α} {ys : List β} (same : xs.length = ys.length) :
    ∃ pairs, zip xs ys = .ok pairs ∧ pairs.length = xs.length ∧ ∀ (place : Nat) pair,
      pairs[place]? = some pair ↔ xs[place]? = some pair.first ∧ ys[place]? = some pair.second := by
  refine ⟨List.zipWith Pair.mk xs ys, ?_, ?_, fun place pair => ?_⟩
  · rw [zip, requireSameLength, if_pos same]
    rfl
  · rw [List.length_zipWith, same, Nat.min_self]
  · rw [List.getElem?_zipWith]
    cases xs[place]? with
    | none => simp
    | some x =>
        obtain ⟨first, second⟩ := pair
        cases ys[place]? <;> simp

private theorem zip_of_ne {xs : List α} {ys : List β} (different : xs.length ≠ ys.length) :
    zip xs ys = .error (.unequalLengths "zip") := by
  rw [zip, requireSameLength, if_neg different]
  rfl

/-- Items that are all there are paired as their lists are. -/
private theorem zip_ofList [LawfulMonad m] (xs : List α) (ys : List β) :
    (Feed.ofList xs).zip (Feed.ofList ys) = (Feed.ofList (xs.zip ys) : Feed m (α × β)) := by
  have next : ((Feed.ofList xs).zip (Feed.ofList ys) : Feed m (α × β)).next =
      (Feed.ofList (xs.zip ys)).next := by
    funext place
    simp only [Feed.zip, Feed.ofList, List.getElem?_toArray, pure_bind]
    rw [List.zip, List.getElem?_zipWith]
    cases xs[place]? with
    | none => rfl
    | some x => cases ys[place]? <;> rfl
  have bound : ((Feed.ofList xs).zip (Feed.ofList ys) : Feed m (α × β)).bound =
      (Feed.ofList (xs.zip ys) : Feed m (α × β)).bound := List.length_zip.symm
  exact congrArg₂ Feed.mk next bound

/-- Columns of one length are put together by the function on each place, in the order of the
places. -/
theorem zipWith_ofList [LawfulMonad m] {xs : List α} {ys : List β}
    (same : xs.length = ys.length) (h : α → β → Attempt m γ) :
    zipWith (.ofList xs) (.ofList ys) xs.length ys.length h =
      (xs.zip ys).mapM fun pair => h pair.1 pair.2 := by
  rw [zipWith, requireSameLength, if_pos same, zip_ofList, collect_ofList]
  exact pure_bind () _

/-- Two columns that are made of the same rows are put together row by row. -/
theorem zipWith_map [LawfulMonad m] (rows : List α) (f g : α → β) (h : β → β → Attempt m γ) :
    zipWith (.ofList (rows.map f)) (.ofList (rows.map g)) (rows.map f).length
        (rows.map g).length h =
      rows.mapM fun row => h (f row) (g row) := by
  rw [zipWith_ofList (by rw [List.length_map, List.length_map]), List.zip_map', List.mapM_map]
  rfl

/-- Columns of different lengths are not put together, and the function is not called. -/
theorem zipWith_of_ne [LawfulMonad m] (xs : Feed m α) (ys : Feed m β) {xLength yLength : Nat}
    (different : xLength ≠ yLength) (h : α → β → Attempt m γ) :
    zipWith xs ys xLength yLength h = throw (.unequalLengths "zip_with") := by
  rw [zipWith, requireSameLength, if_neg different]
  show (throw _ : Attempt m Unit) >>= _ = throw _
  apply ExceptT.ext
  simp

/-- Columns of one length are put together by a function that leaves what is left of them. -/
private theorem exists_runFrom_zipWith {xs : Feed (StateM σ) α} {ys : Feed (StateM σ) β}
    {left : (place : Nat) → σ → List (α × β) → Prop} (serves : Serves (xs.zip ys) left) {start : σ}
    {pairs : List (α × β)} (isLeft : left 0 start pairs) (h : α → β → Attempt (StateM σ) γ)
    {fine : α × β → γ → Prop} (spares : ∀ pair ∈ pairs, Spares left (h pair.1 pair.2) (fine pair))
    (length : Nat) :
    ∃ made after, (zipWith xs ys length length h).runFrom start = (.ok made, after) ∧
      List.Forall₂ fine pairs made ∧ left (pairs.length + 1) after [] := by
  obtain ⟨made, after, visits, areFine, nothingLeft⟩ := exists_visits serves spares isLeft
  rw [Nat.zero_add] at nothingLeft
  refine ⟨made, after, ?_, areFine, nothingLeft⟩
  rw [zipWith, requireSameLength, if_pos rfl]
  exact (runFrom_bind_of_ok _ (runFrom_pure () start)).trans visits.collect

/-! ## Rows that have been taken apart -/

/-- Rows have been taken apart: the feed has been asked for each of them once, all columns have been
made of a row, one after the other, before the next row was asked for, and each column holds what
its function has answered for the rows, in their order. -/
structure TakenApart (feed : Feed (StateM σ) α) (columns : Nat) (f : Nat × α → Attempt (StateM σ) β)
    (start : σ) (rows : List α) (table made : List (List β)) (after : σ) : Prop where
  visits : Visits feed (rowOf (columnsOf columns f)) 0 start rows table after
  returns : (feed.unzip (columnsOf columns f)).runFrom start = (.ok made, after)
  calls : ((feedAside feed).unzip (columnsOf columns (recorded f))).runFrom ⟨start, []⟩ =
    (.ok made, ⟨after, answered (grid columns rows) table.flatten⟩)
  isTable : IsTable columns rows table
  turns : Turns columns table made
  length_eq : ∀ column ∈ made, column.length = rows.length
  /-- Any two of the columns can be put together again. -/
  zipWith_eq {xs ys : List β} : xs ∈ made → ys ∈ made →
    ∀ {γ : Type} (h : β → β → Attempt (StateM σ) γ),
      zipWith (.ofList xs) (.ofList ys) xs.length ys.length h =
        (xs.zip ys).mapM fun pair => h pair.1 pair.2

/-- What the functions of columns answer for rows is fine, and they leave the rows to come alone. -/
def CellsAre (left : (place : Nat) → σ → List α → Prop) (f : Nat × α → Attempt (StateM σ) β)
    (columns : Nat) (rows : List α) (fine : Nat → α → β → Prop) : Prop :=
  ∀ row ∈ rows, ∀ column < columns, Spares left (f (column, row)) (fine column row)

/-- The columns hold what is fine for the rows, in their order. -/
def ColumnsAre (fine : Nat → α → β → Prop) (rows : List α) (made : List (List β)) : Prop :=
  ∀ (place : Nat) column, made[place]? = some column → List.Forall₂ (fine place) rows column

section TakenApart

variable {feed : Feed (StateM σ) α} {columns : Nat} {f : Nat × α → Attempt (StateM σ) β}
  {start after : σ} {rows : List α}

theorem takenApart_of_visits {table : List (List β)}
    (visits : Visits feed (rowOf (columnsOf columns f)) 0 start rows table after) :
    TakenApart feed columns f start rows table (turned columns table) after := by
  have isTable := isTable_of_visits visits
  have ran := runFrom_unzip visits
  rw [length_columnsOf] at isTable ran
  have turns := turns_turned isTable
  have length_eq := turns.length_eq isTable
  refine ⟨visits, ran, runFrom_unzip_recorded visits, isTable, turns, length_eq, ?_⟩
  intro xs ys isX isY γ h
  exact zipWith_ofList ((length_eq xs isX).trans (length_eq ys isY).symm) h

/-- Functions that leave the rows to come alone take all rows apart, and leave no row. -/
theorem exists_takenApart {left : (place : Nat) → σ → List α → Prop} (serves : Serves feed left)
    (isLeft : left 0 start rows) {fine : Nat → α → β → Prop}
    (cells : CellsAre left f columns rows fine) :
    ∃ table made after, TakenApart feed columns f start rows table made after ∧
      ColumnsAre fine rows made ∧ left (rows.length + 1) after [] := by
  have spared (row : α) (isRow : row ∈ rows) : Spares left (rowOf (columnsOf columns f) row)
      (List.Forall₂ (fun column => fine column row) (List.range columns)) := by
    have each (argument : Nat × α)
        (member : argument ∈ (List.range columns).map fun column => (column, row)) :
        Spares left (f argument) (fine argument.1 argument.2) := by
      obtain ⟨column, isColumn, rfl⟩ := List.mem_map.mp member
      exact cells row isRow column (List.mem_range.mp isColumn)
    have whole := Spares.mapM each
    rw [← rowOf_columnsOf] at whole
    intro place before others isLeft
    obtain ⟨made, after, ran, areFine, stillLeft⟩ := whole place before others isLeft
    exact ⟨made, after, ran, List.forall₂_map_left_iff.mp areFine, stillLeft⟩
  obtain ⟨table, after, visits, areFine, nothingLeft⟩ := exists_visits serves spared isLeft
  rw [Nat.zero_add] at nothingLeft
  refine ⟨table, _, after, takenApart_of_visits visits, fun place column isThere => ?_, nothingLeft⟩
  obtain ⟨inside, rfl⟩ := eq_of_getElem?_turned isThere
  exact forall₂_filterMap areFine inside

/-- Where nothing but the row matters for the cells, each column is its function on all rows. -/
theorem exists_takenApart_map {left : (place : Nat) → σ → List α → Prop} (serves : Serves feed left)
    (isLeft : left 0 start rows) {g : Nat → α → β}
    (cells : CellsAre left f columns rows fun column row => (g column row = ·)) :
    ∃ table after, TakenApart feed columns f start rows table
      ((List.range columns).map fun column => rows.map (g column)) after := by
  obtain ⟨table, made, after, isTakenApart, areFine, -⟩ := exists_takenApart serves isLeft cells
  have same : made = (List.range columns).map fun column => rows.map (g column) := by
    refine List.ext_getElem ?_ fun place inside _ => ?_
    · rw [isTakenApart.turns.count, List.length_map, List.length_range]
    · rw [List.getElem_map, List.getElem_range]
      exact (map_eq_of_forall₂ (areFine place _ (List.getElem?_eq_getElem inside))).symm
  exact ⟨table, after, same ▸ isTakenApart⟩

/-- Whatever the functions do to the rows to come, the rows that they are given are taken apart if
all of this returns. -/
theorem takenApart_of_returns {made : List (List β)}
    (returns : (feed.unzip (columnsOf columns f)).runFrom start = (.ok made, after)) :
    ∃ rows table, TakenApart feed columns f start rows table made after := by
  obtain ⟨table, middle, collected, ended⟩ := exists_of_runFrom_bind returns
  obtain ⟨rows, visits⟩ := Visits.exists_of_collect collected
  cases ended
  have isTakenApart := takenApart_of_visits visits
  rw [length_columnsOf]
  exact ⟨rows, table, isTakenApart⟩

/-- Rows fail to be taken apart only with a fault of the feed or of the function of a column. -/
theorem fails_of_unzip {fault : Fault}
    (fails : (feed.unzip (columnsOf columns f)).runFrom start = (.error fault, after)) :
    (∃ place asked, (feed.itemAt place).runFrom asked = (.error fault, after)) ∨
      ∃ column < columns, ∃ row asked,
        (f (column, row)).runFrom asked = (.error fault, after) := by
  rcases fails_of_runFrom_bind fails with collected | ⟨_, _, -, fails⟩
  · refine (Visits.fails_of_collect collected).imp_right ?_
    rintro ⟨row, asked, failed⟩
    have inRow : (rowOf (columnsOf columns f) row).runFrom asked = (.error fault, after) := failed
    rw [rowOf_columnsOf] at inRow
    obtain ⟨argument, member, middle, called⟩ := fails_of_mapM inRow
    obtain ⟨column, isColumn, rfl⟩ := List.mem_map.mp member
    exact ⟨column, List.mem_range.mp isColumn, row, middle, called⟩
  · cases fails

end TakenApart

/-! ## Columns in a session -/

/-- What the function of a column makes of a value. -/
def cellOf (call : Caller) (functions : List Value) (argument : Nat × Value) : Run Value :=
  call ((functions[argument.1]?).getD .null) [argument.2]

private theorem columnsOf_cellOf (call : Caller) (functions : List Value) :
    columnsOf functions.length (cellOf call functions) = functions.map fun f x => call f [x] := by
  refine List.ext_getElem ?_ fun place inside _ => ?_
  · rw [length_columnsOf, List.length_map]
  · rw [length_columnsOf] at inside
    simp [columnsOf, cellOf, inside]

section Session

variable (call : Caller) {v w : Value} {world : World} {items xs ys : List Value}
  {holds : World → Prop}

/-- A session takes apart whatever is left of a value. -/
theorem exists_runFrom_unzip (functions : List Value) (unmoved : Unmoved holds)
    (isLeft : LeftBeside holds v 0 world items) {fine : Nat → Value → Value → Prop}
    (cells : CellsAre (LeftBeside holds v) (cellOf call functions) functions.length items fine) :
    ∃ feed table made after, (feedOf v).runFrom world = (.ok feed, world) ∧
      TakenApart feed functions.length (cellOf call functions) world items table made after ∧
      ColumnsAre fine items made ∧ LeftBeside holds v (items.length + 1) after [] ∧
      (performSequence call (.unzip functions.length) (v :: functions)).runFrom world =
        (.ok (.tuple (made.map sequence)), after) := by
  obtain ⟨feed, serves, fed⟩ := exists_serves v
  obtain ⟨table, made, after, isTakenApart, areFine, nothingLeft⟩ :=
    exists_takenApart (serves holds unmoved) isLeft cells
  have isFed := fed world items isLeft.2
  have ran := isTakenApart.returns
  rw [columnsOf_cellOf] at ran
  refine ⟨feed, table, made, after, isFed, isTakenApart, areFine, nothingLeft, ?_⟩
  rw [performSequence, if_pos rfl, unzipParts, runFrom_bind_of_ok _ isFed,
    runFrom_bind_of_ok _ ran]
  rfl

/-- Two sequences of one length are put together by whatever function. -/
theorem performSequence_zipWith (same : xs.length = ys.length) (f : Value) :
    performSequence call .zipWith [sequence xs, sequence ys, f] = do
      return .list (← (xs.zip ys).mapM fun pair => call f [pair.1, pair.2]) := by
  rw [← zipWith_ofList same fun x y => call f [x, y]]
  rfl

section Sized

variable (sizedX : world.store.partsOf? v = some xs) (sizedY : world.store.partsOf? w = some ys)

include sizedX sizedY

/-- What has different sizes is not put together. -/
theorem runFrom_pairs_of_ne (different : xs.length ≠ ys.length) (f : Value) :
    (performSequence call .zip [v, w]).runFrom world = (.error (.unequalLengths "zip"), world) ∧
      (performSequence call .zipWith [v, w, f]).runFrom world =
        (.error (.unequalLengths "zip_with"), world) := by
  have sizeX := runFrom_size sizedX
  have sizeY := runFrom_size sizedY
  obtain ⟨xFeed, -, fedX⟩ := exists_readsParts v
  obtain ⟨yFeed, -, fedY⟩ := exists_readsParts w
  constructor
  · simp only [performSequence]
    rw [runFrom_bind_of_ok _ sizeX, runFrom_bind_of_ok _ sizeY, requireSameLength,
      if_neg different]
    rfl
  · simp only [performSequence]
    rw [runFrom_bind_of_ok _ sizeX, runFrom_bind_of_ok _ sizeY,
      runFrom_bind_of_ok _ (fedX world xs sizedX), runFrom_bind_of_ok _ (fedY world ys sizedY),
      zipWith_of_ne _ _ different]
    rfl

variable (same : xs.length = ys.length) (fits : xs.length ≤ endless)

include same fits

private theorem runFrom_pairs : (performSequence call .zip [v, w]).runFrom world =
    (.ok (.list (List.zipWith (fun x y => .pair ⟨x, y⟩) xs ys)), world) := by
  simp only [performSequence]
  rw [runFrom_bind_of_ok _ (runFrom_size sizedX), runFrom_bind_of_ok _ (runFrom_size sizedY),
    requireSameLength, if_pos same]
  refine (runFrom_bind_of_ok _ (runFrom_pure () world)).trans ?_
  rw [runFrom_bind_of_ok _ (runFrom_parts sizedX fits),
    runFrom_bind_of_ok _ (runFrom_parts sizedY (same ▸ fits))]
  rfl

/-- What has one size is put together by a function that leaves it as it is. -/
theorem exists_runFrom_pairs (isSo : holds world) {f : Value} {fine : Value × Value → Value → Prop}
    (spares : ∀ pair ∈ xs.zip ys,
      Spares (PairsLeft holds v w) (call f [pair.1, pair.2]) (fine pair)) :
    ∃ made after, (performSequence call .zipWith [v, w, f]).runFrom world =
        (.ok (.list made), after) ∧ List.Forall₂ fine (xs.zip ys) made ∧ holds after := by
  obtain ⟨xFeed, readsX, fedX⟩ := exists_readsParts v
  obtain ⟨yFeed, readsY, fedY⟩ := exists_readsParts w
  have isLeft : PairsLeft holds v w 0 world (xs.zip ys) :=
    ⟨isSo, xs, ys, sizedX, sizedY, fits, same ▸ fits, rfl⟩
  obtain ⟨made, after, joined, areFine, stillSo, -⟩ := exists_runFrom_zipWith
    (serves_zip holds readsX readsY) isLeft (fun x y => call f [x, y]) spares xs.length
  refine ⟨made, after, ?_, areFine, stillSo⟩
  simp only [performSequence]
  rw [runFrom_bind_of_ok _ (runFrom_size sizedX), runFrom_bind_of_ok _ (runFrom_size sizedY),
    runFrom_bind_of_ok _ (fedX world xs sizedX), runFrom_bind_of_ok _ (fedY world ys sizedY),
    ← same, runFrom_bind_of_ok _ joined]
  rfl

end Sized

/-- Pairs that are left of a value are taken apart into what they are made of. -/
theorem exists_runFrom_unzip_pairs (same : xs.length = ys.length) (unmoved : Unmoved holds)
    (isLeft : LeftBeside holds v 0 world ((xs.zip ys).map fun pair => .tuple [pair.1, pair.2]))
    {first second : Value}
    (isFirst : ∀ pair ∈ xs.zip ys, Spares (LeftBeside holds v)
      (call first [.tuple [pair.1, pair.2]]) (pair.1 = ·))
    (isSecond : ∀ pair ∈ xs.zip ys, Spares (LeftBeside holds v)
      (call second [.tuple [pair.1, pair.2]]) (pair.2 = ·)) :
    ∃ after, (performSequence call (.unzip 2) [v, first, second]).runFrom world =
      (.ok (.tuple [sequence xs, sequence ys]), after) := by
  have cells : CellsAre (LeftBeside holds v) (cellOf call [first, second]) 2
      ((xs.zip ys).map fun pair => .tuple [pair.1, pair.2])
      fun column item => ((item.parts?.getD [])[column]?.getD .null = ·) := by
    intro item isItem column inside
    obtain ⟨pair, isPair, rfl⟩ := List.mem_map.mp isItem
    match column with
    | 0 => exact isFirst pair isPair
    | 1 => exact isSecond pair isPair
  obtain ⟨feed, table, made, after, -, isTakenApart, areFine, -, ran⟩ :=
    exists_runFrom_unzip call [first, second] unmoved isLeft cells
  obtain ⟨front, back, rfl⟩ := List.length_eq_two.mp isTakenApart.turns.count
  have fronts := areFine 0 front rfl
  have backs := areFine 1 back rfl
  rw [List.forall₂_map_left_iff] at fronts backs
  have isFront : (xs.zip ys).map Prod.fst = front := map_eq_of_forall₂ fronts
  have isBack : (xs.zip ys).map Prod.snd = back := map_eq_of_forall₂ backs
  rw [List.map_fst_zip (Nat.le_of_eq same)] at isFront
  rw [List.map_snd_zip (Nat.le_of_eq same.symm)] at isBack
  rw [← isFront, ← isBack] at ran
  exact ⟨after, ran⟩

end Session

/-! ## Rows and columns -/

/-- Rows are taken apart into columns of their number, row by row, and any two of the columns can be
put together again by whatever function. So it is if the functions of the columns leave the rows to
come alone; if they do not, it is so for the rows that they are given, unless one of them or the
feed fails. A session takes apart whatever is left of a value, which may be gone through only once.

Two sequences of one length are paired place by place, and what is taken out of the pairs is what
the pairs are made of. Sequences of different lengths are not put together, and no function is
called. -/
theorem columns_and_rows :
    (∀ operation, (Fault.unequalLengths operation).kind = .value) ∧
    (∀ {σ α β : Type} (feed : Feed (StateM σ) α) (columns : Nat)
        (f : Nat × α → Attempt (StateM σ) β) (start : σ),
      (∀ (left : Nat → σ → List α → Prop) (rows : List α), Serves feed left → left 0 start rows →
        (∀ fine, CellsAre left f columns rows fine →
          ∃ table made after, TakenApart feed columns f start rows table made after ∧
            ColumnsAre fine rows made ∧ left (rows.length + 1) after []) ∧
        ∀ g : Nat → α → β, (CellsAre left f columns rows fun column row => (g column row = ·)) →
          (∃ table after, TakenApart feed columns f start rows table
            ((List.range columns).map fun column => rows.map (g column)) after) ∧
          ∀ (first second : Nat) {γ : Type} (h : β → β → Attempt (StateM σ) γ),
            zipWith (.ofList (rows.map (g first))) (.ofList (rows.map (g second)))
                (rows.map (g first)).length (rows.map (g second)).length h =
              rows.mapM fun row => h (g first row) (g second row)) ∧
      (∀ made after, (feed.unzip (columnsOf columns f)).runFrom start = (.ok made, after) →
        ∃ rows table, TakenApart feed columns f start rows table made after) ∧
      ∀ fault after, (feed.unzip (columnsOf columns f)).runFrom start = (.error fault, after) →
        (∃ place asked, (feed.itemAt place).runFrom asked = (.error fault, after)) ∨
          ∃ column < columns, ∃ row asked,
            (f (column, row)).runFrom asked = (.error fault, after)) ∧
    (∀ {α β γ : Type} {m : Type → Type} [Monad m] [LawfulMonad m] (xs : List α) (ys : List β)
        (h : α → β → Attempt m γ),
      (xs.length = ys.length → (∃ pairs, zip xs ys = .ok pairs ∧ pairs.length = xs.length ∧
          ∀ (place : Nat) pair, pairs[place]? = some pair ↔
            xs[place]? = some pair.first ∧ ys[place]? = some pair.second) ∧
        zipWith (.ofList xs) (.ofList ys) xs.length ys.length h =
          (xs.zip ys).mapM fun pair => h pair.1 pair.2) ∧
      (xs.length ≠ ys.length → zip xs ys = .error (.unequalLengths "zip") ∧
        zipWith (.ofList xs) (.ofList ys) xs.length ys.length h =
          throw (.unequalLengths "zip_with"))) ∧
    ∀ (call : Caller) (v w : Value) (world : World) (holds : World → Prop),
      (∀ functions items fine, Unmoved holds → LeftBeside holds v 0 world items →
        CellsAre (LeftBeside holds v) (cellOf call functions) functions.length items fine →
        ∃ feed table made after, (feedOf v).runFrom world = (.ok feed, world) ∧
          TakenApart feed functions.length (cellOf call functions) world items table made after ∧
          ColumnsAre fine items made ∧ LeftBeside holds v (items.length + 1) after [] ∧
          (performSequence call (.unzip functions.length) (v :: functions)).runFrom world =
            (.ok (.tuple (made.map sequence)), after) ∧
          ∀ xs ∈ made, ∀ ys ∈ made, ∀ h,
            performSequence call .zipWith [sequence xs, sequence ys, h] = do
              return .list (← (xs.zip ys).mapM fun pair => call h [pair.1, pair.2])) ∧
      ∀ xs ys, world.store.partsOf? v = some xs → world.store.partsOf? w = some ys →
        (xs.length = ys.length → xs.length ≤ endless →
          (performSequence call .zip [v, w]).runFrom world =
            (.ok (.list (List.zipWith (fun x y => .pair ⟨x, y⟩) xs ys)), world) ∧
          (∀ h fine, holds world → (∀ pair ∈ xs.zip ys,
              Spares (PairsLeft holds v w) (call h [pair.1, pair.2]) (fine pair)) →
            ∃ made after, (performSequence call .zipWith [v, w, h]).runFrom world =
              (.ok (.list made), after) ∧ List.Forall₂ fine (xs.zip ys) made ∧ holds after) ∧
          ∀ pairs later first second, Unmoved holds →
            LeftBeside holds pairs 0 later
              ((xs.zip ys).map fun pair => .tuple [pair.1, pair.2]) →
            (∀ pair ∈ xs.zip ys, Spares (LeftBeside holds pairs)
              (call first [.tuple [pair.1, pair.2]]) (pair.1 = ·)) →
            (∀ pair ∈ xs.zip ys, Spares (LeftBeside holds pairs)
              (call second [.tuple [pair.1, pair.2]]) (pair.2 = ·)) →
            ∃ after, (performSequence call (.unzip 2) [pairs, first, second]).runFrom later =
              (.ok (.tuple [sequence xs, sequence ys]), after)) ∧
        (xs.length ≠ ys.length → ∀ h,
          (performSequence call .zip [v, w]).runFrom world =
              (.error (.unequalLengths "zip"), world) ∧
            (performSequence call .zipWith [v, w, h]).runFrom world =
              (.error (.unequalLengths "zip_with"), world)) := by
  refine ⟨fun _ => rfl, ?rows, ?pairs, ?session⟩
  case rows =>
    intro σ α β feed columns f start
    refine ⟨fun left rows serves isLeft => ⟨fun fine => exists_takenApart serves isLeft, ?_⟩,
      fun made after => takenApart_of_returns, fun fault after => fails_of_unzip⟩
    intro g cells
    exact ⟨exists_takenApart_map serves isLeft cells, fun first second γ h => zipWith_map ..⟩
  case pairs =>
    intro α β γ m _ _ xs ys h
    exact ⟨fun same => ⟨zip_spec same, zipWith_ofList same h⟩,
      fun different => ⟨zip_of_ne different, zipWith_of_ne _ _ different h⟩⟩
  case session =>
    intro call v w world holds
    refine ⟨fun functions items fine unmoved isLeft cells => ?_,
      fun xs ys sizedX sizedY => ⟨fun same fits => ?_, fun different h => ?_⟩⟩
    · obtain ⟨feed, table, made, after, fed, isTakenApart, areFine, nothingLeft, ran⟩ :=
        exists_runFrom_unzip call functions unmoved isLeft cells
      refine ⟨feed, table, made, after, fed, isTakenApart, areFine, nothingLeft, ran,
        fun xs isX ys isY h => performSequence_zipWith call ?_ h⟩
      exact (isTakenApart.length_eq xs isX).trans (isTakenApart.length_eq ys isY).symm
    · refine ⟨runFrom_pairs call sizedX sizedY same fits, fun h fine isSo spares =>
        exists_runFrom_pairs call sizedX sizedY same fits isSo spares, ?_⟩
      intro pairs later first second unmoved isLeft isFirst isSecond
      exact exists_runFrom_unzip_pairs call same unmoved isLeft isFirst isSecond
    · exact runFrom_pairs_of_ne call sizedX sizedY different h

/-- A function that a literal gives spares whatever it does not change. -/
theorem spares_call {β : Type} {left : (place : Nat) → World → List β → Prop} {number : Nat}
    {literal : Literal} {arguments : List Value} {result : Value} {fine : Value → Prop}
    (known : ∀ {place world items}, left place world items →
      world.store.functions[number]? = some (.given literal))
    (gives : ∀ world, (applyGiven (callTo 999) literal arguments).runFrom world =
      (.ok result, world)) (isFine : fine result) :
    Spares left (call (.handle .function number) arguments) fine := fun _ world _ isLeft =>
  ⟨result, world, (runFrom_callTo (known isLeft) arguments).trans (gives world), isFine, isLeft⟩

/-- A world with functions that negate and double, that make pairs and take them apart, and with an
iterator that has one and two left. -/
def workbench : World :=
  { World.start ⟨[]⟩ ⟨2024, 2, 29, 1, 2, 3, 0⟩ with
    store := { Store.empty with
      functions := #[.given (.unary .neg), .given (.binary .mul (some (.scalar (.int 2)))),
        .given (.binary .tuple none), .given (.binary .item (some (.scalar (.int 0)))),
        .given (.binary .item (some (.scalar (.int 1))))]
      iterators := #[[.int 1, .int 2]] } }

/-- The functions are those of the workbench. -/
def IsEquipped (world : World) : Prop := world.store.functions = workbench.store.functions

private theorem unmoved_isEquipped : Unmoved IsEquipped := by
  rintro before _ ⟨iterators, streams, rfl⟩ isSo
  exact isSo

/-- What the first two functions make of a value. -/
def worked (column : Nat) (v : Value) : Value :=
  ((if column = 0 then v.neg else v.mul (.int 2)).toOption).getD .null

/-- An iterator is taken apart in one go. A list and a tuple are put together and taken apart again,
unless they have different lengths. -/
theorem columns_and_rows_workbench :
    (LeftBeside IsEquipped (.handle .iterator 0) 0 workbench [.int 1, .int 2] ∧
      (CellsAre (LeftBeside IsEquipped (.handle .iterator 0))
        (cellOf call [.handle .function 0, .handle .function 1]) 2 [.int 1, .int 2]
        fun column item => (worked column item = ·)) ∧
      ∃ after, (performSequence call (.unzip 2)
          [.handle .iterator 0, .handle .function 0, .handle .function 1]).runFrom workbench =
        (.ok (.tuple [sequence [.int (-1), .int (-2)], sequence [.int 2, .int 4]]), after) ∧
        IsLeft (.handle .iterator 0) 3 after []) ∧
    (∃ after, (performSequence call .zipWith
          [.list [.int 5], .tuple [.int 6], .handle .function 2]).runFrom workbench =
        (.ok (.list [.tuple [.int 5, .int 6]]), after)) ∧
    (∃ after, (performSequence call (.unzip 2) [.list [.tuple [.int 5, .int 6]],
          .handle .function 3, .handle .function 4]).runFrom workbench =
        (.ok (.tuple [sequence [.int 5], sequence [.int 6]]), after)) ∧
    (performSequence call .zipWith
        [.list [.int 5], .tuple [], .handle .function 2]).runFrom workbench =
      (.error (.unequalLengths "zip_with"), workbench) := by
  obtain ⟨-, -, -, session⟩ := columns_and_rows
  have known {number : Nat} {literal : Literal} {world : World} (isSo : IsEquipped world)
      (found : workbench.store.functions[number]? = some (.given literal)) :
      world.store.functions[number]? = some (.given literal) := isSo ▸ found
  have isLeft : LeftBeside IsEquipped (.handle .iterator 0) 0 workbench [.int 1, .int 2] :=
    ⟨rfl, rfl, by decide⟩
  have cells : CellsAre (LeftBeside IsEquipped (.handle .iterator 0))
      (cellOf call [.handle .function 0, .handle .function 1]) 2 [.int 1, .int 2]
      fun column item => (worked column item = ·) := by
    intro item isItem column inside
    have isColumn : column = 0 ∨ column = 1 := by omega
    rcases isColumn with rfl | rfl <;> rcases List.mem_pair.mp isItem with rfl | rfl <;>
      exact spares_call (fun isLeft => known isLeft.1 rfl) (fun _ => rfl) rfl
  have same : [Value.int 5].zip [Value.int 6] = [(.int 5, .int 6)] := rfl
  obtain ⟨-, together, apart⟩ := ((session call (.list [.int 5]) (.tuple [.int 6]) workbench
    IsEquipped).2 [.int 5] [.int 6] rfl rfl).1 rfl (by decide)
  refine ⟨⟨isLeft, cells, ?_⟩, ?_, ?_, ?_⟩
  · obtain ⟨feed, table, made, after, -, isTakenApart, areFine, nothingLeft, ran, -⟩ :=
      (session call (.handle .iterator 0) .null workbench IsEquipped).1
        [.handle .function 0, .handle .function 1] _ _ unmoved_isEquipped isLeft cells
    obtain ⟨front, back, rfl⟩ := List.length_eq_two.mp isTakenApart.turns.count
    obtain rfl := map_eq_of_forall₂ (areFine 0 front rfl)
    obtain rfl := map_eq_of_forall₂ (areFine 1 back rfl)
    exact ⟨after, ran, nothingLeft.2⟩
  · obtain ⟨made, after, ran, areFine, -⟩ := together (.handle .function 2)
      (fun pair => (.tuple [pair.1, pair.2] = ·)) rfl (by
        rw [same, List.forall_mem_singleton]
        exact spares_call (fun isLeft => known isLeft.1 rfl) (fun _ => rfl) rfl)
    obtain rfl := map_eq_of_forall₂ areFine
    exact ⟨after, ran⟩
  · refine apart (.list [.tuple [.int 5, .int 6]]) workbench (.handle .function 3)
      (.handle .function 4) unmoved_isEquipped ⟨rfl, _, rfl, by decide, rfl⟩ ?_ ?_ <;>
      rw [same, List.forall_mem_singleton] <;>
      exact spares_call (fun isLeft => known isLeft.1 rfl) (fun _ => rfl) rfl
  · exact (((session call (.list [.int 5]) (.tuple []) workbench IsEquipped).2
      [.int 5] [] rfl rfl).2 (by decide) (.handle .function 2)).2

end Presence.Sequence
