import Presence.Proofs.Session.Frames

/-!
Contract: what keeping the lists of a value does.

Owns: `IsKept`, values without lists that are still to be kept; that what is kept once need not be
kept again (`keep_keep`), nor what has no lists.

Does not own: reading lists back (`Presence.Proofs.Session.ReadingBack`).
-/

namespace Presence.Session

open Attempt Run

/-- Handles stay, and lists get handles. -/
def keepRule : ListRule (Attempt (StateM World)) :=
  ⟨fun number => pure (.handle .growing number), newList, pure⟩

/-- All lists of a value are kept. -/
def IsKept (v : Value) : Prop := rebuild keepRule v = pure v

def AllKept (items : List Value) : Prop := rebuildItems keepRule items = pure items

def AllEntriesKept (entries : List (Value × Value)) : Prop :=
  rebuildEntries keepRule entries = pure entries

/-! ## Values by their parts -/

section Parts

private theorem isKept_newList (items : List Value) : Quietly (newList items) IsKept := by
  intro world
  refine ⟨(keepsTo_newList items world).1, ?_⟩
  intro result made
  cases made
  rfl

/-- A value around one part is kept once the part is. -/
private theorem isKept_one (make : Value → Value) {v : Value}
    (opens : ∀ v, rebuild keepRule (make v) = do return make (← rebuild keepRule v))
    (part : Quietly (rebuild keepRule v) IsKept) : Quietly (rebuild keepRule (make v)) IsKept := by
  rw [opens]
  refine part.bind fun kept isKept => .pure ?_
  show rebuild keepRule (make kept) = _
  rw [opens, isKept, pure_bind]

private theorem isKept_two (make : Value → Value → Value) {v w : Value}
    (opens : ∀ v w, rebuild keepRule (make v w) =
      do return make (← rebuild keepRule v) (← rebuild keepRule w))
    (first : Quietly (rebuild keepRule v) IsKept) (second : Quietly (rebuild keepRule w) IsKept) :
    Quietly (rebuild keepRule (make v w)) IsKept := by
  rw [opens]
  refine first.bind fun kept isKept => second.bind fun kept' isKept' => .pure ?_
  show rebuild keepRule (make kept kept') = _
  rw [opens, isKept, isKept', pure_bind, pure_bind]

private theorem isKept_three (make : Value → Value → Value → Value) {v w u : Value}
    (opens : ∀ v w u, rebuild keepRule (make v w u) =
      do return make (← rebuild keepRule v) (← rebuild keepRule w) (← rebuild keepRule u))
    (first : Quietly (rebuild keepRule v) IsKept) (second : Quietly (rebuild keepRule w) IsKept)
    (third : Quietly (rebuild keepRule u) IsKept) :
    Quietly (rebuild keepRule (make v w u)) IsKept := by
  rw [opens]
  refine first.bind fun kept isKept => second.bind fun kept' isKept' =>
    third.bind fun kept'' isKept'' => .pure ?_
  show rebuild keepRule (make kept kept' kept'') = _
  rw [opens, isKept, isKept', isKept'', pure_bind, pure_bind, pure_bind]

/-- A value around items is kept once the items are. -/
private theorem isKept_items (make : List Value → Value) {items : List Value}
    (opens : ∀ items, rebuild keepRule (make items) =
      do return make (← rebuildItems keepRule items))
    (parts : Quietly (rebuildItems keepRule items) AllKept) :
    Quietly (rebuild keepRule (make items)) IsKept := by
  rw [opens]
  refine parts.bind fun kept areKept => .pure ?_
  show rebuild keepRule (make kept) = _
  rw [opens, areKept, pure_bind]

end Parts

/-! ## All values -/

mutual

/-- What is kept has all its lists kept. -/
theorem isKept_rebuild : (v : Value) → Quietly (rebuild keepRule v) IsKept
  | .scalar s => by
      cases s with
      | handle h =>
          obtain ⟨sort, number⟩ := h
          cases sort <;> exact .pure rfl
      | _ => exact .pure rfl
  | .list items => (allKept_rebuildItems items).bind fun kept _ => isKept_newList kept
  | .tuple items => isKept_items .tuple (fun _ => rfl) (allKept_rebuildItems items)
  | .set items => isKept_items .set (fun _ => rfl) (allKept_rebuildItems items)
  | .frozenSet items => isKept_items .frozenSet (fun _ => rfl) (allKept_rebuildItems items)
  | .dictionary entries => (allKept_rebuildEntries entries).bind fun kept areKept => .pure (by
      show (rebuildEntries keepRule kept >>= fun entries => pure (Value.dictionary entries)) = _
      rw [areKept, pure_bind])
  | .option (.ok v) => isKept_one (fun v => .option (.ok v)) (fun _ => rfl) (isKept_rebuild v)
  | .option (.notOk kind) =>
      isKept_one (fun kind => .option (.notOk kind)) (fun _ => rfl) (isKept_rebuild kind)
  | .either (.left v kind) =>
      isKept_two (fun v kind => .either (.left v kind)) (fun _ _ => rfl) (isKept_rebuild v)
        (isKept_rebuild kind)
  | .either (.right v kind) =>
      isKept_two (fun v kind => .either (.right v kind)) (fun _ _ => rfl) (isKept_rebuild v)
        (isKept_rebuild kind)
  | .pair ⟨v, w⟩ =>
      isKept_two (fun v w => .pair ⟨v, w⟩) (fun _ _ => rfl) (isKept_rebuild v) (isKept_rebuild w)
  | .sequence ⟨items⟩ =>
      isKept_one (fun items => .sequence ⟨items⟩) (fun _ => rfl) (isKept_rebuild items)
  | .managed ⟨holder, basic⟩ =>
      isKept_one (fun basic => .managed ⟨holder, basic⟩) (fun _ => rfl) (isKept_rebuild basic)
  | .guarded ⟨v⟩ => isKept_one (fun v => .guarded ⟨v⟩) (fun _ => rfl) (isKept_rebuild v)
  | .deferred ⟨f⟩ => isKept_one (fun f => .deferred ⟨f⟩) (fun _ => rfl) (isKept_rebuild f)
  | .ternary ⟨condition, v, none⟩ =>
      isKept_two (fun condition v => .ternary ⟨condition, v, none⟩) (fun _ _ => rfl)
        (isKept_rebuild condition) (isKept_rebuild v)
  | .ternary ⟨condition, v, some f⟩ =>
      isKept_three (fun condition v f => .ternary ⟨condition, v, some f⟩) (fun _ _ _ => rfl)
        (isKept_rebuild condition) (isKept_rebuild v) (isKept_rebuild f)
  | .parseError ⟨input, reason, fallback⟩ =>
      isKept_three (fun input reason fallback => .parseError ⟨input, reason, fallback⟩)
        (fun _ _ _ => rfl) (isKept_rebuild input) (isKept_rebuild reason) (isKept_rebuild fallback)
  | .thrown ⟨number, kind, arguments, none⟩ =>
      isKept_items (fun arguments => .thrown ⟨number, kind, arguments, none⟩) (fun _ => rfl)
        (allKept_rebuildItems arguments)
  | .thrown ⟨number, kind, arguments, some v⟩ =>
      (allKept_rebuildItems arguments).bind fun kept areKept =>
        (isKept_rebuild v).bind fun carried isKept => .pure (by
          show (rebuildItems keepRule kept >>= fun arguments =>
            rebuild keepRule carried >>= fun v =>
              pure (Value.thrown ⟨number, kind, arguments, some v⟩)) = _
          rw [areKept, isKept, pure_bind, pure_bind])
  | .client ⟨number, users, failing⟩ =>
      isKept_two (fun users failing => .client ⟨number, users, failing⟩) (fun _ _ => rfl)
        (isKept_rebuild users) (isKept_rebuild failing)

theorem allKept_rebuildItems : (items : List Value) →
    Quietly (rebuildItems keepRule items) AllKept
  | [] => .pure rfl
  | item :: rest =>
      (isKept_rebuild item).bind fun first isKept =>
        (allKept_rebuildItems rest).bind fun others areKept => .pure (by
          show (rebuild keepRule first >>= fun first =>
            rebuildItems keepRule others >>= fun others => pure (first :: others)) = _
          rw [isKept, areKept, pure_bind, pure_bind])

theorem allKept_rebuildEntries : (entries : List (Value × Value)) →
    Quietly (rebuildEntries keepRule entries) AllEntriesKept
  | [] => .pure rfl
  | (key, v) :: rest =>
      (isKept_rebuild key).bind fun first isKept =>
        (isKept_rebuild v).bind fun second isKept' =>
          (allKept_rebuildEntries rest).bind fun others areKept => .pure (by
            show (rebuild keepRule first >>= fun first => rebuild keepRule second >>= fun second =>
              rebuildEntries keepRule others >>= fun others =>
                pure ((first, second) :: others)) = _
            rw [isKept, isKept', areKept, pure_bind, pure_bind, pure_bind])

end

/-- Lists are kept once: keeping what is kept does nothing. -/
theorem keep_keep (v : Value) : (do keep (← keep v)) = keep v := by
  funext world
  show (keep v >>= keep).runFrom world = (keep v).runFrom world
  have kept : ∀ w, ((keep v).runFrom world).1 = .ok w → IsKept w := (isKept_rebuild v world).2
  rcases ended : (keep v).runFrom world with ⟨fault | w, after⟩
  · exact runFrom_bind_of_error _ ended
  · rw [ended] at kept
    have isKept : keep w = pure w := kept w rfl
    rw [runFrom_bind_of_ok _ ended, isKept, runFrom_pure]

end Presence.Session
