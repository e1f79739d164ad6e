import Presence.Fault

/-!
Contract: which calls of a function a computation makes, and in which order.

Owns: `runFrom`, the outcome of a computation with the state that it leaves, through sequences and
traversals; `Schedule`, the next call after the calls that have been answered; `Follows`, a
computation that makes its calls as a schedule says; `Reaches`, the calls that a function with a
state of its own answers one after the other; `recorded`, a function that keeps a record of its
calls.

Does not own: the schedules of what goes through items (`Presence.Proofs.Calls.Feed`).

A computation that follows a schedule is what it is whatever the function does. What it does with a
function that faults at some call can then be read off the schedule alone
(`run_of_follows_of_fault`).
-/

namespace Presence

namespace Attempt

variable {σ α β : Type}

/-- The outcome of a computation on a state, with the state that it leaves. -/
def runFrom (body : Attempt (StateM σ) α) (start : σ) : Except Fault α × σ := body.run.run start

@[simp] theorem runFrom_pure (result : α) (start : σ) :
    (pure result : Attempt (StateM σ) α).runFrom start = (.ok result, start) := rfl

/-- A computation goes on from the state in which its first part has ended; nothing goes on after
a fault. -/
theorem runFrom_bind (first : Attempt (StateM σ) α) (next : α → Attempt (StateM σ) β)
    (start : σ) :
    (first >>= next).runFrom start = match first.runFrom start with
      | (.ok result, middle) => (next result).runFrom middle
      | (.error fault, middle) => (.error fault, middle) := by
  unfold runFrom
  rw [ExceptT.run_bind, StateT.run_bind]
  generalize first.run.run start = ended
  obtain ⟨outcome, middle⟩ := ended
  cases outcome with
  | error fault => rfl
  | ok result => rfl

theorem runFrom_bind_of_ok {first : Attempt (StateM σ) α} (next : α → Attempt (StateM σ) β)
    {start middle : σ} {result : α} (ended : first.runFrom start = (.ok result, middle)) :
    (first >>= next).runFrom start = (next result).runFrom middle := by
  rw [runFrom_bind, ended]

theorem runFrom_bind_of_error {first : Attempt (StateM σ) α} (next : α → Attempt (StateM σ) β)
    {start middle : σ} {fault : Fault} (ended : first.runFrom start = (.error fault, middle)) :
    (first >>= next).runFrom start = (.error fault, middle) := by
  rw [runFrom_bind, ended]

theorem runFrom_return {body : Attempt (StateM σ) α} {start after : σ} {outcome : Except Fault α}
    (ended : body.runFrom start = (outcome, after)) (g : α → β) :
    (do return g (← body)).runFrom start = (outcome.map g, after) := by
  rw [runFrom_bind, ended]
  cases outcome <;> rfl

/-- A computation that has returned has done so in its first part and then in what came after it. -/
theorem exists_of_runFrom_bind {first : Attempt (StateM σ) α} {next : α → Attempt (StateM σ) β}
    {start after : σ} {result : β}
    (returns : (first >>= next).runFrom start = (.ok result, after)) :
    ∃ given middle, first.runFrom start = (.ok given, middle) ∧
      (next given).runFrom middle = (.ok result, after) := by
  rcases ended : first.runFrom start with ⟨fault | given, middle⟩
  · rw [runFrom_bind_of_error _ ended] at returns
    cases returns
  · rw [runFrom_bind_of_ok _ ended] at returns
    exact ⟨given, middle, rfl, returns⟩

/-- A computation that has failed has done so in its first part or in what came after it. -/
theorem fails_of_runFrom_bind {first : Attempt (StateM σ) α} {next : α → Attempt (StateM σ) β}
    {start after : σ} {fault : Fault}
    (fails : (first >>= next).runFrom start = (.error fault, after)) :
    first.runFrom start = (.error fault, after) ∨ ∃ given middle,
      first.runFrom start = (.ok given, middle) ∧
        (next given).runFrom middle = (.error fault, after) := by
  rcases ended : first.runFrom start with ⟨raised | given, middle⟩
  · rw [runFrom_bind_of_error _ ended] at fails
    cases fails
    exact .inl rfl
  · rw [runFrom_bind_of_ok _ ended] at fails
    exact .inr ⟨given, middle, rfl, fails⟩

/-- A function that leaves the state as it is does so for all items. -/
theorem runFrom_mapM (start : σ) {f : α → Attempt (StateM σ) β} {g : α → β}
    (each : ∀ item, (f item).runFrom start = (.ok (g item), start)) (items : List α) :
    (items.mapM f).runFrom start = (.ok (items.map g), start) := by
  induction items with
  | nil => rfl
  | cons item rest inductionHypothesis =>
      rw [List.mapM_cons, runFrom_bind_of_ok _ (each item),
        runFrom_bind_of_ok _ inductionHypothesis]
      rfl

/-- A function that has returned for all items has done so for the first and then for the others. -/
theorem exists_of_mapM_cons {f : α → Attempt (StateM σ) β} {item : α} {rest : List α}
    {results : List β} {start after : σ}
    (returns : ((item :: rest).mapM f).runFrom start = (.ok results, after)) :
    ∃ first others middle, (f item).runFrom start = (.ok first, middle) ∧
      (rest.mapM f).runFrom middle = (.ok others, after) ∧ results = first :: others := by
  rw [List.mapM_cons] at returns
  obtain ⟨first, middle, called, returns⟩ := exists_of_runFrom_bind returns
  obtain ⟨others, last, later, returns⟩ := exists_of_runFrom_bind returns
  cases returns
  exact ⟨first, others, middle, called, later, rfl⟩

theorem length_of_mapM {f : α → Attempt (StateM σ) β} {items : List α} {results : List β}
    {start after : σ} (returns : (items.mapM f).runFrom start = (.ok results, after)) :
    results.length = items.length := by
  induction items generalizing results start after with
  | nil =>
      cases returns
      rfl
  | cons item rest inductionHypothesis =>
      obtain ⟨first, others, middle, -, later, rfl⟩ := exists_of_mapM_cons returns
      rw [List.length_cons, List.length_cons, inductionHypothesis later]

/-- A function that has failed for some items has failed for one of them. -/
theorem fails_of_mapM {f : α → Attempt (StateM σ) β} {items : List α} {start after : σ}
    {fault : Fault} (fails : (items.mapM f).runFrom start = (.error fault, after)) :
    ∃ item ∈ items, ∃ asked, (f item).runFrom asked = (.error fault, after) := by
  induction items generalizing start with
  | nil => cases fails
  | cons item rest inductionHypothesis =>
      rw [List.mapM_cons] at fails
      rcases fails_of_runFrom_bind fails with called | ⟨_, middle, -, fails⟩
      · exact ⟨item, List.mem_cons_self, start, called⟩
      · rcases fails_of_runFrom_bind fails with later | ⟨_, _, -, fails⟩
        · obtain ⟨other, isOther, failed⟩ := inductionHypothesis later
          exact ⟨other, List.mem_cons_of_mem _ isOther, failed⟩
        · cases fails

end Attempt

namespace Calls

variable {m : Type → Type} [Monad m] {σ α β γ δ : Type}

/-! ## Schedules -/

/-- Which call is made after the calls that have been answered, the first one first; none once the
function is not called any more. -/
abbrev Schedule (m : Type → Type) (α β : Type) : Type := List (α × β) → Attempt m (Option α)

/-- A computation makes its calls of a function as a schedule says, and each of them once: what is
`left` of it after some answered calls asks the schedule for the next call, and goes on with what is
left after that call. -/
def Follows (schedule : Schedule m α β) (f : α → Attempt m β) (whole : Attempt m γ) : Prop :=
  ∃ left : List (α × β) → Attempt m γ → Prop,
    left [] whole ∧
    ∀ calls rest, left calls rest →
      ∃ (finish : Attempt m γ) (next : α → β → Attempt m γ),
        rest = (do
          match ← schedule calls with
          | none => finish
          | some argument => next argument (← f argument)) ∧
        ∀ argument answer, left (calls ++ [(argument, answer)]) (next argument answer)

/-- What is done with the result in the end makes no difference to the calls before. -/
theorem Follows.bind [LawfulMonad m] {schedule : Schedule m α β} {f : α → Attempt m β}
    {whole : Attempt m γ} (follows : Follows schedule f whole) (after : γ → Attempt m δ) :
    Follows schedule f (whole >>= after) := by
  obtain ⟨left, start, step⟩ := follows
  refine ⟨fun calls rest => ∃ before, left calls before ∧ rest = before >>= after,
    ⟨whole, start, rfl⟩, ?_⟩
  rintro calls rest ⟨before, isLeft, rfl⟩
  obtain ⟨finish, next, asks, goesOn⟩ := step calls before isLeft
  refine ⟨finish >>= after, fun argument answer => next argument answer >>= after, ?_, ?_⟩
  · rw [asks, bind_assoc]
    apply bind_congr
    intro call
    cases call with
    | none => rfl
    | some argument => exact bind_assoc _ _ _
  · intro argument answer
    exact ⟨next argument answer, goesOn argument answer, rfl⟩

/-! ## Calls that have been answered -/

/-- From a state on, a function answers the calls of a schedule one after the other: which calls
they are, and the state after the last answer. -/
inductive Reaches (schedule : Schedule (StateM σ) α β) (f : α → Attempt (StateM σ) β)
    (start : σ) : List (α × β) → σ → Prop where
  | begins : Reaches schedule f start [] start
  | answers {calls : List (α × β)} {before asked after : σ} {argument : α} {answer : β}
      (reached : Reaches schedule f start calls before)
      (asks : (schedule calls).runFrom before = (.ok (some argument), asked))
      (gives : (f argument).runFrom asked = (.ok answer, after)) :
      Reaches schedule f start (calls ++ [(argument, answer)]) after

/-- After the first calls have been answered, the rest of the computation is all that is left to be
done, in the state after the last answer. -/
private theorem run_of_follows {schedule : Schedule (StateM σ) α β} {f : α → Attempt (StateM σ) β}
    {whole : Attempt (StateM σ) γ} {left : List (α × β) → Attempt (StateM σ) γ → Prop}
    (begins : left [] whole)
    (step : ∀ calls rest, left calls rest →
      ∃ (finish : Attempt (StateM σ) γ) (next : α → β → Attempt (StateM σ) γ),
        rest = (do
          match ← schedule calls with
          | none => finish
          | some argument => next argument (← f argument)) ∧
        ∀ argument answer, left (calls ++ [(argument, answer)]) (next argument answer))
    {start reached : σ} {calls : List (α × β)} (reaches : Reaches schedule f start calls reached) :
    ∃ rest, left calls rest ∧ whole.runFrom start = rest.runFrom reached := by
  induction reaches with
  | begins => exact ⟨whole, begins, rfl⟩
  | @answers calls before asked after argument answer _ asks gives inductionHypothesis =>
      obtain ⟨rest, isLeft, same⟩ := inductionHypothesis
      obtain ⟨finish, next, opens, goesOn⟩ := step calls rest isLeft
      refine ⟨next argument answer, goesOn argument answer, ?_⟩
      rw [same, opens, Attempt.runFrom_bind_of_ok _ asks]
      exact Attempt.runFrom_bind_of_ok _ gives

/-- A fault at the next call is what the computation ends in, and nothing is called after it. -/
theorem run_of_follows_of_fault {schedule : Schedule (StateM σ) α β}
    {f : α → Attempt (StateM σ) β} {whole : Attempt (StateM σ) γ}
    (follows : Follows schedule f whole) {start reached asked after : σ} {calls : List (α × β)}
    {argument : α} {fault : Fault} (reaches : Reaches schedule f start calls reached)
    (asks : (schedule calls).runFrom reached = (.ok (some argument), asked))
    (fails : (f argument).runFrom asked = (.error fault, after)) :
    whole.runFrom start = (.error fault, after) := by
  obtain ⟨left, begins, step⟩ := follows
  obtain ⟨rest, isLeft, same⟩ := run_of_follows begins step reaches
  obtain ⟨finish, next, opens, _⟩ := step calls rest isLeft
  rw [same, opens, Attempt.runFrom_bind_of_ok _ asks]
  exact Attempt.runFrom_bind_of_error _ fails

/-! ## Records of calls -/

/-- A call of a function, with what came of it. -/
structure Entry (α β : Type) where
  argument : α
  outcome : Except Fault β

/-- The entry of a call that was answered. -/
def Entry.answered (call : α × β) : Entry α β := ⟨call.1, .ok call.2⟩

/-- A state, with a record of all calls of a function, the first one first. -/
structure Record (σ α β : Type) where
  outside : σ
  calls : List (Entry α β)

/-- A function that puts each of its calls on record, whatever comes of it. -/
def recorded (f : α → Attempt (StateM σ) β) (argument : α) :
    Attempt (StateM (Record σ α β)) β :=
  ExceptT.mk fun record =>
    let (outcome, outside) := (f argument).runFrom record.outside
    (outcome, ⟨outside, record.calls ++ [⟨argument, outcome⟩]⟩)

/-- A computation that leaves the record as it is. -/
def aside (body : Attempt (StateM σ) γ) : Attempt (StateM (Record σ α β)) γ :=
  ExceptT.mk fun record =>
    let (outcome, outside) := body.runFrom record.outside
    (outcome, { record with outside := outside })

theorem runFrom_recorded {f : α → Attempt (StateM σ) β} {argument : α} {before after : σ}
    {outcome : Except Fault β} (ended : (f argument).runFrom before = (outcome, after))
    (calls : List (Entry α β)) :
    (recorded f argument).runFrom ⟨before, calls⟩ =
      (outcome, ⟨after, calls ++ [⟨argument, outcome⟩]⟩) := by
  show (((f argument).runFrom before).1, (⟨((f argument).runFrom before).2,
    calls ++ [⟨argument, ((f argument).runFrom before).1⟩]⟩ : Record σ α β)) = _
  rw [ended]

theorem runFrom_aside {body : Attempt (StateM σ) γ} {before after : σ} {outcome : Except Fault γ}
    (ended : body.runFrom before = (outcome, after)) (calls : List (Entry α β)) :
    (aside body).runFrom ⟨before, calls⟩ = (outcome, ⟨after, calls⟩) := by
  show ((body.runFrom before).1, (⟨(body.runFrom before).2, calls⟩ : Record σ α β)) = _
  rw [ended]

/-- What leaves the record as it is can be taken apart. -/
theorem aside_bind (first : Attempt (StateM σ) γ) (next : γ → Attempt (StateM σ) δ) :
    (aside (first >>= next) : Attempt (StateM (Record σ α β)) δ) =
      (do aside (next (← aside first))) := by
  funext record
  show (aside (first >>= next)).runFrom record = (aside first >>= _).runFrom record
  obtain ⟨outside, calls⟩ := record
  rcases ended : first.runFrom outside with ⟨fault | result, middle⟩
  · rw [runFrom_aside (Attempt.runFrom_bind_of_error next ended),
      Attempt.runFrom_bind_of_error _ (runFrom_aside ended calls)]
  · have whole := Attempt.runFrom_bind_of_ok next ended
    rcases finished : (next result).runFrom middle with ⟨outcome, after⟩
    rw [finished] at whole
    rw [runFrom_aside whole, Attempt.runFrom_bind_of_ok _ (runFrom_aside ended calls),
      runFrom_aside finished]

/-- A function that returns for all items is put on record once for each of them. -/
theorem runFrom_recorded_mapM {f : α → Attempt (StateM σ) β} {items : List α} {results : List β}
    {start after : σ} (returns : (items.mapM f).runFrom start = (.ok results, after))
    (record : List (Entry α β)) :
    (items.mapM (recorded f)).runFrom ⟨start, record⟩ =
      (.ok results,
        ⟨after, record ++ List.zipWith (fun item result => ⟨item, .ok result⟩) items results⟩) := by
  induction items generalizing results start after record with
  | nil =>
      cases returns
      rw [List.zipWith_nil_left, List.append_nil]
      rfl
  | cons item rest inductionHypothesis =>
      obtain ⟨first, others, middle, called, later, rfl⟩ := Attempt.exists_of_mapM_cons returns
      rw [List.mapM_cons, Attempt.runFrom_bind_of_ok _ (runFrom_recorded called record),
        Attempt.runFrom_bind_of_ok _ (inductionHypothesis later _), List.append_assoc]
      rfl

/-- The record of calls that are answered one after the other holds exactly these calls. -/
theorem Reaches.recorded {schedule : Schedule (StateM σ) α β} {f : α → Attempt (StateM σ) β}
    {start reached : σ} {calls : List (α × β)} (reaches : Reaches schedule f start calls reached) :
    Reaches (fun calls => aside (schedule calls)) (recorded f) ⟨start, []⟩ calls
      ⟨reached, calls.map Entry.answered⟩ := by
  induction reaches with
  | begins => exact .begins
  | @answers calls before asked after argument answer _ asks gives inductionHypothesis =>
      rw [List.map_append]
      exact .answers inductionHypothesis (runFrom_aside asks _) (runFrom_recorded gives _)

end Calls

end Presence
