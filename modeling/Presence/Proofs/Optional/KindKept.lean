import Presence.Proofs.Optional.Pipeline
import Presence.Proofs.Session.Steps

/-!
Contract: the zero that is left where stages that stay within one kind leave no payload.

Owns: `Stage.StaysWithin`, a stage whose function returns and makes nothing of another kind;
`composed`, the payload that the functions of the stages make one after the other; that an option of
a kind, whether it has a payload or not, ends such stages as an option of that kind
(`runFrom_staysWithin`), so that a value of the kind is read off it in every case (`kind_kept`).

Does not own: what a single stage does (`Presence.Optional`), which kinds have a zero
(`Presence.Zero`), and which calls the stages make (`Presence.Proofs.Optional.Pipeline`).

An option has its kind in two ways, by its payload or by what its absence came with. The kind is
handed over from the one to the other at the stage that drops the payload. The functions need to
return only in states of which something holds that they leave so.
-/

namespace Presence.Optional

open Attempt Calls Session

variable {σ : Type} {kind : Kind} {holds : σ → Prop}

/-! ## Options of a kind -/

theorem kind_eq_iff (o : Optional Value Value) :
    o.kind = .ofKind kind ↔ (∃ v, o = .ok v ∧ v.kindOf = kind) ∨ o = .notOk (.ofKind kind) := by
  cases o with
  | ok v => simp [Optional.kind]
  | notOk left => simp [Optional.kind]

/-- What is read off an option of a kind that has a zero: its payload, or else that zero. -/
theorem get_of_kind {zero : Value} (hasZero : zeroOf? kind = some zero) {o : Optional Value Value}
    (ofKind : o.kind = .ofKind kind) :
    o.get = .ok (o.orElse zero, o.isOk) ∧ o.orZero = .ok (o.orElse zero) ∧
      (o.orElse zero).kindOf = kind := by
  rcases (kind_eq_iff o).mp ofKind with ⟨v, rfl, isOf⟩ | rfl
  · exact ⟨rfl, rfl, isOf⟩
  · have isZero : zeroOf (.ofKind kind) = .ok zero := by
      show Except.ok ((zeroOf? kind).getD .null) = _
      rw [hasZero]
      rfl
    have got : (Optional.notOk (.ofKind kind) : Optional Value Value).get = .ok (zero, false) := by
      rw [Optional.get, isZero]
      rfl
    refine ⟨got, ?_, ?_⟩
    · rw [Optional.orZero, got]
      rfl
    · show zero.kindOf = kind
      cases kind <;> cases hasZero <;> rfl

/-! ## Stages that stay within a kind -/

/-- A function that returns on all payloads of a kind, with a payload of the same kind, as long as
something holds of the state; it leaves that so. -/
def Converts (holds : σ → Prop) (kind : Kind) (f : Value → Attempt (StateM σ) Value) : Prop :=
  ∀ x start, holds start → x.kindOf = kind →
    ∃ answer after, (f x).runFrom start = (.ok answer, after) ∧ answer.kindOf = kind ∧ holds after

/-- A function that returns on all payloads of a kind, with what is read as true or false, as long
as something holds of the state; it leaves that so. -/
def Tests (holds : σ → Prop) (kind : Kind) (read : Reading (StateM σ))
    (p : Value → Attempt (StateM σ) Value) : Prop :=
  ∀ x start, holds start → x.kindOf = kind →
    ∃ answer asked, (p x).runFrom start = (.ok answer, asked) ∧
      ∃ passes after, (read.truth answer).runFrom asked = (.ok passes, after) ∧ holds after

/-- A stage that makes nothing of another kind. -/
inductive Stage.StaysWithin (holds : σ → Prop) (kind : Kind) (read : Reading (StateM σ)) :
    Stage (StateM σ) → Prop where
  | convert {f : Value → Attempt (StateM σ) Value} (converts : Converts holds kind f) :
      StaysWithin holds kind read ⟨.convert, f⟩
  | keepOkIf {p : Value → Attempt (StateM σ) Value} (tests : Tests holds kind read p) :
      StaysWithin holds kind read ⟨.keepOkIf, p⟩
  | toNotOkIf {p : Value → Attempt (StateM σ) Value} (tests : Tests holds kind read p) :
      StaysWithin holds kind read ⟨.toNotOkIf, p⟩

variable {read : Reading (StateM σ)}

/-- Where a payload is dropped its kind is left, and an absence is left as it is. -/
private theorem Stage.StaysWithin.runFrom_run {stage : Stage (StateM σ)}
    (stays : stage.StaysWithin holds kind read) {o : Optional Value Value}
    (ofKind : o.kind = .ofKind kind) {start : σ} (isSo : holds start) :
    ∃ result after, (stage.run read o).runFrom start = (.ok result, after) ∧
      result.kind = .ofKind kind ∧ holds after := by
  rcases (kind_eq_iff o).mp ofKind with ⟨x, rfl, isOf⟩ | rfl
  · cases stays with
    | convert converts =>
        obtain ⟨answer, after, gives, same, still⟩ := converts x start isSo isOf
        exact ⟨.ok answer, after, runFrom_bind_of_ok _ gives, congrArg Value.ofKind same, still⟩
    | keepOkIf tests | toNotOkIf tests =>
        obtain ⟨answer, asked, gives, passes, after, isRead, still⟩ := tests x start isSo isOf
        rw [run_ok, runFrom_bind_of_ok _ gives]
        refine ⟨_, after, runFrom_bind_of_ok _ isRead, ?_, still⟩
        cases passes <;> exact ofKind
  · cases stays <;> exact ⟨_, start, rfl, rfl, isSo⟩

/-- Stages that stay within a kind return, with an option of that kind. -/
theorem runFrom_staysWithin {stages : List (Stage (StateM σ))}
    (stay : ∀ stage ∈ stages, stage.StaysWithin holds kind read) {o : Optional Value Value}
    (ofKind : o.kind = .ofKind kind) (start : σ) (isSo : holds start) :
    ∃ result after, (pipeline read stages o).runFrom start = (.ok result, after) ∧
      result.kind = .ofKind kind ∧ holds after := by
  induction stages generalizing o start with
  | nil => exact ⟨o, start, rfl, ofKind, isSo⟩
  | cons stage stages inductionHypothesis =>
      rw [List.forall_mem_cons] at stay
      obtain ⟨middle, between, ran, isOf, still⟩ := stay.1.runFrom_run ofKind isSo
      rw [pipeline_cons, runFrom_bind_of_ok _ ran]
      exact inductionHypothesis stay.2 isOf between still

/-! ## Calls on record -/

/-- Putting the calls of a stage on record takes it out of no kind. -/
theorem Stage.StaysWithin.recorded {f : Nat × Value → Attempt (StateM σ) Value} {place : Nat}
    {sort : StageSort} (stays : Stage.StaysWithin holds kind read ⟨sort, fun x => f (place, x)⟩) :
    Stage.StaysWithin (fun record => holds record.outside) kind read.beside
      ⟨sort, fun x => Calls.recorded f (place, x)⟩ := by
  have tested (tests : Tests holds kind read fun x => f (place, x)) :
      Tests (fun record => holds record.outside) kind read.beside
        fun x => Calls.recorded f (place, x) := by
    intro x start isSo ofKind
    obtain ⟨answer, asked, gives, passes, after, isRead, still⟩ :=
      tests x start.outside isSo ofKind
    exact ⟨answer, _, runFrom_recorded gives start.calls, passes, _, runFrom_aside isRead _, still⟩
  cases stays with
  | convert converts =>
      refine .convert fun x start isSo ofKind => ?_
      obtain ⟨answer, after, gives, same, still⟩ := converts x start.outside isSo ofKind
      exact ⟨answer, _, runFrom_recorded gives start.calls, same, still⟩
  | keepOkIf tests => exact .keepOkIf (tested tests)
  | toNotOkIf tests => exact .toNotOkIf (tested tests)

private theorem mem_stagesFrom {f : Nat × Value → Attempt (StateM σ) Value} {sorts : List StageSort}
    {stage : Stage (StateM σ)} {place : Nat} (member : stage ∈ stagesFrom f place sorts) :
    ∃ later sort, sorts[later]? = some sort ∧ stage = ⟨sort, fun x => f (place + later, x)⟩ := by
  induction sorts generalizing place with
  | nil => cases member
  | cons sort sorts inductionHypothesis =>
      rcases List.mem_cons.mp member with rfl | isLater
      · exact ⟨0, sort, rfl, rfl⟩
      · obtain ⟨later, other, isThere, rfl⟩ := inductionHypothesis isLater
        exact ⟨later + 1, other, isThere, by rw [Nat.add_right_comm, Nat.add_assoc]⟩

/-! ## Payloads that are passed on -/

/-- The payload after a stage that passes one on: the answer of its function, or the one it had if
the function is a test. -/
def StageSort.payloadAfter (sort : StageSort) (x answer : Value) : Value :=
  match sort with
  | .keepOkIf | .toNotOkIf => x
  | .map _ | .convert | .flatMap => answer

/-- The payload that stages pass on, by the answers of their functions. -/
def composed (x : Value) (sorts : List StageSort) (answers : List Value) : Value :=
  (sorts.zip answers).foldl (fun x stage => stage.1.payloadAfter x stage.2) x

private theorem payloadAfter_of_verdict {sort : StageSort} (noOption : sort ≠ .flatMap)
    {x answer y : Value} {asked judged : σ}
    (keeps : (sort.verdict read x answer).runFrom asked = (.ok (.ok y), judged)) :
    y = sort.payloadAfter x answer := by
  cases sort with
  | map | convert =>
      cases keeps
      rfl
  | flatMap => exact absurd rfl noOption
  | keepOkIf | toNotOkIf =>
      obtain ⟨passes, after, -, judgedSo⟩ := exists_of_runFrom_bind keeps
      cases passes <;> cases judgedSo
      rfl

/-- A payload that has passed all stages is the one that their functions have made. -/
theorem Unfolds.payload_eq {f : Nat × Value → Attempt (StateM σ) Value} {place : Nat}
    {sorts : List StageSort} {x y : Value} {before after : σ}
    {calls : List (Entry (Nat × Value) Value)}
    (unfolds : Unfolds read f place sorts x before calls (.ok (.ok y)) after)
    (noOptions : ∀ sort ∈ sorts, sort ≠ .flatMap) :
    ∃ answers, calls.map Entry.outcome = answers.map .ok ∧ answers.length = sorts.length ∧
      y = composed x sorts answers := by
  generalize isOutcome : Except.ok (Optional.ok y) = outcome at unfolds
  induction unfolds with
  | ends =>
      cases isOutcome
      exact ⟨[], rfl, rfl, rfl⟩
  | @passes _ sort sorts x answer _ _ _ _ _ _ _ _ keeps _ inductionHypothesis =>
      rw [List.forall_mem_cons] at noOptions
      obtain ⟨answers, given, count, rfl⟩ := inductionHypothesis noOptions.2 isOutcome
      refine ⟨answer :: answers, by rw [List.map_cons, given]; rfl, congrArg (· + 1) count, ?_⟩
      rw [payloadAfter_of_verdict noOptions.1 keeps]
      rfl
  | rejects | raises | unread => cases isOutcome

/-! ## Tests and their opposites -/

/-- A payload that one of the two stages keeps is dropped by the other, if the test has the same
answer both times. -/
theorem keepOkIf_or_toNotOkIf (v : Value) {p : Value → Attempt (StateM σ) Bool} {passes : Bool}
    {first second after after' : σ} (here : (p v).runFrom first = (.ok passes, after))
    (there : (p v).runFrom second = (.ok passes, after')) :
    ∃ kept dropped, ((Optional.ok v).keepOkIf p).runFrom first = (.ok kept, after) ∧
      ((Optional.ok v).toNotOkIf p).runFrom second = (.ok dropped, after') ∧
      (kept.isOk = true ↔ dropped.isOk = false) := by
  refine ⟨_, _, runFrom_bind_of_ok _ here, runFrom_bind_of_ok _ there, ?_⟩
  cases passes <;> simp [isOk]

/-! ## All chains of stages -/

/-- What a session reads off the option that its stages end with, under any of the names for it. -/
theorem runFrom_performOption_of_kind {zero : Value} (hasZero : zeroOf? kind = some zero)
    (call : Caller) {body : Run Value} {world after : World} {result : Optional Value Value}
    (ended : (body >>= optionOf).runFrom world = (.ok result, after))
    (ofKind : result.kind = .ofKind kind) :
    (do performOption call .get [← body]).runFrom world =
        (.ok (.tuple [result.orElse zero, .bool result.isOk]), after) ∧
      (do performOption call .orZero [← body]).runFrom world =
        (.ok (result.orElse zero), after) := by
  obtain ⟨got, given, -⟩ := get_of_kind hasZero ofKind
  have reads {α : Type} (next : Optional Value Value → Run α) :
      (body >>= fun v => optionOf v >>= next).runFrom world = (next result).runFrom after := by
    rw [← bind_assoc, runFrom_bind_of_ok _ ended]
  constructor
  · refine (reads fun o => withFlag o.get).trans ?_
    rw [got]
    rfl
  · refine (reads fun o => Attempt.ofHash o.orZero).trans ?_
    rw [given]
    rfl

/-- An option of a kind that has a zero goes through stages whose functions make nothing of another
kind, and return as long as something holds of the state that they leave so. What is read off it in
the end, with or without the flag, is a value of that kind: the payload that the functions have made
one after the other if every stage has passed it on, and the zero of the kind if not. On any payload
a stage that keeps what passes and one that drops it disagree. A session reads the same off the
option that its stages end with, under each of the names that it has for that. -/
theorem kind_kept {zero : Value} (hasZero : zeroOf? kind = some zero) (read : Reading (StateM σ))
    (f : Nat × Value → Attempt (StateM σ) Value) {sorts : List StageSort}
    (stay : ∀ place sort, sorts[place]? = some sort →
      Stage.StaysWithin holds kind read ⟨sort, fun x => f (place, x)⟩)
    {o : Optional Value Value} (ofKind : o.kind = .ofKind kind) (start : σ) (isSo : holds start) :
    (∃ calls result after,
      (pipeline read.beside (stagesFrom (Calls.recorded f) 0 sorts) o).runFrom ⟨start, []⟩ =
          (.ok result, ⟨after, calls⟩) ∧
        result.get = .ok (result.orElse zero, result.isOk) ∧
        result.orZero = .ok (result.orElse zero) ∧
        (result.orElse zero).kindOf = kind ∧
        match o with
        | .ok x => Unfolds read f 0 sorts x start calls (.ok result) after ∧
            ∀ y, result = .ok y → ∃ answers, calls.map Entry.outcome = answers.map .ok ∧
              answers.length = sorts.length ∧ y = composed x sorts answers
        | .notOk _ => calls = [] ∧ result = o) ∧
    (∀ (v : Value) (p : Value → Attempt (StateM σ) Bool) (passes : Bool)
      (first second after after' : σ), (p v).runFrom first = (.ok passes, after) →
        (p v).runFrom second = (.ok passes, after') →
      ∃ kept dropped, ((Optional.ok v).keepOkIf p).runFrom first = (.ok kept, after) ∧
        ((Optional.ok v).toNotOkIf p).runFrom second = (.ok dropped, after') ∧
        (kept.isOk = true ↔ dropped.isOk = false)) ∧
    ∀ (call : Caller) (stages : List (StageSort × Value)) (equipped : World → Prop),
      (∀ stage ∈ stages,
        Stage.StaysWithin equipped kind inSession ⟨stage.1, fun x => call stage.2 [x]⟩) →
      ∀ world, equipped world → ∃ result after,
        (performAll call stages (.option o) >>= optionOf).runFrom world = (.ok result, after) ∧
        (do performOption call .get [← performAll call stages (.option o)]).runFrom world =
          (.ok (.tuple [result.orElse zero, .bool result.isOk]), after) ∧
        (result.orElse zero).kindOf = kind ∧
        ∀ name ∈ ["option.or_zero", "option.or_empty", "option.or_false"], ∃ operation,
          OptionOperation.table.lookup name = some operation ∧
          (do performOption call operation [← performAll call stages (.option o)]).runFrom world =
            (.ok (result.orElse zero), after) := by
  refine ⟨?_, fun v p passes first second after after' here there =>
    keepOkIf_or_toNotOkIf v here there, ?_⟩
  · have stayRecorded : ∀ stage ∈ stagesFrom (Calls.recorded f) 0 sorts,
        stage.StaysWithin (fun record => holds record.outside) kind read.beside := by
      intro stage member
      obtain ⟨place, sort, isThere, rfl⟩ := mem_stagesFrom member
      rw [Nat.zero_add]
      exact (stay place sort isThere).recorded
    obtain ⟨result, ⟨after, calls⟩, ended, isOf, -⟩ :=
      runFrom_staysWithin stayRecorded ofKind ⟨start, []⟩ isSo
    obtain ⟨got, given, same⟩ := get_of_kind hasZero isOf
    refine ⟨calls, result, after, ended, got, given, same, ?_⟩
    cases o with
    | notOk left =>
        obtain ⟨other, stops⟩ := pipeline_notOk read.beside
          (stagesFrom (Calls.recorded f) 0 sorts) left
        rw [stops, runFrom_pure] at ended
        cases ended
        exact ⟨rfl, congrArg Optional.notOk (isOf.trans ofKind.symm)⟩
    | ok x =>
        obtain ⟨calls', outcome, after', ran, unfolds⟩ := runFrom_pipeline read f sorts 0 x start []
        rw [ended, List.nil_append] at ran
        cases ran
        refine ⟨unfolds, ?_⟩
        rintro y rfl
        have noOptions : ∀ sort ∈ sorts, sort ≠ .flatMap := by
          rintro _ member rfl
          obtain ⟨place, isThere⟩ := List.mem_iff_getElem?.mp member
          cases stay place _ isThere
        exact unfolds.payload_eq noOptions
  · intro call stages equipped stays world isEquipped
    have within : ∀ stage ∈ stages.map fun stage => (⟨stage.1, fun x => call stage.2 [x]⟩ :
        Stage (StateM World)), stage.StaysWithin equipped kind inSession := by
      intro stage member
      obtain ⟨given, isGiven, rfl⟩ := List.mem_map.mp member
      exact stays given isGiven
    obtain ⟨result, after, ended, isOf, -⟩ := runFrom_staysWithin within ofKind world isEquipped
    have performed : (performAll call stages (.option o) >>= optionOf).runFrom world =
        (.ok result, after) := by
      rw [performAll_eq_pipeline, optionOf_option, pure_bind]
      exact ended
    obtain ⟨got, given⟩ := runFrom_performOption_of_kind hasZero call performed isOf
    refine ⟨result, after, performed, got, (get_of_kind hasZero isOf).2.2, ?_⟩
    intro name member
    refine ⟨.orZero, ?_, given⟩
    simp only [List.mem_cons, List.not_mem_nil, or_false] at member
    rcases member with rfl | rfl | rfl <;> rfl

theorem eq_int_of_kindOf {v : Value} (ofKind : v.kindOf = .int) : ∃ n, v = .int n := by
  cases v with
  | scalar s =>
      cases s with
      | int n => exact ⟨n, rfl⟩
      | handle h =>
          obtain ⟨sort, number⟩ := h
          cases sort <;> cases ofKind
      | _ => cases ofKind
  | managed d =>
      obtain ⟨holder, basic⟩ := d
      cases holder <;> cases ofKind
  | option o => cases o <;> cases ofKind
  | either e => cases e <;> cases ofKind
  | _ => cases ofKind

/-- A world with a function that negates and one that tells whether a number is above nought. -/
def signs : World :=
  { World.start ⟨[]⟩ ⟨2024, 2, 29, 1, 2, 3, 0⟩ with
    store := { Store.empty with
      functions := #[.given (.unary .neg),
        .given (.binary (.order .greater) (some (.scalar (.int 0))))] } }

/-- The functions are those for signs. -/
def KnowsSigns (world : World) : Prop := world.store.functions = signs.store.functions

/-- Calls the function with a number. -/
def numbered (asked : Nat × Value) : Run Value :=
  Session.call (.handle .function asked.1) [asked.2]

private theorem converts_opposite : Converts KnowsSigns .int fun x => numbered (0, x) := by
  intro x world knows ofKind
  obtain ⟨n, rfl⟩ := eq_int_of_kindOf ofKind
  have known : world.store.functions[0]? = some (.given (.unary .neg)) := by
    rw [show world.store.functions = _ from knows]
    rfl
  exact ⟨.int (-n), world, runFrom_callTo known [.int n], rfl, knows⟩

private theorem tests_above : Tests KnowsSigns .int inSession fun x => numbered (1, x) := by
  intro x world knows ofKind
  obtain ⟨n, rfl⟩ := eq_int_of_kindOf ofKind
  have known : world.store.functions[1]? =
      some (.given (.binary (.order .greater) (some (.scalar (.int 0))))) := by
    rw [show world.store.functions = _ from knows]
    rfl
  exact ⟨_, world, runFrom_callTo known [.int n], _, world, rfl, knows⟩

/-- A number whose opposite is dropped leaves the number nought behind. -/
theorem kind_kept_opposite :
    zeroOf? .int = some (.int 0) ∧
    (Optional.ok (.int 5) : Optional Value Value).kind = .ofKind .int ∧
    Converts KnowsSigns .int (fun x => numbered (0, x)) ∧
    Tests KnowsSigns .int inSession (fun x => numbered (1, x)) ∧
    KnowsSigns signs ∧
    (∃ calls after, (pipeline inSession.beside (stagesFrom (Calls.recorded numbered) 0
        [.convert, .keepOkIf]) (.ok (.int 5))).runFrom ⟨signs, []⟩ =
      (.ok (.notOk (.ofKind .int)), ⟨after, calls⟩)) ∧
    (Optional.notOk (.ofKind .int) : Optional Value Value).get = .ok (.int 0, false) ∧
    ∃ after, (do performOption Session.call .get [← performAll Session.call
        [(.convert, .handle .function 0), (.keepOkIf, .handle .function 1)]
        (.option (.ok (.int 5)))]).runFrom signs =
      (.ok (.tuple [.int 0, .bool false]), after) := by
  have stay : ∀ place sort, [StageSort.convert, .keepOkIf][place]? = some sort →
      Stage.StaysWithin KnowsSigns .int inSession ⟨sort, fun x => numbered (place, x)⟩ := by
    intro place sort isThere
    match place, isThere with
    | 0, rfl => exact .convert converts_opposite
    | 1, rfl => exact .keepOkIf tests_above
  obtain ⟨⟨calls, result, after, ran, got, -⟩, -, session⟩ := kind_kept rfl inSession numbered
    stay (o := .ok (.int 5)) rfl signs rfl
  have dropped : result = .notOk (.ofKind .int) := by
    cases ran
    rfl
  subst dropped
  obtain ⟨result, after, ended, isRead, -⟩ := session Session.call
    [(.convert, .handle .function 0), (.keepOkIf, .handle .function 1)] KnowsSigns (by
      rw [List.forall_mem_cons, List.forall_mem_singleton]
      exact ⟨.convert converts_opposite, .keepOkIf tests_above⟩) signs rfl
  have droppedAgain : result = .notOk (.ofKind .int) := by
    cases ended
    rfl
  subst droppedAgain
  exact ⟨rfl, rfl, converts_opposite, tests_above, rfl, ⟨calls, _, ran⟩, got, after, isRead⟩

end Presence.Optional
