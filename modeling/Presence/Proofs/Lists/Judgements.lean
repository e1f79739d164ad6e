import Presence.Proofs.Lists.Held
import Presence.Proofs.Session.Frames

/-!
Contract: what is said of computations part by part.

Owns: `Judgement`, what is said of computations on worlds with at least so many lists;
`Composes`, judgements that are closed under sequence, and so under mapping, going through feeds and
rebuilding values; `Finds`, those that hold of finding what is kept, and so of going through values,
looking at them and telling them.

Does not own: the judgements (`Presence.Proofs.Lists.Confined`, `Presence.Proofs.Lists.Overlooked`).

The number of lists stands for the lists that there are, since none is ever dropped. Which lists and
iterators a value may hold can depend on it, and never becomes less.
-/

namespace Presence.Session

open Attempt Run

/-! ## Judgements -/

/-- Something that is said of computations on worlds with at least so many lists, and of their
results among the lists that there are by then. -/
abbrev Judgement : Type 1 := ∀ {α : Type}, Nat → Run α → (Nat → α → Prop) → Prop

/-- Whatever is so among some lists is so among more. -/
def Rises {α : Type} (fine : Nat → α → Prop) : Prop :=
  ∀ ⦃size larger : Nat⦄ ⦃a : α⦄, fine size a → size ≤ larger → fine larger a

/-- Any result. -/
abbrev Whatever {α : Type} : Nat → α → Prop := fun _ _ => True

theorem rises_whatever {α : Type} : Rises (Whatever : Nat → α → Prop) := fun _ _ _ _ _ => trivial

private theorem rises_all {α : Type} {fine : Nat → α → Prop} (rises : Rises fine) :
    Rises fun size (items : List α) => ∀ item ∈ items, fine size item :=
  fun _ _ _ all more item member => rises (all item member) more

/-- A judgement that is closed under sequence. -/
structure Composes (judges : Judgement) : Prop where
  later {α : Type} {base larger : Nat} {body : Run α} {fine : Nat → α → Prop} :
    judges base body fine → base ≤ larger → judges larger body fine
  pure {α : Type} {base : Nat} {result : α} {fine : Nat → α → Prop} :
    (∀ size, base ≤ size → fine size result) → judges base (pure result) fine
  fail {α : Type} {base : Nat} {fine : Nat → α → Prop} (fault : Fault) :
    judges (α := α) base (Run.fail fault) fine
  bind {α β : Type} {base : Nat} {first : Run α} {next : α → Run β} {fine : Nat → α → Prop}
    {well : Nat → β → Prop} : judges base first fine →
      (∀ size, base ≤ size → ∀ result, fine size result → judges size (next result) well) →
        judges base (first >>= next) well

/-- A feed of whose items something is said. -/
def FeedJudged (judges : Judgement) {α : Type} (base : Nat) (feed : Feed (StateM World) α)
    (fine : Nat → α → Prop) : Prop :=
  ∀ place, judges base (feed.next place) fun size item? =>
    ∀ item, item? = some item → fine size item

/-- What a step of going through a feed has come to. -/
def StepFine {σ : Type} (inv : Nat → σ → Prop) (size : Nat) : ForInStep σ → Prop
  | .done sofar => inv size sofar
  | .yield sofar => inv size sofar

namespace Composes

variable {judges : Judgement} (composes : Composes judges) {α β σ : Type} {base : Nat}
  {feed : Feed (StateM World) α} {fine : Nat → α → Prop} {well : Nat → β → Prop}
  {inv : Nat → σ → Prop}

include composes

theorem feedLater {larger : Nat} (next : FeedJudged judges base feed fine) (more : base ≤ larger) :
    FeedJudged judges larger feed fine :=
  fun place => composes.later (next place) more

/-- What a result is does not matter to what comes after it. -/
theorem next {first : Run α} {next : α → Run β} (begins : judges base first fine)
    (goesOn : ∀ result, judges base (next result) well) : judges base (first >>= next) well :=
  composes.bind begins fun _ more result _ => composes.later (goesOn result) more

theorem ofExcept {result : Except Fault α}
    (isFine : ∀ a, result = .ok a → ∀ size, base ≤ size → fine size a) :
    judges base (Attempt.ofExcept result) fine := by
  cases result with
  | error fault => exact composes.fail fault
  | ok a => exact composes.pure (isFine a rfl)

theorem ofHash {result : Except Kind α}
    (isFine : ∀ a, result = .ok a → ∀ size, base ≤ size → fine size a) :
    judges base (Attempt.ofHash result) fine := by
  cases result with
  | error kind => exact composes.fail _
  | ok a => exact composes.pure (isFine a rfl)

theorem ofOption {result : Option α}
    (isFine : ∀ a, result = some a → ∀ size, base ≤ size → fine size a) :
    judges base (Attempt.ofOption result) fine := by
  cases result with
  | none => exact composes.fail .wrongType
  | some a => exact composes.pure (isFine a rfl)

theorem ofList {items : List α}
    (each : ∀ size, base ≤ size → ∀ item ∈ items, fine size item) :
    FeedJudged judges base (.ofList items) fine := by
  refine fun place => composes.pure fun size more item found => each size more item ?_
  exact List.mem_of_getElem? ((List.getElem?_toArray ..).symm.trans found)

/-- What is said of a function on each item is said of it on all of them, one after the other. -/
theorem mapM {f : α → Run β} {items : List α} (rises : Rises well)
    (each : ∀ item ∈ items, judges base (f item) well) :
    judges base (items.mapM f) fun size results => ∀ result ∈ results, well size result := by
  induction items generalizing base with
  | nil => exact composes.pure fun _ _ => List.forall_mem_nil _
  | cons item rest inductionHypothesis =>
      rw [List.forall_mem_cons] at each
      rw [List.mapM_cons]
      refine composes.bind each.1 fun size more first isFirst => ?_
      refine composes.bind
        (inductionHypothesis fun item member => composes.later (each.2 item member) more)
        fun size' more' others areOthers => ?_
      exact composes.pure fun _ more'' => List.forall_mem_cons.mpr
        ⟨rises isFirst (Nat.le_trans more' more''),
          fun other member => rises (areOthers other member) more''⟩

/-- What is said of each step is said of going through a feed. -/
theorem goFrom (rises : Rises inv) (next : FeedJudged judges base feed fine)
    {body : α → σ → Run (ForInStep σ)}
    (each : ∀ size, base ≤ size → ∀ item sofar, fine size item → inv size sofar →
      judges size (body item sofar) (StepFine inv)) (steps place : Nat) {sofar : σ}
    (start : inv base sofar) : judges base (feed.goFrom body steps place sofar) inv := by
  induction steps generalizing base place sofar with
  | zero => exact composes.pure fun _ more => rises start more
  | succ steps inductionHypothesis =>
      refine composes.bind (next place) fun size more item? isItem => ?_
      cases item? with
      | none => exact composes.pure fun _ more' => rises start (Nat.le_trans more more')
      | some item =>
          refine composes.bind (each size more item sofar (isItem item rfl) (rises start more))
            fun size' more' step isStep => ?_
          cases step with
          | done final => exact composes.pure fun _ more'' => rises isStep more''
          | yield sofar =>
              have all := Nat.le_trans more more'
              exact inductionHypothesis (composes.feedLater next all)
                (fun size'' more'' => each size'' (Nat.le_trans all more'')) (place + 1) isStep

theorem fold (rises : Rises well) (next : FeedJudged judges base feed fine) {f : β → α → Run β}
    (each : ∀ size, base ≤ size → ∀ sofar item, well size sofar → fine size item →
      judges size (f sofar item) well) {initial : β} (start : well base initial) :
    judges base (feed.fold initial f) well := by
  refine composes.goFrom rises next (fun size more item sofar isItem isSofar => ?_) _ _ start
  exact composes.bind (each size more sofar item isSofar isItem) fun _ _ _ isNext =>
    composes.pure fun _ more => rises isNext more

/-- The results of a function for each item. -/
theorem collect (rises : Rises well) (next : FeedJudged judges base feed fine) {f : α → Run β}
    (each : ∀ size, base ≤ size → ∀ item, fine size item → judges size (f item) well) :
    judges base (feed.collect f) fun size results => ∀ result ∈ results, well size result := by
  have risesAll : Rises fun size (results : Array β) => ∀ result ∈ results, well size result :=
    fun _ _ _ all more result member => rises (all result member) more
  refine composes.bind
    (composes.fold risesAll next (fun size more sofar item areSofar isItem => ?_) ?_)
    fun size more results areResults => composes.pure fun _ more' result member =>
      rises (areResults result (Array.mem_toList_iff.mp member)) more'
  · refine composes.bind (each size more item isItem) fun size' more' result isResult => ?_
    refine composes.pure fun _ more'' other member => ?_
    rcases Array.mem_push.mp member with old | rfl
    · exact rises (areSofar other old) (Nat.le_trans more' more'')
    · exact rises isResult more''
  · exact fun result member => absurd member (Array.not_mem_empty result)

theorem toList (rises : Rises fine) (next : FeedJudged judges base feed fine) :
    judges base feed.toList fun size items => ∀ item ∈ items, fine size item :=
  composes.collect rises next fun _ _ _ isItem => composes.pure fun _ more => rises isItem more

end Composes

/-! ## Values by their parts -/

/-- The lists and iterators that a value holds are among some. -/
abbrev HoldsAmong (among : Nat → Handle → Prop) (size : Nat) (v : Value) : Prop :=
  v.HoldsOnly (among size)

abbrev AllHold (among : Nat → Handle → Prop) (size : Nat) (items : List Value) : Prop :=
  ∀ item ∈ items, HoldsAmong among size item

abbrev AllEntriesHold (among : Nat → Handle → Prop) (size : Nat) (entries : List (Value × Value)) :
    Prop :=
  ∀ entry ∈ entries, HoldsAmong among size entry.1 ∧ HoldsAmong among size entry.2

section Grows

variable {among : Nat → Handle → Prop}

theorem rises_holdsAmong (grows : Rises among) : Rises (HoldsAmong among) :=
  fun _ _ _ holds more => holds.mono fun _ isAmong => grows isAmong more

theorem rises_allHold (grows : Rises among) : Rises (AllHold among) :=
  rises_all (rises_holdsAmong grows)

theorem rises_allEntriesHold (grows : Rises among) : Rises (AllEntriesHold among) :=
  fun _ _ _ hold more entry member => ⟨rises_holdsAmong grows (hold entry member).1 more,
    rises_holdsAmong grows (hold entry member).2 more⟩

theorem AllEntriesHold.dictionary {size : Nat} {entries : List (Value × Value)}
    (hold : AllEntriesHold among size entries) : HoldsAmong among size (.dictionary entries) :=
  .dictionary (fun entry member => (hold entry member).1) fun entry member => (hold entry member).2

end Grows

/-- Rules of which a judgement holds, on what may be held among so many lists. -/
structure ListRule.Judged (judges : Judgement) (among : Nat → Handle → Prop) (base : Nat)
    (rule : ListRule (Attempt (StateM World))) : Prop where
  onHandle : ∀ number, among base ⟨.growing, number⟩ →
    judges base (rule.onHandle number) (HoldsAmong among)
  onList : ∀ size, base ≤ size → ∀ items, AllHold among size items →
    judges size (rule.onList items) (HoldsAmong among)
  onContainer : ∀ size, base ≤ size → ∀ items, HoldsAmong among size items →
    judges size (rule.onContainer items) (HoldsAmong among)

/-! ## Finding what is kept -/

/-- A judgement of finding what is held among so many lists. -/
structure Finds (judges : Judgement) (among : Nat → Handle → Prop) : Prop
    extends Composes judges where
  grows : Rises among
  listAt {base number : Nat} : among base ⟨.growing, number⟩ →
    judges base (Run.listAt number) (AllHold among)
  listFeed {base number : Nat} : among base ⟨.growing, number⟩ →
    FeedJudged judges base (Run.listFeed number) (HoldsAmong among)
  iteratorFeed {base number : Nat} : among base ⟨.iterator, number⟩ →
    FeedJudged judges base (Run.iteratorFeed number) (HoldsAmong among)
  openStreamAt {base : Nat} (number : Nat) (use : StreamUse) :
    judges base (Run.openStreamAt number use) Whatever
  setStream {base : Nat} (number : Nat) (stream : TextStream) :
    judges base (Run.setStream number stream) Whatever

namespace Finds

variable {judges : Judgement} {among : Nat → Handle → Prop} (finds : Finds judges among)
  {base : Nat}

include finds

/-! ### Values by their parts -/

theorem one (make : Value → Value)
    (holds : ∀ {size v}, HoldsAmong among size v → HoldsAmong among size (make v))
    {body : Run Value} (part : judges base body (HoldsAmong among)) :
    judges base (do return make (← body)) (HoldsAmong among) :=
  finds.bind part fun _ _ _ isMade => finds.pure fun _ more =>
    holds (rises_holdsAmong finds.grows isMade more)

theorem two (make : Value → Value → Value)
    (holds : ∀ {size v w}, HoldsAmong among size v → HoldsAmong among size w →
      HoldsAmong among size (make v w))
    {body body' : Run Value} (first : judges base body (HoldsAmong among))
    (second : judges base body' (HoldsAmong among)) :
    judges base (do return make (← body) (← body')) (HoldsAmong among) :=
  finds.bind first fun _ more _ isFirst =>
    finds.bind (finds.later second more) fun _ more' _ isSecond =>
      finds.pure fun _ last =>
        holds (rises_holdsAmong finds.grows isFirst (Nat.le_trans more' last))
          (rises_holdsAmong finds.grows isSecond last)

private theorem three (make : Value → Value → Value → Value)
    (holds : ∀ {size v w u}, HoldsAmong among size v → HoldsAmong among size w →
      HoldsAmong among size u → HoldsAmong among size (make v w u))
    {body body' body'' : Run Value} (first : judges base body (HoldsAmong among))
    (second : judges base body' (HoldsAmong among))
    (third : judges base body'' (HoldsAmong among)) :
    judges base (do return make (← body) (← body') (← body'')) (HoldsAmong among) := by
  refine finds.bind first fun _ more _ isFirst => ?_
  refine finds.bind (finds.later second more) fun _ more' _ isSecond => ?_
  refine finds.bind (finds.later third (Nat.le_trans more more')) fun _ more'' _ isThird => ?_
  refine finds.pure fun _ last => ?_
  have all := Nat.le_trans more'' last
  exact holds (rises_holdsAmong finds.grows isFirst (Nat.le_trans more' all))
    (rises_holdsAmong finds.grows isSecond all) (rises_holdsAmong finds.grows isThird last)

theorem items (make : List Value → Value)
    (holds : ∀ {size items}, AllHold among size items → HoldsAmong among size (make items))
    {body : Run (List Value)} (parts : judges base body (AllHold among)) :
    judges base (do return make (← body)) (HoldsAmong among) :=
  finds.bind parts fun _ _ _ areMade => finds.pure fun _ more =>
    holds (rises_allHold finds.grows areMade more)

theorem cons {first : Run Value} {others : Run (List Value)}
    (begins : judges base first (HoldsAmong among)) (goesOn : judges base others (AllHold among)) :
    judges base (do
      let item ← first
      let items ← others
      return item :: items) (AllHold among) :=
  finds.bind begins fun _ more _ isFirst =>
    finds.bind (finds.later goesOn more) fun _ more' _ areOthers =>
      finds.pure fun _ last => List.forall_mem_cons.mpr
        ⟨rises_holdsAmong finds.grows isFirst (Nat.le_trans more' last),
          rises_allHold finds.grows areOthers last⟩

theorem consEntry {first second : Run Value} {others : Run (List (Value × Value))}
    (key : judges base first (HoldsAmong among)) (v : judges base second (HoldsAmong among))
    (goesOn : judges base others (AllEntriesHold among)) :
    judges base (do
      let key ← first
      let v ← second
      let entries ← others
      return (key, v) :: entries) (AllEntriesHold among) := by
  refine finds.bind key fun _ more _ isKey =>
    finds.bind (finds.later v more) fun _ more' _ isValue => ?_
  refine finds.bind (finds.later goesOn (Nat.le_trans more more'))
    fun _ more'' _ areOthers => finds.pure fun _ last => List.forall_mem_cons.mpr ?_
  have all := Nat.le_trans more'' last
  exact ⟨⟨rises_holdsAmong finds.grows isKey (Nat.le_trans more' all),
    rises_holdsAmong finds.grows isValue all⟩, rises_allEntriesHold finds.grows areOthers last⟩

section Rebuild

variable {rule : ListRule (Attempt (StateM World))}

theorem rebuildItems {items : List Value}
    (each : ∀ item ∈ items, judges base (rebuild rule item) (HoldsAmong among)) :
    judges base (Session.rebuildItems rule items) (AllHold among) := by
  induction items with
  | nil => exact finds.pure fun _ _ => List.forall_mem_nil _
  | cons item rest inductionHypothesis =>
      rw [List.forall_mem_cons] at each
      exact finds.cons each.1 (inductionHypothesis each.2)

private theorem rebuildEntries {entries : List (Value × Value)}
    (keys : ∀ entry ∈ entries, judges base (rebuild rule entry.1) (HoldsAmong among))
    (each : ∀ entry ∈ entries, judges base (rebuild rule entry.2) (HoldsAmong among)) :
    judges base (Session.rebuildEntries rule entries) (AllEntriesHold among) := by
  induction entries with
  | nil => exact finds.pure fun _ _ => List.forall_mem_nil _
  | cons entry rest inductionHypothesis =>
      rw [List.forall_mem_cons] at keys each
      exact finds.consEntry keys.1 each.1 (inductionHypothesis keys.2 each.2)

/-- What is said of rules is said of rebuilding a value by them. -/
theorem rebuild (judged : rule.Judged judges among base) {v : Value}
    (holds : HoldsAmong among base v) :
    judges base (Session.rebuild rule v) (HoldsAmong among) := by
  induction holds with
  | @scalar s each =>
      have same : judges base (Pure.pure (Value.scalar s)) (HoldsAmong among) :=
        finds.pure fun _ more => rises_holdsAmong finds.grows (.scalar each) more
      cases s with
      | handle h =>
          obtain ⟨sort, number⟩ := h
          cases sort with
          | growing => exact judged.onHandle number (each _ rfl)
          | _ => exact same
      | _ => exact same
  | list _ each => exact finds.bind (finds.rebuildItems each) judged.onList
  | tuple _ each => exact finds.items .tuple .tuple (finds.rebuildItems each)
  | set _ each => exact finds.items .set .set (finds.rebuildItems each)
  | frozenSet _ each =>
      exact finds.items .frozenSet .frozenSet (finds.rebuildItems each)
  | dictionary _ _ keys each =>
      exact finds.bind (finds.rebuildEntries keys each) fun _ _ _ areEntries =>
        finds.pure fun _ more => (rises_allEntriesHold finds.grows areEntries more).dictionary
  | ok _ payload => exact finds.one (fun v => .option (.ok v)) .ok payload
  | notOk _ absent => exact finds.one (fun kind => .option (.notOk kind)) .notOk absent
  | left _ _ payload other =>
      exact finds.two (fun v kind => .either (.left v kind)) .left payload other
  | right _ _ payload other =>
      exact finds.two (fun v kind => .either (.right v kind)) .right payload other
  | pair _ _ first second => exact finds.two (fun v w => .pair ⟨v, w⟩) .pair first second
  | sequence _ container =>
      exact finds.bind container fun size more items isHeld =>
        finds.one (fun items => .sequence ⟨items⟩) .sequence
          (judged.onContainer size more items isHeld)
  | managed holder _ basic =>
      exact finds.one (fun basic => .managed ⟨holder, basic⟩) (.managed holder) basic
  | guarded _ payload => exact finds.one (fun v => .guarded ⟨v⟩) .guarded payload
  | deferred _ run => exact finds.one (fun f => .deferred ⟨f⟩) .deferred run
  | ternary _ _ condition payload =>
      exact finds.two (fun c v => .ternary ⟨c, v, none⟩) .ternary condition payload
  | ternaryCall _ _ _ condition payload call =>
      exact finds.three (fun c v f => .ternary ⟨c, v, some f⟩) .ternaryCall condition
        payload call
  | parseError _ _ _ input why fallback =>
      exact finds.three (fun v reason n => .parseError ⟨v, reason, n⟩) .parseError input
        why fallback
  | @thrown number kind arguments carried _ _ each around =>
      cases carried with
      | none =>
          exact finds.items (fun arguments => .thrown ⟨number, kind, arguments, none⟩)
            (fun areHeld => .thrown number kind areHeld nofun) (finds.rebuildItems each)
      | some v =>
          refine finds.bind (finds.rebuildItems each) fun _ more _ areArguments => ?_
          refine finds.bind (finds.later (around v rfl) more) fun _ more' _ isCarried => ?_
          refine finds.pure fun _ last => .thrown number kind
            (rises_allHold finds.grows areArguments (Nat.le_trans more' last)) fun w isSome => ?_
          cases isSome
          exact rises_holdsAmong finds.grows isCarried last
  | client number _ _ named closing =>
      exact finds.two (fun users failing => .client ⟨number, users, failing⟩)
        (.client number) named closing

end Rebuild

/-! ### Going through values -/

private theorem streamFeed (number : Nat) :
    FeedJudged judges base (Run.streamFeed number) (HoldsAmong among) := by
  refine fun place => finds.bind (finds.openStreamAt number .transfer) fun _ _ stream _ => ?_
  split
  · exact finds.pure fun _ _ => nofun
  · refine finds.bind (finds.setStream number _) fun _ _ _ _ => finds.pure fun _ _ item isItem => ?_
    cases isItem
    exact .plain rfl

theorem feedOf {v : Value} (holds : HoldsAmong among base v) :
    judges base (Run.feedOf v) fun size feed => FeedJudged judges size feed (HoldsAmong among) := by
  fun_induction Run.feedOf v with
  | case1 number =>
      exact finds.pure fun _ more => finds.feedLater (finds.listFeed holds.of_handle) more
  | case2 number =>
      cases holds with
      | scalar each =>
          exact finds.pure fun _ more => finds.feedLater (finds.iteratorFeed (each _ rfl)) more
  | case3 number =>
      exact finds.bind (finds.openStreamAt number .start) fun _ _ _ _ =>
        finds.pure fun _ _ => finds.streamFeed number
  | case4 items inductionHypothesis => exact inductionHypothesis holds.of_sequence
  | case5 v _ _ _ _ =>
      refine finds.bind (finds.ofOption fun parts found _ _ => found) fun _ more parts found => ?_
      have hold : AllHold among _ parts := rises_allHold finds.grows (holds.parts? found) more
      exact finds.pure fun _ more' => finds.ofList fun _ more'' =>
        rises_allHold finds.grows hold (Nat.le_trans more' more'')

theorem parts {v : Value} (holds : HoldsAmong among base v) :
    judges base (Run.parts v) (AllHold among) :=
  finds.bind (finds.feedOf holds) fun _ _ _ next =>
    finds.toList (rises_holdsAmong finds.grows) next

theorem look {v : Value} (holds : HoldsAmong among base v) :
    judges base (Run.look v) (HoldsAmong among) := by
  fun_induction Run.look v with
  | case1 number =>
      exact finds.items .list .list (finds.listAt holds.of_handle)
  | case2 items inductionHypothesis =>
      exact finds.one (fun items => .sequence ⟨items⟩) .sequence
        (inductionHypothesis holds.of_sequence)
  | case3 v _ _ => exact finds.pure fun _ more => rises_holdsAmong finds.grows holds more

theorem truth {v : Value} (holds : HoldsAmong among base v) :
    judges base (Run.truth v) Whatever :=
  finds.bind (finds.look holds) fun _ _ _ _ => finds.ofOption fun _ _ _ _ => trivial

theorem size {v : Value} (holds : HoldsAmong among base v) : judges base (Run.size v) Whatever :=
  finds.bind (finds.look holds) fun _ _ _ _ => finds.ofOption fun _ _ _ _ => trivial

theorem tellTo (depth : Nat) (around : List Nat) {v : Value} (holds : HoldsAmong among base v) :
    judges base (Run.tellTo depth around v) (HoldsAmong among) := by
  have same {size : Nat} {w : Value} (isHeld : HoldsAmong among size w) :
      judges size (Pure.pure w) (HoldsAmong among) :=
    finds.pure fun _ more => rises_holdsAmong finds.grows isHeld more
  induction depth generalizing base around v with
  | zero => exact finds.fail .tooDeep
  | succ depth inductionHypothesis =>
      refine finds.rebuild ⟨fun number isAmong => ?_, fun _ _ _ hold => same (.list hold),
        fun size more items isHeld => ?_⟩ holds
      · dsimp only
        split
        · exact finds.fail .tooDeep
        · exact finds.bind (finds.listAt isAmong) fun _ _ items hold =>
            finds.items .list .list
              (finds.mapM (rises_holdsAmong finds.grows) fun item member =>
                inductionHypothesis _ (hold item member))
      · dsimp only
        split
        · next told isParts => exact same (.tuple (isHeld.parts? isParts))
        · exact finds.bind (finds.parts isHeld) fun _ _ parts hold =>
            finds.items .tuple .tuple
              (finds.mapM (rises_holdsAmong finds.grows) fun item member =>
                inductionHypothesis _ (hold item member))

end Finds

end Presence.Session
