import Presence.Proofs.Value.Dictionary
import Presence.Value.Conversion
import Presence.Value.Template

/-!
Contract: which lists and iterators a value holds.

Owns: `Value.HoldsOnly`, values that hold only some of the lists that are kept and of the iterators;
that the parts of such values, and whatever is made of them without a session, hold only these as
well.

Does not own: what lists and iterators hold themselves (`Presence.Proofs.Lists.Confined`).
-/

namespace Presence

/-- The list or the iterator that a scalar refers to. -/
def Scalar.source? : Scalar → Option Handle
  | .handle ⟨.growing, number⟩ => some ⟨.growing, number⟩
  | .handle ⟨.iterator, number⟩ => some ⟨.iterator, number⟩
  | _ => none

namespace Value

/-- The lists and iterators that a value holds are among some. -/
inductive HoldsOnly (among : Handle → Prop) : Value → Prop where
  | scalar {s : Scalar} (each : ∀ source, s.source? = some source → among source) :
      HoldsOnly among (.scalar s)
  | list {items : List Value} (each : ∀ item ∈ items, HoldsOnly among item) :
      HoldsOnly among (.list items)
  | tuple {items : List Value} (each : ∀ item ∈ items, HoldsOnly among item) :
      HoldsOnly among (.tuple items)
  | set {items : List Value} (each : ∀ item ∈ items, HoldsOnly among item) :
      HoldsOnly among (.set items)
  | frozenSet {items : List Value} (each : ∀ item ∈ items, HoldsOnly among item) :
      HoldsOnly among (.frozenSet items)
  | dictionary {entries : List (Value × Value)} (keys : ∀ entry ∈ entries, HoldsOnly among entry.1)
      (each : ∀ entry ∈ entries, HoldsOnly among entry.2) : HoldsOnly among (.dictionary entries)
  | ok {v : Value} (payload : HoldsOnly among v) : HoldsOnly among (.option (.ok v))
  | notOk {kind : Value} (absent : HoldsOnly among kind) : HoldsOnly among (.option (.notOk kind))
  | left {v kind : Value} (payload : HoldsOnly among v) (other : HoldsOnly among kind) :
      HoldsOnly among (.either (.left v kind))
  | right {v kind : Value} (payload : HoldsOnly among v) (other : HoldsOnly among kind) :
      HoldsOnly among (.either (.right v kind))
  | pair {v w : Value} (first : HoldsOnly among v) (second : HoldsOnly among w) :
      HoldsOnly among (.pair ⟨v, w⟩)
  | sequence {items : Value} (container : HoldsOnly among items) :
      HoldsOnly among (.sequence ⟨items⟩)
  | managed (holder : Holder) {v : Value} (basic : HoldsOnly among v) :
      HoldsOnly among (.managed ⟨holder, v⟩)
  | guarded {v : Value} (payload : HoldsOnly among v) : HoldsOnly among (.guarded ⟨v⟩)
  | deferred {f : Value} (run : HoldsOnly among f) : HoldsOnly among (.deferred ⟨f⟩)
  | ternary {c v : Value} (condition : HoldsOnly among c) (payload : HoldsOnly among v) :
      HoldsOnly among (.ternary ⟨c, v, none⟩)
  | ternaryCall {c v f : Value} (condition : HoldsOnly among c) (payload : HoldsOnly among v)
      (call : HoldsOnly among f) : HoldsOnly among (.ternary ⟨c, v, some f⟩)
  | parseError {v reason n : Value} (input : HoldsOnly among v) (why : HoldsOnly among reason)
      (fallback : HoldsOnly among n) : HoldsOnly among (.parseError ⟨v, reason, n⟩)
  | thrown (number : Nat) (kind : FaultKind) {arguments : List Value} {carried : Option Value}
      (each : ∀ argument ∈ arguments, HoldsOnly among argument)
      (around : ∀ v, carried = some v → HoldsOnly among v) :
      HoldsOnly among (.thrown ⟨number, kind, arguments, carried⟩)
  | client (number : Nat) {users failing : Value} (named : HoldsOnly among users)
      (closing : HoldsOnly among failing) : HoldsOnly among (.client ⟨number, users, failing⟩)

namespace HoldsOnly

variable {among others : Handle → Prop} {v w u : Value} {items : List Value}

/-- What refers to nothing of that sort holds nothing. -/
theorem plain {s : Scalar} (noSource : s.source? = none) : HoldsOnly among (.scalar s) :=
  .scalar fun source isSource => by
    rw [noSource] at isSource
    cases isSource

theorem mono (holds : HoldsOnly among v) (within : ∀ source, among source → others source) :
    HoldsOnly others v := by
  induction holds with
  | scalar each => exact .scalar fun source isSource => within source (each source isSource)
  | list _ inductionHypothesis => exact .list inductionHypothesis
  | tuple _ inductionHypothesis => exact .tuple inductionHypothesis
  | set _ inductionHypothesis => exact .set inductionHypothesis
  | frozenSet _ inductionHypothesis => exact .frozenSet inductionHypothesis
  | dictionary _ _ keys each => exact .dictionary keys each
  | ok _ payload => exact .ok payload
  | notOk _ absent => exact .notOk absent
  | left _ _ payload other => exact .left payload other
  | right _ _ payload other => exact .right payload other
  | pair _ _ first second => exact .pair first second
  | sequence _ container => exact .sequence container
  | managed holder _ basic => exact .managed holder basic
  | guarded _ payload => exact .guarded payload
  | deferred _ run => exact .deferred run
  | ternary _ _ condition payload => exact .ternary condition payload
  | ternaryCall _ _ _ condition payload call => exact .ternaryCall condition payload call
  | parseError _ _ _ input why fallback => exact .parseError input why fallback
  | thrown number kind _ _ each around => exact .thrown number kind each around
  | client number _ _ named closing => exact .client number named closing

/-! ## Parts -/

theorem of_ok (holds : HoldsOnly among (.option (.ok v))) : HoldsOnly among v := by
  cases holds
  assumption

theorem of_notOk (holds : HoldsOnly among (.option (.notOk v))) : HoldsOnly among v := by
  cases holds
  assumption

theorem of_left (holds : HoldsOnly among (.either (.left v w))) :
    HoldsOnly among v ∧ HoldsOnly among w := by
  cases holds with
  | left payload other => exact ⟨payload, other⟩

theorem of_right (holds : HoldsOnly among (.either (.right v w))) :
    HoldsOnly among v ∧ HoldsOnly among w := by
  cases holds with
  | right payload other => exact ⟨payload, other⟩

theorem of_sequence (holds : HoldsOnly among (.sequence ⟨v⟩)) : HoldsOnly among v := by
  cases holds
  assumption

theorem of_managed {d : Managed Value} (holds : HoldsOnly among (.managed d)) :
    HoldsOnly among d.basic := by
  cases holds
  assumption

theorem of_list (holds : HoldsOnly among (.list items)) : ∀ item ∈ items, HoldsOnly among item := by
  cases holds
  assumption

theorem of_tuple (holds : HoldsOnly among (.tuple items)) :
    ∀ item ∈ items, HoldsOnly among item := by
  cases holds
  assumption

private theorem of_set (holds : HoldsOnly among (.set items)) :
    ∀ item ∈ items, HoldsOnly among item := by
  cases holds
  assumption

private theorem of_frozenSet (holds : HoldsOnly among (.frozenSet items)) :
    ∀ item ∈ items, HoldsOnly among item := by
  cases holds
  assumption

theorem of_handle {number : Nat} (holds : HoldsOnly among (.handle .growing number)) :
    among ⟨.growing, number⟩ := by
  cases holds with
  | scalar each => exact each _ rfl

/-- The parts that a value is gone through by. -/
theorem parts? (holds : HoldsOnly among v) (found : v.parts? = some items) :
    ∀ item ∈ items, HoldsOnly among item := by
  induction holds with
  | @scalar s _ =>
      cases s with
      | text | bytes | byteArray =>
          cases found
          intro item member
          obtain ⟨_, _, rfl⟩ := List.mem_map.mp member
          exact .plain rfl
      | _ => cases found
  | list each | tuple each | set each | frozenSet each =>
      cases found
      exact each
  | dictionary keys _ =>
      cases found
      intro item member
      obtain ⟨entry, isEntry, rfl⟩ := List.mem_map.mp member
      exact keys entry isEntry
  | sequence _ inductionHypothesis => exact inductionHypothesis found
  | _ => cases found

theorem kindLeft (v : Value) : HoldsOnly among v.kindLeft := by
  unfold Value.kindLeft
  split <;> exact .plain rfl

theorem ofKind? (kind : Option Kind) : HoldsOnly among (.ofKind? kind) := by
  cases kind <;> exact .plain rfl

theorem ofSequence (each : ∀ item ∈ items, HoldsOnly among item) :
    HoldsOnly among (.ofSequence ⟨items⟩) := .sequence (.tuple each)

end HoldsOnly

/-! ## Items and entries -/

section Items

variable {among : Handle → Prop} {v w u key : Value} {items : List Value}
  {entries made : List (Value × Value)}

private theorem holdsOnly_putStored (isKey : HoldsOnly among key) (isValue : HoldsOnly among v)
    (each : ∀ entry ∈ entries, HoldsOnly among entry.1 ∧ HoldsOnly among entry.2) :
    ∀ entry ∈ putStored key v entries, HoldsOnly among entry.1 ∧ HoldsOnly among entry.2 := by
  induction entries with
  | nil =>
      intro entry member
      obtain rfl := List.mem_singleton.mp member
      exact ⟨isKey, isValue⟩
  | cons first rest inductionHypothesis =>
      rw [List.forall_mem_cons] at each
      rw [putStored]
      split
      · exact List.forall_mem_cons.mpr ⟨⟨each.1.1, isValue⟩, each.2⟩
      · exact List.forall_mem_cons.mpr ⟨each.1, inductionHypothesis each.2⟩

theorem holdsOnly_putUnder (isKey : HoldsOnly among key) (isValue : HoldsOnly among v)
    (each : ∀ entry ∈ entries, HoldsOnly among entry.1 ∧ HoldsOnly among entry.2)
    (put : putUnder entries key v = .ok made) :
    ∀ entry ∈ made, HoldsOnly among entry.1 ∧ HoldsOnly among entry.2 := by
  obtain ⟨_, _, put⟩ := bind_eq_ok put
  cases put
  exact holdsOnly_putStored isKey isValue each

theorem holdsOnly_dictionaryOf
    (each : ∀ entry ∈ entries, HoldsOnly among entry.1 ∧ HoldsOnly among entry.2)
    (isMade : dictionaryOf entries = .ok made) :
    ∀ entry ∈ made, HoldsOnly among entry.1 ∧ HoldsOnly among entry.2 := by
  have go : ∀ sofar : List (Value × Value),
      (∀ entry ∈ sofar, HoldsOnly among entry.1 ∧ HoldsOnly among entry.2) →
      entries.foldlM (fun sofar entry => putUnder sofar entry.1 entry.2) sofar = .ok made →
      ∀ entry ∈ made, HoldsOnly among entry.1 ∧ HoldsOnly among entry.2 := by
    clear isMade
    induction entries with
    | nil =>
        intro sofar isSofar ended
        cases ended
        exact isSofar
    | cons first rest inductionHypothesis =>
        intro sofar isSofar ended
        rw [List.forall_mem_cons] at each
        rw [List.foldlM_cons] at ended
        obtain ⟨next, put, ended⟩ := bind_eq_ok ended
        exact inductionHypothesis each.2 next
          (holdsOnly_putUnder each.1.1 each.1.2 isSofar put) ended
  exact go [] (by simp) isMade

theorem mem_of_addToSet {kept : List Value} (added : addToSet items v = .ok kept) :
    ∀ item ∈ kept, item ∈ items ∨ item = v := by
  obtain ⟨_, _, added⟩ := bind_eq_ok added
  cases added
  intro item member
  split at member
  · exact .inl member
  · exact (List.mem_append.mp member).imp_right List.mem_singleton.mp

theorem mem_of_setOf {kept : List Value} (isMade : setOf items = .ok kept) :
    ∀ item ∈ kept, item ∈ items := by
  obtain ⟨rfl, _⟩ := eq_firsts_of_setOf isMade
  exact fun item member => (firsts_sublist items).subset member

private theorem holdsOnly_nth {what : Indexed} (each : ∀ item ∈ items, HoldsOnly among item)
    (found : nth what items key = .ok u) : HoldsOnly among u := by
  unfold nth at found
  split at found
  · cases found
  · split at found
    · split at found
      · next place =>
          cases found
          obtain ⟨_, _, isItem⟩ := Option.bind_eq_some_iff.mp place
          exact each _ (List.mem_of_getElem? isItem)
      · cases found
    · cases found

private theorem holdsOnly_findUnder? {found : Value}
    (each : ∀ entry ∈ entries, HoldsOnly among entry.2)
    (isFound : findUnder? key entries = .ok (some found)) : HoldsOnly among found := by
  obtain ⟨_, _, isFound⟩ := bind_eq_ok isFound
  obtain ⟨entry, isEntry, rfl⟩ := Option.map_eq_some_iff.mp (Except.ok.inj isFound)
  exact each entry (List.mem_of_find?_eq_some isEntry)

theorem holdsOnly_item (holds : HoldsOnly among v) (found : v.item key = .ok u) :
    HoldsOnly among u := by
  have parts : ∀ s : Scalar, ∀ item ∈ (Value.scalar s).parts?.getD [], HoldsOnly among item := by
    intro s item member
    cases s with
    | text | bytes | byteArray =>
        obtain ⟨_, _, rfl⟩ := List.mem_map.mp member
        exact .plain rfl
    | _ => cases member
  induction holds with
  | @scalar s _ =>
      cases s with
      | text | bytes | byteArray => exact holdsOnly_nth (parts _) found
      | _ => cases found
  | list each _ | tuple each _ => exact holdsOnly_nth each found
  | sequence _ inductionHypothesis => exact inductionHypothesis found
  | dictionary _ each _ _ =>
      rw [item] at found
      split at found
      · next isFound =>
          cases found
          exact holdsOnly_findUnder? each isFound
      · cases found
      · cases found
  | _ => cases found

end Items

/-! ## Arithmetic -/

section Arithmetic

variable {among : Handle → Prop} {v w u : Value}

/-- A number, a text or octets: whatever refers to nothing. -/
def IsPlain (v : Value) : Prop := ∃ s : Scalar, v = .scalar s ∧ s.source? = none

theorem IsPlain.holdsOnly (isPlain : v.IsPlain) : HoldsOnly among v := by
  obtain ⟨s, rfl, noSource⟩ := isPlain
  exact .plain noSource

theorem isPlain_neg (made : v.neg = .ok u) : u.IsPlain := by
  unfold neg at made
  split at made
  · split at made
    · cases made
      exact ⟨_, rfl, rfl⟩
    · cases made
      exact ⟨_, rfl, rfl⟩
    · cases made
      exact ⟨_, rfl, rfl⟩
    · cases made
  · cases made

theorem isPlain_map {f : NumberPair → Value} (each : ∀ both, (f both).IsPlain)
    {both : Except Fault NumberPair} (made : f <$> both = .ok u) : u.IsPlain := by
  cases both with
  | error => cases made
  | ok both =>
      cases made
      exact each both

theorem holdsOnly_add (first : HoldsOnly among v) (second : HoldsOnly among w)
    (made : v.add w = .ok u) : HoldsOnly among u := by
  unfold add at made
  split at made
  · exact (isPlain_map (fun both => by cases both <;> exact ⟨_, rfl, rfl⟩) made).holdsOnly
  · split at made
    case h_6 =>
      cases made
      exact .list (List.forall_mem_append.mpr ⟨first.of_list, second.of_list⟩)
    case h_7 =>
      cases made
      exact .tuple (List.forall_mem_append.mpr ⟨first.of_tuple, second.of_tuple⟩)
    case h_8 => cases made
    all_goals
      cases made
      exact .plain rfl

theorem holdsOnly_sub (first : HoldsOnly among v) (made : v.sub w = .ok u) :
    HoldsOnly among u := by
  have kept : ∀ {xs ys : List Value}, (∀ x ∈ xs, HoldsOnly among x) →
      ∀ x ∈ without xs ys, HoldsOnly among x := fun each x member =>
    each x (List.mem_of_mem_filter member)
  unfold sub at made
  split at made
  · exact (isPlain_map (fun both => by cases both <;> exact ⟨_, rfl, rfl⟩) made).holdsOnly
  · split at made
    case h_1 | h_2 =>
      cases made
      exact .set (kept first.of_set)
    case h_3 | h_4 =>
      cases made
      exact .frozenSet (kept first.of_frozenSet)
    case h_5 => cases made

private theorem mem_of_repeated {α : Type} {items made : List α} {count : Int} {beyond : Fault}
    (isMade : repeated items count beyond = .ok made) : ∀ item ∈ made, item ∈ items := by
  unfold repeated at isMade
  dsimp only at isMade
  split at isMade
  · cases isMade
  · obtain ⟨_, _, isMade⟩ := bind_eq_ok isMade
    cases isMade
    intro item member
    split at member
    · cases member
    · obtain ⟨_, isCopy, isItem⟩ := List.mem_flatten.mp member
      rwa [List.eq_of_mem_replicate isCopy] at isItem

private theorem holdsOnly_repeat? {count : Int} {result : Except Fault Value}
    (holds : HoldsOnly among v)
    (repeats : v.repeat? count = some result) (made : result = .ok u) : HoldsOnly among u := by
  have mapped : ∀ {α : Type} {f : α → Value} {repeated : Except Fault α},
      repeated.map f = .ok u → ∃ items, repeated = .ok items ∧ u = f items := by
    intro α f repeated isMade
    cases repeated with
    | error => cases isMade
    | ok items =>
        cases isMade
        exact ⟨items, rfl, rfl⟩
  unfold repeat? at repeats
  split at repeats
  case h_4 =>
    cases repeats
    obtain ⟨items, isMade, rfl⟩ := mapped made
    exact .list fun item member => holds.of_list item (mem_of_repeated isMade item member)
  case h_5 =>
    cases repeats
    obtain ⟨items, isMade, rfl⟩ := mapped made
    exact .tuple fun item member => holds.of_tuple item (mem_of_repeated isMade item member)
  case h_6 => cases repeats
  all_goals
    cases repeats
    obtain ⟨_, _, rfl⟩ := mapped made
    exact .plain rfl

private theorem holdsOnly_repeatBy (holds : HoldsOnly among v) (made : v.repeatBy w = .ok u) :
    HoldsOnly among u := by
  unfold repeatBy at made
  split at made
  · split at made
    · next n _ _ _ _ =>
        rcases repeats : v.repeat? n with _ | result
        · rw [repeats] at made
          cases made
        · rw [repeats] at made
          exact holdsOnly_repeat? holds repeats made
    · cases made
  · cases made

theorem holdsOnly_mul (first : HoldsOnly among v) (second : HoldsOnly among w)
    (made : v.mul w = .ok u) : HoldsOnly among u := by
  unfold mul at made
  split at made
  · exact (isPlain_map (fun both => by cases both <;> exact ⟨_, rfl, rfl⟩) made).holdsOnly
  · split at made
    · exact holdsOnly_repeatBy first made
    · exact holdsOnly_repeatBy second made

theorem isPlain_of_numbers {f : NumberPair → Except Fault Value}
    (each : ∀ both, f both = .ok u → u.IsPlain) {both? : Option (Except Fault NumberPair)}
    (made : (match both? with
      | some both => do f (← both)
      | none => .error .wrongType) = .ok u) : u.IsPlain := by
  split at made
  · obtain ⟨both, _, made⟩ := bind_eq_ok made
    exact each both made
  · cases made

private theorem isPlain_remainder (made : v.remainder w = .ok u) : u.IsPlain := by
  unfold remainder at made
  split at made
  · cases made
  · refine isPlain_of_numbers (f := NumberPair.mod) (fun both isMade => ?_) made
    cases both <;> unfold NumberPair.mod at isMade <;> dsimp only at isMade
    · split at isMade <;> cases isMade
      exact ⟨_, rfl, rfl⟩
    · split at isMade <;> cases isMade
      exact ⟨_, rfl, rfl⟩
    · cases isMade

theorem isPlain_floorDiv (made : v.floorDiv w = .ok u) : u.IsPlain := by
  unfold floorDiv at made
  split at made
  · cases made
  · refine isPlain_of_numbers (f := NumberPair.floorDiv) (fun both isMade => ?_) made
    cases both <;> unfold NumberPair.floorDiv at isMade <;> dsimp only at isMade
    · split at isMade <;> cases isMade
      exact ⟨_, rfl, rfl⟩
    · split at isMade <;> cases isMade
      exact ⟨_, rfl, rfl⟩
    · cases isMade

theorem isPlain_mod (made : v.mod w = .ok u) : u.IsPlain := by
  have mapped : ∀ {α : Type} {f : α → Value} {filled : Except Fault α},
      (∀ a, (f a).IsPlain) → filled.map f = .ok u → u.IsPlain := by
    intro α f filled each isMade
    cases filled with
    | error => cases isMade
    | ok a =>
        cases isMade
        exact each a
  unfold mod at made
  split at made
  case h_4 => exact isPlain_remainder made
  all_goals exact mapped (fun _ => ⟨_, rfl, rfl⟩) made

theorem isPlain_toComplex (made : v.toComplex = .ok u) : u.IsPlain := by
  unfold toComplex at made
  split at made
  · split at made
    · cases made
    · split at made
      · cases made
        exact ⟨_, rfl, rfl⟩
      · cases made
  · obtain ⟨parts, _, made⟩ := bind_eq_ok made
    cases made
    exact ⟨_, rfl, rfl⟩

theorem isPlain_toComplexOf (made : v.toComplexOf w = .ok u) : u.IsPlain := by
  obtain ⟨_, _, made⟩ := bind_eq_ok made
  obtain ⟨_, _, made⟩ := bind_eq_ok made
  obtain ⟨_, _, made⟩ := bind_eq_ok made
  obtain ⟨_, _, made⟩ := bind_eq_ok made
  cases made
  exact ⟨_, rfl, rfl⟩

end Arithmetic

end Value

end Presence
