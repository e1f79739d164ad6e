import Presence.Proofs.Calls.Schedule
import Presence.Proofs.Json.Grammar
import Presence.Proofs.Text.Encoding
import Presence.Session.Step

/-!
Contract: the encoding of a document is told from its first octets.

Owns: the octets that the first two characters of a document are in each encoding, and the guess of
the encoding from them (`unmarked_encode`); `load_encode`, that octets are loaded as the text that
they were written from; the same of options.

Does not own: what octets mean in a known encoding (`Presence.Proofs.Text.Encoding`), and what a
document starts with (`Presence.Proofs.Json.Grammar`).

A document starts with a character of the first block that is not nought, and does not go on with
nought: these two facts are all that the guess needs.
-/

namespace Presence.Json

open Text

/-! ## The first octets -/

section Octets

variable {c d : Char} {a b : UInt8} {octets : List UInt8}

/-- An octet with the noughts that are around it in a unit. -/
def amongNoughts (a : UInt8) : Encoding → List UInt8
  | .octets => [a]
  | .pairs .smallFirst => [a, 0]
  | .pairs .greatFirst => [0, a]
  | .quads .smallFirst => [a, 0, 0, 0]
  | .quads .greatFirst => [0, 0, 0, a]

/-- The octets of a character of the first block are its code, with noughts around it. -/
theorem encode_inFirstBlock (small : InFirstBlock c) (encoding : Encoding) (rest : List Char) :
    ∃ a : UInt8, 0 < a.toNat ∧ a.toNat < 0x80 ∧
      encoding.encode (c :: rest) = amongNoughts a encoding ++ encoding.encode rest := by
  obtain ⟨positive, bounded⟩ := small
  have octet : c.toNat.toUInt8.toNat = c.toNat := toNat_toUInt8 (by omega)
  have above : c.toNat / 0x100 = 0 := by omega
  refine ⟨c.toNat.toUInt8, by omega, by omega, ?_⟩
  rw [encode_cons]
  congr 1
  rcases encoding with _ | ⟨_ | _⟩ | ⟨_ | _⟩
  · simp [Encoding.encode, octetsOfChar, bounded, amongNoughts]
  all_goals
    simp [Encoding.encode, pairsOfChar, amongNoughts, show c.toNat < 0x10000 by omega,
      OctetOrder.unit, octetsOf, above]

/-- The leading octet of a character other than nought is not nought. -/
private theorem octetsOfChar_lead (positive : 0 < d.toNat) :
    ∃ b others, octetsOfChar d = b :: others ∧ b ≠ 0 := by
  have range := code_range d
  have lead : ∀ {n : Nat}, 0 < n → n < 0x100 → n.toUInt8 ≠ 0 := by
    intro n positive small nought
    have octet := toNat_toUInt8 small
    rw [nought] at octet
    exact absurd octet (by simp; omega)
  unfold octetsOfChar
  dsimp only
  split
  · exact ⟨_, _, rfl, lead positive (by omega)⟩
  · split
    · exact ⟨_, _, rfl, lead (by omega) (by omega)⟩
    · split
      · exact ⟨_, _, rfl, lead (by omega) (by omega)⟩
      · exact ⟨_, _, rfl, lead (by omega) (by omega)⟩

/-- The first unit of a character other than nought is not nought. -/
private theorem pairsOfChar_lead (order : OctetOrder) (positive : 0 < d.toNat) :
    ∃ a b others, pairsOfChar order d = a :: b :: others ∧ ¬ (a = 0 ∧ b = 0) := by
  have range := code_range d
  have lead : ∀ {n : Nat}, 0 < n → n < 0x10000 →
      ∃ a b, order.unit 2 n = [a, b] ∧ ¬ (a = 0 ∧ b = 0) := by
    intro n positive small
    obtain ⟨a, b, shape, unit⟩ := exists_unit_two order small
    refine ⟨a, b, shape, ?_⟩
    rintro ⟨rfl, rfl⟩
    cases order <;> exact absurd unit (by simp [pairUnit]; omega)
  unfold pairsOfChar
  dsimp only
  split
  · next single =>
      obtain ⟨a, b, shape, notNought⟩ := lead positive single
      exact ⟨a, b, [], shape, notNought⟩
  · obtain ⟨a, b, shape, notNought⟩ :=
      lead (show 0 < 0xd800 + (d.toNat - 0x10000) / 0x400 by omega) (by omega)
    exact ⟨a, b, _, by rw [shape]; rfl, notNought⟩

/-- No mark starts with an octet of a character of the first block, or with noughts and it. -/
private theorem marked?_encode (small : InFirstBlock c) (encoding : Encoding) (rest : List Char) :
    marked? (encoding.encode (c :: rest)) = none := by
  obtain ⟨a, positive, bounded, shape⟩ := encode_inFirstBlock small encoding rest
  have nonzero : a ≠ 0 := by
    rintro rfl
    exact absurd positive (by decide)
  have other : ∀ mark : UInt8, 0x80 ≤ mark.toNat → a ≠ mark := by
    rintro mark great rfl
    omega
  rw [shape]
  unfold marked?
  split
  case h_6 => rfl
  -- Every mark has an octet beyond the first block where these have the code or a nought.
  all_goals
    next same => rcases encoding with _ | ⟨_ | _⟩ | ⟨_ | _⟩ <;> simp_all [amongNoughts]

private theorem unmarked_of_ne (first : a ≠ 0) (second : b ≠ 0) :
    unmarked (a :: b :: octets) = .octets := by
  rcases octets with _ | ⟨_, _ | ⟨_, _⟩⟩ <;> simp [unmarked, first, second]

/-- The octets that are nought among the first few tell the encoding. -/
theorem unmarked_encode {rest : List Char} (small : InFirstBlock c)
    (goesOn : ∀ d ∈ rest.head?, 0 < d.toNat) (encoding : Encoding) :
    unmarked (encoding.encode (c :: rest)) = encoding := by
  obtain ⟨a, positive, _, shape⟩ := encode_inFirstBlock small encoding rest
  have nonzero : a ≠ 0 := by
    rintro rfl
    exact absurd positive (by decide)
  rw [shape]
  -- Units of four octets tell themselves; for the others the second character is looked at.
  cases encoding with
  | quads order => cases order <;> simp [amongNoughts, unmarked, nonzero]
  | octets =>
      cases rest with
      | nil => rfl
      | cons d others =>
          obtain ⟨b, more, lead, notNought⟩ := octetsOfChar_lead (goesOn d rfl)
          rw [encode_cons, Encoding.encode, List.flatMap_singleton, lead]
          exact unmarked_of_ne nonzero notNought
  | pairs order =>
      cases rest with
      | nil => cases order <;> simp [amongNoughts, unmarked, nonzero, Encoding.encode]
      | cons d others =>
          obtain ⟨x, y, more, lead, notNought⟩ := pairsOfChar_lead order (goesOn d rfl)
          rw [encode_cons, Encoding.encode, List.flatMap_singleton, lead]
          cases order with
          | greatFirst => simp [amongNoughts, unmarked, nonzero]
          | smallFirst => simp [amongNoughts, unmarked, nonzero, notNought]

private theorem textOf?_encode {rest : List Char} (small : InFirstBlock c)
    (goesOn : ∀ d ∈ rest.head?, 0 < d.toNat) (encoding : Encoding) :
    textOf? (encoding.encode (c :: rest)) = some (c :: rest) := by
  unfold textOf?
  rw [marked?_encode small, unmarked_encode small goesOn]
  exact decode?_encode encoding (c :: rest)

end Octets

/-! ## Loading -/

/-- What a text is loaded as, its octets in any encoding are loaded as too. -/
theorem load_encode {s : String} {v : Value} (loaded : load (.text s) = .ok v)
    (encoding : Encoding) : load (.bytes (encoding.encode s.toList)) = .ok v := by
  have isRead := load_text_eq_ok_iff.mp loaded
  obtain ⟨first, others, shape, small, goesOn⟩ := front_of_readWhole isRead
  rw [shape] at isRead ⊢
  show loadOctets _ = _
  unfold loadOctets read
  simp only [textOf?_encode small goesOn, isRead]
  rfl

end Presence.Json

/-! ## Options -/

namespace Presence.Session

open Attempt Json Run

/-- An option is read only from what is loaded. -/
theorem load_of_ofDocument {call : Caller} {source decode kind answer : Value} {world after : World}
    (accepted : (ofDocument call source decode kind).runFrom world = (.ok answer, after)) :
    (∃ v, load source = .ok v) ∧ ∃ o, answer = .option o := by
  unfold ofDocument Optional.ofDocument at accepted
  dsimp only at accepted
  cases loaded : load source with
  | error fault =>
      rw [loaded] at accepted
      cases accepted
  | ok v =>
      refine ⟨⟨v, rfl⟩, ?_⟩
      rw [runFrom_bind] at accepted
      split at accepted
      · cases accepted
        exact ⟨_, rfl⟩
      · cases accepted

/-- The option of a document depends on what is loaded alone. -/
theorem ofDocument_of_same {source other : Value} (same : load source = load other)
    (call : Caller) (decode kind : Value) :
    ofDocument call source decode kind = ofDocument call other decode kind := by
  unfold ofDocument Optional.ofDocument
  rw [same]

/-- The option of a document is read from the octets of its text, in each encoding, as it is from
the text itself: it is the same option, and the world is left the same. -/
theorem performOption_ofDocument_encode {call : Caller} {s : String} {settings : List Value}
    {world after : World} {answer : Value}
    (accepted : (performOption call .ofDocument (.text s :: settings)).runFrom world =
      (.ok answer, after)) (encoding : Text.Encoding) :
    (∃ o, answer = .option o) ∧
      (performOption call .ofDocument (.bytes (encoding.encode s.toList) :: settings)).runFrom
        world = (.ok answer, after) := by
  have carries : ∀ decode kind,
      (ofDocument call (.text s) decode kind).runFrom world = (.ok answer, after) →
      (∃ o, answer = .option o) ∧
        (ofDocument call (.bytes (encoding.encode s.toList)) decode kind).runFrom world =
          (.ok answer, after) := by
    intro decode kind accepted
    obtain ⟨⟨v, loaded⟩, isOption⟩ := load_of_ofDocument accepted
    rw [ofDocument_of_same ((load_encode loaded encoding).trans loaded.symm)]
    exact ⟨isOption, accepted⟩
  rcases settings with _ | ⟨decode, _ | ⟨kind, _ | ⟨_, _⟩⟩⟩
  · exact carries .null .null accepted
  · exact carries decode .null accepted
  · exact carries decode kind accepted
  · cases accepted

/-- Characters beyond the first block and beyond the units of two octets. -/
theorem performOption_ofDocument_encode_pairs :
    (performOption (fun _ _ => fail .badInput) .ofDocument [.text "\"é😀\""]).runFrom
        (.start ⟨[]⟩ ⟨2024, 2, 29, 1, 2, 3, 0⟩) =
      (.ok (.option (.ok (.text "é😀"))), .start ⟨[]⟩ ⟨2024, 2, 29, 1, 2, 3, 0⟩) ∧
    (performOption (fun _ _ => fail .badInput) .ofDocument
        [.bytes [0x22, 0, 0xe9, 0, 0x3d, 0xd8, 0, 0xde, 0x22, 0]]).runFrom
        (.start ⟨[]⟩ ⟨2024, 2, 29, 1, 2, 3, 0⟩) =
      (.ok (.option (.ok (.text "é😀"))), .start ⟨[]⟩ ⟨2024, 2, 29, 1, 2, 3, 0⟩) := by
  have accepted : (performOption (fun _ _ => fail .badInput) .ofDocument
      [.text "\"é😀\""]).runFrom (.start ⟨[]⟩ ⟨2024, 2, 29, 1, 2, 3, 0⟩) =
        (.ok (.option (.ok (.text "é😀"))), .start ⟨[]⟩ ⟨2024, 2, 29, 1, 2, 3, 0⟩) := rfl
  exact ⟨accepted, (performOption_ofDocument_encode accepted (.pairs .smallFirst)).2⟩

end Presence.Session
