import Presence.Text.Encoding.Named

/-!
Contract: octets are read as the text that they were written from.

Owns: reading one octet, unit and character back, in each of the encodings; `decode?_encode`, which
brings them together.

Does not own: which encoding octets are in, where it is not told (`Presence.Proofs.Json.Detection`).

A character is read from its own octets whatever follows them, and the octets after its first one
are passed over.
-/

namespace Presence.Text

/-! ## Octets and units -/

theorem toNat_toUInt8 {n : Nat} (small : n < 0x100) : n.toUInt8.toNat = n :=
  UInt8.toNat_ofNat_of_lt' small

/-- A unit of two octets is read back in either order. -/
theorem exists_unit_two (order : OctetOrder) {n : Nat} (small : n < 0x10000) :
    ∃ a b, order.unit 2 n = [a, b] ∧ pairUnit order a b = n := by
  have low : n.toUInt8.toNat = n % 0x100 := UInt8.toNat_ofNat'
  have high : (n / 0x100).toUInt8.toNat = n / 0x100 := toNat_toUInt8 (by omega)
  cases order with
  | smallFirst =>
      refine ⟨_, _, rfl, ?_⟩
      rw [pairUnit, low, high]
      omega
  | greatFirst =>
      refine ⟨_, _, rfl, ?_⟩
      rw [pairUnit, low, high]
      omega

theorem continuation?_continuationOf (code : Nat) :
    continuation? (continuationOf code) = some (code % 0x40) := by
  have octet : (continuationOf code).toNat = 0x80 + code % 0x40 := toNat_toUInt8 (by omega)
  unfold continuation?
  rw [octet, if_pos (by simp; omega), Nat.add_sub_cancel_left]

/-! ## Characters -/

/-- The codes of characters leave out the halves of pairs. -/
theorem code_range (c : Char) : c.toNat < 0xd800 ∨ (0xdfff < c.toNat ∧ c.toNat < 0x110000) :=
  c.valid

theorem charOrReplacement_toNat (c : Char) : charOrReplacement c.toNat = c := by
  have range := code_range c
  unfold charOrReplacement
  rw [if_neg (by simp; omega), Char.ofNat_toNat]

/-- Octets from which a character is read, whatever follows them. -/
def Reads (encoding : Encoding) (octets : List UInt8) (c : Char) : Prop :=
  ∃ first others, octets = first :: others ∧
    ∀ rest, encoding.front? (first :: (others ++ rest)) = some (c, others.length)

/-! ### One octet a unit

The leading octet tells how many octets the character has. -/

private theorem octetsFront?_one {n : Nat} (small : n < 0x80) (rest : List UInt8) :
    octetsFront? (n.toUInt8 :: rest) = some (Char.ofNat n, 0) := by
  have lead : n.toUInt8.toNat = n := toNat_toUInt8 (by omega)
  unfold octetsFront?
  simp only [lead, if_pos small]

private theorem octetsFront?_two {n : Nat} (least : 0x80 ≤ n) (small : n < 0x800)
    (rest : List UInt8) :
    octetsFront? ((0xc0 + n / 0x40).toUInt8 :: continuationOf n :: rest) =
      some (Char.ofNat n, 1) := by
  have lead : (0xc0 + n / 0x40).toUInt8.toNat = 0xc0 + n / 0x40 := toNat_toUInt8 (by omega)
  have code : (0xc0 + n / 0x40 - 0xc0) * 0x40 + n % 0x40 = n := by omega
  unfold octetsFront?
  simp only [lead]
  rw [if_neg (by omega), if_neg (by omega), if_pos (by omega)]
  refine Option.bind_eq_some_iff.mpr ⟨_, continuation?_continuationOf _, ?_⟩
  simp only [code]
  rfl

private theorem octetsFront?_three {n : Nat} (least : 0x800 ≤ n) (small : n < 0x10000)
    (rest : List UInt8) :
    octetsFront? ((0xe0 + n / 0x1000).toUInt8 :: continuationOf (n / 0x40) :: continuationOf n ::
      rest) = some (charOrReplacement n, 2) := by
  have lead : (0xe0 + n / 0x1000).toUInt8.toNat = 0xe0 + n / 0x1000 := toNat_toUInt8 (by omega)
  have code : (0xe0 + n / 0x1000 - 0xe0) * 0x1000 + n / 0x40 % 0x40 * 0x40 + n % 0x40 = n := by
    omega
  unfold octetsFront?
  simp only [lead]
  rw [if_neg (by omega), if_neg (by omega), if_neg (by omega), if_pos (by omega)]
  refine Option.bind_eq_some_iff.mpr ⟨_, continuation?_continuationOf _, ?_⟩
  refine Option.bind_eq_some_iff.mpr ⟨_, continuation?_continuationOf _, ?_⟩
  simp only [code, if_neg (Nat.not_lt.mpr least)]
  rfl

private theorem octetsFront?_four {n : Nat} (least : 0x10000 ≤ n) (small : n < 0x110000)
    (rest : List UInt8) :
    octetsFront? ((0xf0 + n / 0x40000).toUInt8 :: continuationOf (n / 0x1000) ::
      continuationOf (n / 0x40) :: continuationOf n :: rest) = some (Char.ofNat n, 3) := by
  have lead : (0xf0 + n / 0x40000).toUInt8.toNat = 0xf0 + n / 0x40000 := toNat_toUInt8 (by omega)
  have code : (0xf0 + n / 0x40000 - 0xf0) * 0x40000 + n / 0x1000 % 0x40 * 0x1000
      + n / 0x40 % 0x40 * 0x40 + n % 0x40 = n := by omega
  have inside : (decide (n < 0x10000) || decide (0x110000 ≤ n)) = false := by
    simp
    omega
  unfold octetsFront?
  simp only [lead]
  rw [if_neg (by omega), if_neg (by omega), if_neg (by omega), if_neg (by omega),
    if_pos (by omega)]
  -- One octet at a time: the codes are not compared while they are products.
  refine Option.bind_eq_some_iff.mpr ⟨_, continuation?_continuationOf _, ?_⟩
  refine Option.bind_eq_some_iff.mpr ⟨_, continuation?_continuationOf _, ?_⟩
  refine Option.bind_eq_some_iff.mpr ⟨_, continuation?_continuationOf _, ?_⟩
  simp only [code, inside]
  rfl

private theorem reads_octets (c : Char) : Reads .octets (octetsOfChar c) c := by
  have range := code_range c
  unfold octetsOfChar
  by_cases one : c.toNat < 0x80
  · have front := octetsFront?_one one
    rw [Char.ofNat_toNat] at front
    simp only [if_pos one]
    exact ⟨_, _, rfl, front⟩
  · by_cases two : c.toNat < 0x800
    · have front := octetsFront?_two (Nat.not_lt.mp one) two
      rw [Char.ofNat_toNat] at front
      simp only [if_neg one, if_pos two]
      exact ⟨_, _, rfl, front⟩
    · by_cases three : c.toNat < 0x10000
      · have front := octetsFront?_three (Nat.not_lt.mp two) three
        rw [charOrReplacement_toNat] at front
        simp only [if_neg one, if_neg two, if_pos three]
        exact ⟨_, _, rfl, front⟩
      · have front := octetsFront?_four (Nat.not_lt.mp three) (by omega)
        rw [Char.ofNat_toNat] at front
        simp only [if_neg one, if_neg two, if_neg three]
        exact ⟨_, _, rfl, front⟩

/-! ### Two and four octets a unit -/

private theorem reads_pairs (order : OctetOrder) (c : Char) :
    Reads (.pairs order) (pairsOfChar order c) c := by
  have range := code_range c
  unfold pairsOfChar
  by_cases single : c.toNat < 0x10000
  · obtain ⟨a, b, octets, unit⟩ := exists_unit_two order single
    have alone : ¬ (0xd800 ≤ c.toNat ∧ c.toNat < 0xdc00) := by omega
    simp only [if_pos single, octets]
    refine ⟨a, [b], rfl, fun rest => ?_⟩
    simp only [Encoding.front?, pairsFront?, List.cons_append, List.nil_append, unit,
      charOrReplacement_toNat]
    rw [if_neg (by simpa using alone)]
    rfl
  · -- The two halves of the code above the units are ten bits each.
    obtain ⟨a, b, octets, high⟩ := exists_unit_two order
      (show 0xd800 + (c.toNat - 0x10000) / 0x400 < 0x10000 by omega)
    obtain ⟨d, e, octets', low⟩ := exists_unit_two order
      (show 0xdc00 + (c.toNat - 0x10000) % 0x400 < 0x10000 by omega)
    have whole : 0x10000 + (0xd800 + (c.toNat - 0x10000) / 0x400 - 0xd800) * 0x400
        + (0xdc00 + (c.toNat - 0x10000) % 0x400 - 0xdc00) = c.toNat := by omega
    simp only [if_neg single, octets, octets']
    refine ⟨a, [b, d, e], rfl, fun rest => ?_⟩
    simp only [Encoding.front?, pairsFront?, List.cons_append, List.nil_append, high, low, whole,
      Char.ofNat_toNat]
    rw [if_pos (by simp; omega), if_pos (by simp; omega)]
    rfl

private theorem reads_quads (order : OctetOrder) (c : Char) :
    Reads (.quads order) (order.unit 4 c.toNat) c := by
  have range := code_range c
  have bounded : c.toNat < 0x110000 := by omega
  have octet : ∀ n : Nat, n.toUInt8.toNat = n % 0x100 := fun _ => UInt8.toNat_ofNat'
  have code : (c.toNat / 0x100 / 0x100 / 0x100 % 0x100 * 0x100
      + c.toNat / 0x100 / 0x100 % 0x100) * 0x10000
      + (c.toNat / 0x100 % 0x100 * 0x100 + c.toNat % 0x100) = c.toNat := by omega
  cases order with
  | smallFirst =>
      refine ⟨_, _, rfl, fun rest => ?_⟩
      simp only [Encoding.front?, octetsOf, quadsFront?, List.cons_append, pairUnit, octet, code,
        if_pos bounded, charOrReplacement_toNat]
      rfl
  | greatFirst =>
      refine ⟨_, _, rfl, fun rest => ?_⟩
      simp only [Encoding.front?, quadsFront?, List.cons_append, List.nil_append, pairUnit, octet,
        code, if_pos bounded, charOrReplacement_toNat]
      rfl

/-- Every character is read from its own octets. -/
private theorem reads_encode (encoding : Encoding) (c : Char) :
    Reads encoding (encoding.encode [c]) c := by
  cases encoding with
  | octets => simpa [Encoding.encode] using reads_octets c
  | pairs order => simpa [Encoding.encode] using reads_pairs order c
  | quads order => simpa [Encoding.encode] using reads_quads order c

/-! ## Texts -/

theorem encode_cons (encoding : Encoding) (c : Char) (text : List Char) :
    encoding.encode (c :: text) = encoding.encode [c] ++ encoding.encode text := by
  cases encoding <;> simp [Encoding.encode]

private theorem decodeWith?_passed (front? : List UInt8 → Option (Char × Nat))
    (passed rest : List UInt8) :
    decodeWith? front? passed.length (passed ++ rest) = decodeWith? front? 0 rest := by
  induction passed with
  | nil => rfl
  | cons octet passed inductionHypothesis =>
      rw [List.length_cons, List.cons_append, decodeWith?, inductionHypothesis]

/-- The octets of a text mean that text. -/
theorem decode?_encode (encoding : Encoding) (text : List Char) :
    encoding.decode? (encoding.encode text) = some text := by
  unfold Encoding.decode?
  induction text with
  | nil => cases encoding <;> rfl
  | cons c text inductionHypothesis =>
      obtain ⟨first, others, octets, reads⟩ := reads_encode encoding c
      rw [encode_cons, octets, List.cons_append, decodeWith?, reads]
      simp only [Option.bind_eq_bind, Option.bind_some, decodeWith?_passed, inductionHypothesis]
      rfl

end Presence.Text
