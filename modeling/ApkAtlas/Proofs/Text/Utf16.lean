import ApkAtlas.Text.Utf16

namespace ApkAtlas.Text.Utf16

/-!
# Writing UTF-16

A character is one unit, or two halves of a pair beyond the first 65536 characters. What is
written is read back, because no character lies in the surrogate range.
-/

/-- The units of a character. -/
def unitsOf (c : Char) : List Nat :=
  if c.toNat < 0x10000 then
    [c.toNat]
  else
    [0xD800 + (c.toNat - 0x10000) / 0x400, 0xDC00 + (c.toNat - 0x10000) % 0x400]

/-- The units of a text. -/
def encodeUnits (text : String) : List Nat :=
  text.toList.flatMap unitsOf

/-- The bytes of units, low byte first. -/
def bytesOf (units : List Nat) : List UInt8 :=
  units.flatMap fun unit => [UInt8.ofNat unit, UInt8.ofNat (unit / 256)]

/-- The bytes of a text. -/
def encode (text : String) : List UInt8 :=
  bytesOf (encodeUnits text)

theorem length_bytesOf (units : List Nat) : (bytesOf units).length = units.length * 2 := by
  induction units with
  | nil =>
      rfl
  | cons unit rest inductionHypothesis =>
      simp only [bytesOf, List.flatMap_cons, List.length_append, List.length_cons, List.length_nil]
        at inductionHypothesis ⊢
      omega

theorem length_encode (text : String) : (encode text).length = (encodeUnits text).length * 2 :=
  length_bytesOf _

/-- Units that are written are read back. -/
theorem units_bytesOf
    {written : List Nat}
    (fit : ∀ unit ∈ written, unit < 0x10000) :
    units (bytesOf written) = written := by
  induction written with
  | nil =>
      rfl
  | cons unit rest inductionHypothesis =>
      have later :=
        inductionHypothesis fun other member => fit other (List.mem_cons_of_mem _ member)
      have bound := fit unit List.mem_cons_self
      simp only [bytesOf, List.flatMap_cons, List.cons_append, List.nil_append, units,
        UInt8.toNat_ofNat'] at later ⊢
      rw [later]
      congr 1
      omega

/-- A unit that is no half of a pair is a character. -/
theorem ofUnits_cons
    {unit : Nat}
    (notHigh : isHigh unit = false)
    (notLow : isLow unit = false)
    (rest : List Nat) :
    ofUnits (unit :: rest) = Char.ofNat unit :: ofUnits rest := by
  cases rest with
  | nil =>
      simp [ofUnits, notHigh, notLow]
  | cons next others =>
      simp [ofUnits, notHigh, notLow]

/-- Two halves are one character. -/
theorem ofUnits_pair
    {high low : Nat}
    (isFirst : isHigh high = true)
    (isSecond : isLow low = true)
    (rest : List Nat) :
    ofUnits (high :: low :: rest) = pair high low :: ofUnits rest := by
  simp [ofUnits, isFirst, isSecond]

theorem toNat_valid (c : Char) :
    c.toNat < 0xD800 ∨ (0xDFFF < c.toNat ∧ c.toNat < 0x110000) :=
  c.valid

/-- A text has at most two units for each character. -/
theorem length_encodeUnits_le (text : String) :
    (encodeUnits text).length ≤ text.toList.length * 2 := by
  rw [encodeUnits]
  induction text.toList with
  | nil =>
      exact Nat.le_refl 0
  | cons c rest inductionHypothesis =>
      have first : (unitsOf c).length ≤ 2 := by
        rw [unitsOf]
        split <;> simp
      rw [List.flatMap_cons, List.length_append, List.length_cons]
      omega

/-- The units of a character fit into two bytes. -/
theorem unitsOf_lt (c : Char) : ∀ unit ∈ unitsOf c, unit < 0x10000 := by
  have valid := toNat_valid c
  intro unit member
  rw [unitsOf] at member
  split at member
  · simp only [List.mem_singleton] at member
    omega
  · simp only [List.mem_cons, List.not_mem_nil, or_false] at member
    omega

/-- The units of a character are read back, whatever follows. -/
theorem ofUnits_append (c : Char) (rest : List Nat) :
    ofUnits (unitsOf c ++ rest) = c :: ofUnits rest := by
  have valid := toNat_valid c
  rw [unitsOf]
  split
  · rename_i single
    have notHigh : isHigh c.toNat = false := by
      simp only [isHigh, Bool.and_eq_false_iff, decide_eq_false_iff_not]
      omega
    have notLow : isLow c.toNat = false := by
      simp only [isLow, Bool.and_eq_false_iff, decide_eq_false_iff_not]
      omega
    rw [List.singleton_append, ofUnits_cons notHigh notLow, Char.ofNat_toNat]
  · rename_i double
    have isFirst : isHigh (0xD800 + (c.toNat - 0x10000) / 0x400) = true := by
      simp only [isHigh, Bool.and_eq_true, decide_eq_true_eq]
      omega
    have isSecond : isLow (0xDC00 + (c.toNat - 0x10000) % 0x400) = true := by
      simp only [isLow, Bool.and_eq_true, decide_eq_true_eq]
      omega
    have whole :
        0x10000 + (0xD800 + (c.toNat - 0x10000) / 0x400 - 0xD800) * 0x400 +
          (0xDC00 + (c.toNat - 0x10000) % 0x400 - 0xDC00) = c.toNat := by
      omega
    rw [List.cons_append, List.singleton_append, ofUnits_pair isFirst isSecond, pair, whole,
      Char.ofNat_toNat]

/-- A text that was written in UTF-16 is read back. -/
theorem decodeLossy_encode (text : String) : decodeLossy (encode text) = text := by
  have fit : ∀ unit ∈ encodeUnits text, unit < 0x10000 := by
    intro unit member
    obtain ⟨c, _, ofC⟩ := List.mem_flatMap.mp member
    exact unitsOf_lt c unit ofC
  have characters (chars : List Char) : ofUnits (chars.flatMap unitsOf) = chars := by
    induction chars with
    | nil =>
        rfl
    | cons c rest inductionHypothesis =>
        rw [List.flatMap_cons, ofUnits_append, inductionHypothesis]
  rw [decodeLossy, encode, units_bytesOf fit, encodeUnits, characters, String.ofList_toList]

end ApkAtlas.Text.Utf16
