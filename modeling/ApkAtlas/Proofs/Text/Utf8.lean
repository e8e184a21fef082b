import ApkAtlas.Proofs.Except
import ApkAtlas.Text.Utf8
import Mathlib.Tactic

namespace ApkAtlas.Text.Utf8

/-!
# What UTF-8 writes is read back

A character is written as one to four bytes, by its code point. The first byte announces how
many more follow, and each of them holds six bits. The bounds on the second byte leave one way
to write a character, so that nothing but what is written for a text is read as one.
-/

open String (utf8EncodeChar)

/-- What the first byte announces, by its number. -/
theorem lead?_eq (first : UInt8) :
    lead? first =
      let code := first.toNat
      if code ≤ 0x7F then some ⟨0, 0x80, 0xBF, code⟩
      else if 0xC2 ≤ code ∧ code ≤ 0xDF then some ⟨1, 0x80, 0xBF, code - 0xC0⟩
      else if code = 0xE0 then some ⟨2, 0xA0, 0xBF, 0⟩
      else if code = 0xED then some ⟨2, 0x80, 0x9F, 0xD⟩
      else if 0xE1 ≤ code ∧ code ≤ 0xEF then some ⟨2, 0x80, 0xBF, code - 0xE0⟩
      else if code = 0xF0 then some ⟨3, 0x90, 0xBF, 0⟩
      else if 0xF1 ≤ code ∧ code ≤ 0xF3 then some ⟨3, 0x80, 0xBF, code - 0xF0⟩
      else if code = 0xF4 then some ⟨3, 0x80, 0x8F, 4⟩
      else none := by
  simp only [lead?, UInt8.le_iff_toNat_le, ← UInt8.toNat_inj, UInt8.toNat_ofNat]

/-- A byte in its range is one of those that follow a first byte. -/
theorem tails_cons
    {low high byte : UInt8}
    (least : low ≤ byte)
    (greatest : byte ≤ high)
    (count : Nat)
    (rest : List UInt8) :
    tails low high (count + 1) (byte :: rest) = byte :: tails 0x80 0xBF count rest := by
  rw [tails, if_pos ⟨least, greatest⟩]

theorem tails_zero (low high : UInt8) (rest : List UInt8) : tails low high 0 rest = [] := by
  rw [tails]
  rintro _ _ _ ⟨⟩

theorem toNat_ofNat {code : Nat} (small : code < 256) : (UInt8.ofNat code).toNat = code := by
  rw [UInt8.toNat_ofNat', Nat.mod_eq_of_lt small]

/-- A byte between the bounds may follow in a character. -/
theorem tails_ofNat
    (low high : Nat)
    {code : Nat}
    (least : low ≤ code)
    (greatest : code ≤ high)
    (small : high < 256)
    (count : Nat)
    (rest : List UInt8) :
    tails (UInt8.ofNat low) (UInt8.ofNat high) (count + 1) (UInt8.ofNat code :: rest) =
      UInt8.ofNat code :: tails 0x80 0xBF count rest := by
  apply tails_cons
  · rwa [UInt8.le_iff_toNat_le, toNat_ofNat (by omega), toNat_ofNat (by omega)]
  · rwa [UInt8.le_iff_toNat_le, toNat_ofNat (by omega), toNat_ofNat small]

/-- A byte that holds six bits may follow behind the second one. -/
theorem tails_bits
    (bits count : Nat)
    (rest : List UInt8) :
    tails 0x80 0xBF (count + 1) (UInt8.ofNat (bits % 64 + 128) :: rest) =
      UInt8.ofNat (bits % 64 + 128) :: tails 0x80 0xBF count rest :=
  tails_ofNat 0x80 0xBF (by omega) (by omega) (by omega) count rest

/-- A first byte with the following bytes that it announces is a character. -/
theorem first_eq_char
    {byte : UInt8}
    {more rest : List UInt8}
    {c : Char}
    (lead : Lead)
    (announced : lead? byte = some lead)
    (body : tails lead.low lead.high lead.count (more ++ rest) = more)
    (count : more.length = lead.count)
    (code : codePoint lead.bits more = c.toNat) :
    first byte (more ++ rest) = (.char c, more.length) := by
  simp only [first, announced, body, code, Char.ofNat_toNat, count, if_true]

/-- The code point of two following bytes. -/
theorem codePoint_two {bits second third : Nat} :
    codePoint bits [UInt8.ofNat (second % 64 + 128), UInt8.ofNat (third % 64 + 128)] =
      (bits * 64 + second % 64) * 64 + third % 64 := by
  simp only [codePoint, List.foldl_cons, List.foldl_nil]
  rw [toNat_ofNat (by omega), toNat_ofNat (by omega)]
  omega

/-- The code point of three following bytes. -/
theorem codePoint_three {bits second third fourth : Nat} :
    codePoint bits
        [UInt8.ofNat (second % 64 + 128), UInt8.ofNat (third % 64 + 128),
          UInt8.ofNat (fourth % 64 + 128)] =
      ((bits * 64 + second % 64) * 64 + third % 64) * 64 + fourth % 64 := by
  simp only [codePoint, List.foldl_cons, List.foldl_nil]
  rw [toNat_ofNat (by omega), toNat_ofNat (by omega), toNat_ofNat (by omega)]
  omega

/-- The second of three bytes is between the bounds that the first one announces, if they
write neither a long form nor a surrogate. -/
theorem exists_lead_of_three
    {bits : Nat}
    (second : Nat)
    (small : bits < 16)
    (short : bits = 0 → 0xA0 ≤ second)
    (between : 0x80 ≤ second ∧ second ≤ 0xBF ∧ (bits = 13 → second ≤ 0x9F)) :
    ∃ low high : Nat,
      lead? (UInt8.ofNat (bits + 224)) = some ⟨2, UInt8.ofNat low, UInt8.ofNat high, bits⟩ ∧
        low ≤ second ∧ second ≤ high ∧ high < 256 := by
  obtain ⟨least, greatest, plain⟩ := between
  rw [lead?_eq, toNat_ofNat (by omega)]
  have shift : bits + 224 - 0xE0 = bits := by
    omega
  simp only [shift]
  rw [if_neg (by omega), if_neg (by omega)]
  by_cases long : bits = 0
  · rw [if_pos (by omega), long]
    exact ⟨0xA0, 0xBF, rfl, short long, greatest, by decide⟩
  · rw [if_neg (by omega)]
    by_cases surrogate : bits = 13
    · rw [if_pos (by omega), surrogate]
      exact ⟨0x80, 0x9F, rfl, least, plain surrogate, by decide⟩
    · rw [if_neg (by omega), if_pos (by omega)]
      exact ⟨0x80, 0xBF, rfl, least, greatest, by decide⟩

/-- The second of four bytes is between the bounds that the first one announces, if they
write neither a long form nor a code point past the last plane. -/
theorem exists_lead_of_four
    {bits : Nat}
    (second : Nat)
    (small : bits < 5)
    (short : bits = 0 → 0x90 ≤ second)
    (between : 0x80 ≤ second ∧ second ≤ 0xBF ∧ (bits = 4 → second ≤ 0x8F)) :
    ∃ low high : Nat,
      lead? (UInt8.ofNat (bits + 240)) = some ⟨3, UInt8.ofNat low, UInt8.ofNat high, bits⟩ ∧
        low ≤ second ∧ second ≤ high ∧ high < 256 := by
  obtain ⟨least, greatest, inPlanes⟩ := between
  rw [lead?_eq, toNat_ofNat (by omega)]
  have shift : bits + 240 - 0xF0 = bits := by
    omega
  simp only [shift]
  rw [if_neg (by omega), if_neg (by omega), if_neg (by omega), if_neg (by omega),
    if_neg (by omega)]
  by_cases long : bits = 0
  · rw [if_pos (by omega), long]
    exact ⟨0x90, 0xBF, rfl, short long, greatest, by decide⟩
  · rw [if_neg (by omega)]
    by_cases last : bits = 4
    · rw [if_neg (by omega), if_pos (by omega), last]
      exact ⟨0x80, 0x8F, rfl, least, inPlanes last, by decide⟩
    · rw [if_pos (by omega)]
      exact ⟨0x80, 0xBF, rfl, least, greatest, by decide⟩

/-- A character is read from its bytes, whatever follows. -/
theorem first_utf8EncodeChar (c : Char) (rest : List UInt8) :
    ∃ byte more, utf8EncodeChar c = byte :: more ∧
      first byte (more ++ rest) = (.char c, more.length) := by
  have code : c.val.toNat = c.toNat := rfl
  have valid : c.toNat < 0xD800 ∨ 0xDFFF < c.toNat ∧ c.toNat < 0x110000 := c.valid
  simp only [utf8EncodeChar, code]
  generalize known : c.toNat = v at valid
  -- One case for each number of bytes; surrogates have no character, so `valid` excludes them.
  split_ifs with one two three
  · refine ⟨_, _, rfl, first_eq_char ⟨0, 0x80, 0xBF, v⟩ ?_ ?_ rfl ?_⟩
    · rw [lead?_eq, toNat_ofNat (by omega), if_pos one]
    · rw [tails_zero]
    · exact known.symm
  · have bits : v / 64 % 32 + 192 - 0xC0 = v / 64 := by
      omega
    refine ⟨_, _, rfl, first_eq_char ⟨1, 0x80, 0xBF, v / 64⟩ ?_ ?_ rfl ?_⟩
    · rw [lead?_eq, toNat_ofNat (by omega)]
      simp only [bits]
      rw [if_neg (by omega), if_pos (by omega)]
    · rw [List.cons_append, tails_bits, tails_zero]
    · simp only [codePoint, List.foldl_cons, List.foldl_nil]
      rw [toNat_ofNat (by omega), known]
      omega
  · have small : v / 4096 < 16 := by
      omega
    rw [Nat.mod_eq_of_lt small]
    obtain ⟨low, high, announced, least, greatest, inByte⟩ :=
      exists_lead_of_three (v / 64 % 64 + 128) small (by omega) (by omega)
    refine ⟨_, _, rfl,
      first_eq_char ⟨2, UInt8.ofNat low, UInt8.ofNat high, v / 4096⟩ announced ?_ rfl ?_⟩
    · rw [List.cons_append, List.cons_append, tails_ofNat low high least greatest inByte,
        tails_bits, tails_zero]
    · rw [codePoint_two, known]
      dsimp only
      omega
  · have small : v / 262144 < 5 := by
      omega
    rw [Nat.mod_eq_of_lt (by omega)]
    obtain ⟨low, high, announced, least, greatest, inByte⟩ :=
      exists_lead_of_four (v / 4096 % 64 + 128) small (by omega) (by omega)
    refine ⟨_, _, rfl,
      first_eq_char ⟨3, UInt8.ofNat low, UInt8.ofNat high, v / 262144⟩ announced ?_ rfl ?_⟩
    · rw [List.cons_append, List.cons_append, List.cons_append,
        tails_ofNat low high least greatest inByte, tails_bits, tails_bits, tails_zero]
    · rw [codePoint_three, known]
      dsimp only
      omega

/-- Characters are read one by one. -/
theorem pieces_utf8EncodeChar (c : Char) (rest : List UInt8) :
    pieces (utf8EncodeChar c ++ rest) = .char c :: pieces rest := by
  obtain ⟨byte, more, written, read⟩ := first_utf8EncodeChar c rest
  rw [written, List.cons_append, pieces, read, List.drop_left]

/-- Encoded characters are taken apart as characters. -/
theorem pieces_flatMap (text : List Char) :
    pieces (text.flatMap utf8EncodeChar) = text.map .char := by
  induction text with
  | nil =>
      rw [List.flatMap_nil, pieces]
      rfl
  | cons c rest inductionHypothesis =>
      rw [List.flatMap_cons, pieces_utf8EncodeChar, inductionHypothesis, List.map_cons]

/-- Pieces that are characters make a text. -/
theorem charsOfPieces_map_char (position : Nat) (text : List Char) :
    charsOfPieces position (text.map .char) = .ok text := by
  induction text generalizing position with
  | nil =>
      rfl
  | cons c rest inductionHypothesis =>
      rw [List.map_cons, charsOfPieces, inductionHypothesis]
      rfl

/-- A text is encoded character by character. -/
theorem toList_encode (text : String) :
    (encode text).toList = text.toList.flatMap utf8EncodeChar := by
  rw [encode, ← String.ofList_toList (s := text), String.toUTF8, String.toByteArray_ofList,
    List.utf8Encode, List.data_toByteArray, String.toList_ofList]

/-- An encoded text is decoded as it was. -/
theorem decode_encode (text : String) : decode (encode text).toList = .ok text := by
  rw [decode, toList_encode, pieces_flatMap, charsOfPieces_map_char]
  exact congrArg Except.ok String.ofList_toList

/-- An encoded text loses nothing where bytes that are no text are replaced. -/
theorem decodeLossy_encode (text : String) : decodeLossy (encode text).toList = text := by
  have plain : Piece.toChar ∘ .char = id := rfl
  rw [decodeLossy, toList_encode, pieces_flatMap, List.map_map, plain, List.map_id,
    String.ofList_toList]

/-- The bytes that continue a character, where none is missing: the second one lies between the
bounds and each further one holds six bits. -/
theorem exists_of_length_tails
    {low high : UInt8}
    {count : Nat}
    {rest : List UInt8}
    (full : (tails low high (count + 1) rest).length = count + 1) :
    ∃ byte more, rest = byte :: more ∧ (low.toNat ≤ byte.toNat ∧ byte.toNat ≤ high.toNat) ∧
      tails low high (count + 1) rest = byte :: tails 0x80 0xBF count more ∧
      (tails 0x80 0xBF count more).length = count := by
  cases rest with
  | nil =>
      simp [tails] at full
  | cons byte more =>
      by_cases between : low ≤ byte ∧ byte ≤ high
      · have taken := tails_cons between.1 between.2 count more
        rw [taken, List.length_cons, Nat.add_right_cancel_iff] at full
        exact ⟨byte, more, rfl, between, taken, full⟩
      · rw [tails, if_neg between] at full
        cases full

/-- What a first byte announces. -/
theorem bounds_of_lead?
    {byte : UInt8}
    {lead : Lead}
    (announced : lead? byte = some lead) :
    lead.count = 0 ∧ byte.toNat = lead.bits ∧ lead.bits < 0x80 ∨
      (0x80 ≤ lead.low.toNat ∧ lead.high.toNat ≤ 0xBF) ∧
        (lead.count = 1 ∧ byte.toNat = lead.bits + 0xC0 ∧ 2 ≤ lead.bits ∧ lead.bits < 32 ∨
          lead.count = 2 ∧ byte.toNat = lead.bits + 0xE0 ∧ lead.bits < 16 ∧
            (lead.bits = 0 → 0xA0 ≤ lead.low.toNat) ∧
            (lead.bits = 13 → lead.high.toNat ≤ 0x9F) ∨
          lead.count = 3 ∧ byte.toNat = lead.bits + 0xF0 ∧ lead.bits < 5 ∧
            (lead.bits = 0 → 0x90 ≤ lead.low.toNat) ∧
            (lead.bits = 4 → lead.high.toNat ≤ 0x8F)) := by
  rw [lead?_eq] at announced
  dsimp only at announced
  generalize byte.toNat = code at announced
  split_ifs at announced <;> cases announced <;> simp <;> omega

/-- A code point that is no surrogate is that of its character. -/
theorem val_ofNat
    {code : Nat}
    (valid : code < 0xD800 ∨ 0xDFFF < code ∧ code < 0x110000) :
    (Char.ofNat code).val.toNat = code := by
  have isValid : code.isValidChar := valid
  rw [Char.ofNat, dif_pos isValid]
  rfl

theorem ofNat_eq {code : Nat} {byte : UInt8} (same : byte.toNat = code) :
    UInt8.ofNat code = byte := by
  rw [← same, UInt8.ofNat_toNat]

/-- A character is written as the bytes that it was read from. -/
theorem utf8EncodeChar_of_first
    {byte : UInt8}
    {rest : List UInt8}
    {c : Char}
    (isChar : (first byte rest).1 = .char c) :
    utf8EncodeChar c ++ rest.drop (first byte rest).2 = byte :: rest := by
  cases announced : lead? byte with
  | none =>
      simp [first, announced] at isChar
  | some lead =>
  by_cases full : (tails lead.low lead.high lead.count rest).length = lead.count
  case neg =>
    simp only [first, announced, if_neg full] at isChar
    split at isChar <;> cases isChar
  simp only [first, announced, if_pos full] at isChar ⊢
  cases isChar
  have bounds := bounds_of_lead? announced
  obtain ⟨count, low, high, bits⟩ := lead
  dsimp only at full bounds ⊢
  -- One case for each number of bytes that follow.
  obtain ⟨rfl, isLead, _⟩ | ⟨_, ⟨rfl, isLead, _⟩ | ⟨rfl, isLead, _⟩ | ⟨rfl, isLead, _⟩⟩ := bounds
  · rw [tails_zero, codePoint, List.foldl_nil, utf8EncodeChar]
    simp only [val_ofNat (.inl (by omega : bits < 0xD800))]
    rw [if_pos (by omega), ofNat_eq isLead]
    rfl
  · obtain ⟨second, after, rfl, between, taken, _⟩ := exists_of_length_tails full
    rw [taken, tails_zero, codePoint, List.foldl_cons, List.foldl_nil, utf8EncodeChar]
    generalize known : bits * 64 + (second.toNat - 0x80) = code
    have isFirst : byte.toNat = code / 64 % 32 + 192 := by
      omega
    have isSecond : second.toNat = code % 64 + 128 := by
      omega
    simp only [val_ofNat (.inl (by omega : code < 0xD800))]
    rw [if_neg (by omega), if_pos (by omega), ofNat_eq isFirst, ofNat_eq isSecond]
    rfl
  · obtain ⟨second, after, rfl, between, taken, full⟩ := exists_of_length_tails full
    obtain ⟨third, after, rfl, betweenToo, takenToo, _⟩ := exists_of_length_tails full
    rw [taken, takenToo, tails_zero, codePoint, List.foldl_cons, List.foldl_cons, List.foldl_nil,
      utf8EncodeChar]
    simp only [UInt8.toNat_ofNat, Nat.reducePow, Nat.reduceMod] at betweenToo
    generalize known : (bits * 64 + (second.toNat - 0x80)) * 64 + (third.toNat - 0x80) = code
    have isFirst : byte.toNat = code / 4096 % 16 + 224 := by
      omega
    have isSecond : second.toNat = code / 64 % 64 + 128 := by
      omega
    have isThird : third.toNat = code % 64 + 128 := by
      omega
    have valid : code < 0xD800 ∨ 0xDFFF < code ∧ code < 0x110000 := by
      omega
    simp only [val_ofNat valid]
    rw [if_neg (by omega), if_neg (by omega), if_pos (by omega), ofNat_eq isFirst,
      ofNat_eq isSecond, ofNat_eq isThird]
    rfl
  · obtain ⟨second, after, rfl, between, taken, full⟩ := exists_of_length_tails full
    obtain ⟨third, after, rfl, betweenToo, takenToo, full⟩ := exists_of_length_tails full
    obtain ⟨fourth, after, rfl, betweenLast, takenLast, _⟩ := exists_of_length_tails full
    rw [taken, takenToo, takenLast, tails_zero, codePoint, List.foldl_cons, List.foldl_cons,
      List.foldl_cons, List.foldl_nil, utf8EncodeChar]
    simp only [UInt8.toNat_ofNat, Nat.reducePow, Nat.reduceMod] at betweenToo betweenLast
    generalize known :
      ((bits * 64 + (second.toNat - 0x80)) * 64 + (third.toNat - 0x80)) * 64 +
        (fourth.toNat - 0x80) = code
    have isFirst : byte.toNat = code / 262144 % 8 + 240 := by
      omega
    have isSecond : second.toNat = code / 4096 % 64 + 128 := by
      omega
    have isThird : third.toNat = code / 64 % 64 + 128 := by
      omega
    have isFourth : fourth.toNat = code % 64 + 128 := by
      omega
    simp only [val_ofNat (.inr (by omega : 0xDFFF < code ∧ code < 0x110000))]
    rw [if_neg (by omega), if_neg (by omega), if_neg (by omega), ofNat_eq isFirst,
      ofNat_eq isSecond, ofNat_eq isThird, ofNat_eq isFourth]
    rfl

/-- Bytes that are a text are its encoding. -/
theorem flatMap_of_charsOfPieces
    {position : Nat}
    {bytes : List UInt8}
    {text : List Char}
    (isText : charsOfPieces position (pieces bytes) = .ok text) :
    text.flatMap utf8EncodeChar = bytes := by
  induction bytes using pieces.induct generalizing position text with
  | case1 =>
      rw [pieces] at isText
      cases isText
      rfl
  | case2 byte rest inductionHypothesis =>
      rw [pieces] at isText
      cases isChar : (first byte rest).1 with
      | bad fault bytes =>
          rw [isChar, charsOfPieces] at isText
          cases isText
      | char c =>
          rw [isChar, charsOfPieces] at isText
          obtain ⟨more, restIsText, same⟩ := exists_of_bind_eq_ok isText
          cases same
          rw [List.flatMap_cons, inductionHypothesis restIsText, utf8EncodeChar_of_first isChar]

/-- Bytes are read as a text exactly if they are what is written for it. -/
theorem decode_eq_ok_iff
    {bytes : Bytes}
    {text : String} :
    decode bytes.toList = .ok text ↔ bytes = encode text := by
  constructor
  · intro isText
    obtain ⟨chars, isChars, rfl⟩ := exists_of_map_eq_ok isText
    rw [← Array.toList_inj, toList_encode, String.toList_ofList, flatMap_of_charsOfPieces isChars]
  · rintro rfl
    exact decode_encode text

end ApkAtlas.Text.Utf8
