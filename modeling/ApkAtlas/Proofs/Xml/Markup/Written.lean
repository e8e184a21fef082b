import ApkAtlas.Proofs.Text.Utf8
import ApkAtlas.Proofs.Xml.Markup.Tags
import ApkAtlas.Xml.Markup

namespace ApkAtlas.Xml.Markup

/-!
# Documents in writing

A document that opens with the usual declaration and goes on with tags is read as their
tokens. It has no document type, so no entity is replaced and values are texts.
-/

section Entities

theorem mapM_eq_some_map
    {Item Value : Type}
    {items : List Item}
    {step : Item → Option Value}
    (value : Item → Value)
    (each : ∀ item ∈ items, step item = some (value item)) :
    items.mapM step = some (items.map value) := by
  induction items with
  | nil =>
      rfl
  | cons item rest inductionHypothesis =>
      rw [List.mapM_cons, each item List.mem_cons_self,
        inductionHypothesis fun other member => each other (List.mem_cons_of_mem _ member)]
      rfl

theorem flatten_mapM_of_plain
    {Item : Type}
    {items : List Item}
    {step : Item → Option (List Item)}
    (each : ∀ item ∈ items, step item = some [item]) :
    (items.mapM step).map List.flatten = some items := by
  rw [mapM_eq_some_map (fun item => [item]) each, Option.map_some, ← List.flatMap_def,
    List.flatMap_singleton']

variable (doctype : Doctype) (fuel : Nat) (names : List String)

/-- Tokens without entities stay as they are. -/
theorem expandTokens_of_plain
    {tokens : List Token}
    (plain : ∀ token ∈ tokens, ∀ name, token ≠ .entity name) :
    doctype.expandTokens (fuel + 1) names tokens = some tokens := by
  rw [Doctype.expandTokens]
  apply flatten_mapM_of_plain
  intro token member
  cases token with
  | entity name =>
      exact absurd rfl (plain _ member name)
  | char _ | data _ | start _ _ | close _ =>
      rfl

theorem expandPieces_of_plain
    {pieces : List Piece}
    (plain : ∀ piece ∈ pieces, ∀ name, piece ≠ .entity name) :
    doctype.expandPieces (fuel + 1) names pieces = some pieces := by
  rw [Doctype.expandPieces]
  apply flatten_mapM_of_plain
  intro piece member
  cases piece with
  | entity name =>
      exact absurd rfl (plain _ member name)
  | char _ | reference _ =>
      rfl

end Entities

section Header

/-- The usual declaration, behind its opening word and in front of its closing mark. -/
def declared : List Char :=
  " version=\"1.0\" encoding=\"utf-8\"".toList

/-- The usual header. -/
def usual : Header where
  encoding := some "utf-8"

/-- The usual declaration says that the document is in UTF-8. -/
theorem header?_declaration (rest : List Char) :
    header? (declaration.toList ++ rest) = some (usual, declaration.length) := by
  have opening : after? "<?xml".toList (declaration.toList ++ rest) =
      some (declared ++ '?' :: '>' :: rest) := by
    rfl
  have cut : Text.cutAt? "?>".toList (declared ++ '?' :: '>' :: rest) = some (declared, rest) := by
    rfl
  have read : headerOf? declared = some usual := by
    rfl
  have length : (declaration.toList ++ rest).length - rest.length = declaration.length := by
    rw [List.length_append, Nat.add_sub_cancel, String.length_toList]
  rw [header?, opening]
  show (if isSpace ' ' then _ else _) = _
  rw [if_pos (by decide)]
  show ((Text.cutAt? "?>".toList (declared ++ '?' :: '>' :: rest)).bind fun parts =>
    (headerOf? parts.1).bind fun header =>
      some (header, (declaration.toList ++ rest).length - parts.2.length)) = _
  simp only [cut, Option.bind_some, read, length]

/-- The bytes of a document start with the two of its declaration. -/
theorem isWide_encode_declaration (rest : List Char) :
    isWide (Text.Utf8.encode (String.ofList (declaration.toList ++ rest))).toList = false := by
  have opening : declaration.toList = '<' :: '?' :: declaration.toList.drop 2 := by
    decide
  rw [Text.Utf8.toList_encode, String.toList_ofList, opening]
  rfl

/-- The bytes of a document, read as single characters, start like its declaration. -/
theorem headerChars_encode_declaration (rest : List Char) :
    headerChars (Text.Utf8.encode (String.ofList (declaration.toList ++ rest))).toList =
      declaration.toList ++
        (rest.flatMap String.utf8EncodeChar).map fun byte => Char.ofNat byte.toNat := by
  have ascii :
      (declaration.toList.flatMap String.utf8EncodeChar).map
          (fun byte => Char.ofNat byte.toNat) =
        declaration.toList := by
    rfl
  rw [headerChars, isWide_encode_declaration, if_neg (by decide), Text.Utf8.toList_encode,
    String.toList_ofList, List.flatMap_append, List.map_append, ascii]

/-- Behind the usual declaration, a document is read from its characters. -/
theorem decode_declaration (charsets : Charsets) (rest : List Char) :
    decode charsets (Text.Utf8.encode (String.ofList (declaration.toList ++ rest))) =
      orMalformed (ofText? false rest) := by
  have encoding : Encoding.ofName? "utf-8" = some .utf8 := by
    decide +kernel
  have characters :
      usual.decode charsets
          (Text.Utf8.encode (String.ofList (declaration.toList ++ rest))).toList =
        .ok (declaration.toList ++ rest) := by
    rw [Header.decode]
    simp only [usual, encoding, Encoding.decode?, Text.Utf8.decode_encode]
    rw [Except.toOption, Option.map_some, String.toList_ofList, orMalformed]
  rw [decode, headerChars_encode_declaration, header?_declaration]
  change (usual.decode charsets _ >>= fun text =>
    orMalformed (ofText? usual.standalone (text.drop declaration.length))) = _
  rw [characters]
  change orMalformed (ofText? false ((declaration.toList ++ rest).drop declaration.length)) = _
  rw [← String.length_toList, List.drop_left]

end Header

section Prolog

/-- A start tag opens with its name. -/
theorem exists_start_cons
    {tag : Tag}
    (isStart : tag.IsStart)
    (legal : tag.IsLegal) :
    ∃ c inside, tag.text = '<' :: c :: inside ∧ isNameStart c := by
  cases tag with
  | start name assignments closed =>
      obtain ⟨c, more, whole, starts, _⟩ := legal.1.exists_cons
      exact ⟨c, _, by rw [Tag.text, whole]; rfl, starts⟩
  | close _ =>
      cases isStart

/-- Without a document type, the prolog of a document is the line break in front of its root. -/
theorem prolog?_start
    {tag : Tag}
    (isStart : tag.IsStart)
    (legal : tag.IsLegal)
    (standalone : Bool)
    (rest : List Char) :
    prolog? standalone none ('\n' :: (tag.text ++ rest)) = some ({}, tag.text ++ rest) := by
  obtain ⟨c, inside, whole, starts⟩ := exists_start_cons isStart legal
  have notBang : c ≠ '!' := by
    rintro rfl
    exact absurd starts (by decide)
  have notQuestion : c ≠ '?' := by
    rintro rfl
    exact absurd starts (by decide)
  have noDoctype : after? "<!DOCTYPE".toList ('<' :: c :: (inside ++ rest)) = none := by
    simp [after?, notBang.symm]
  rw [whole, List.cons_append, List.cons_append, prolog?]
  have skipped :
      skipSpace ('\n' :: '<' :: c :: (inside ++ rest)) = '<' :: c :: (inside ++ rest) := by
    rfl
  simp only [skipped, afterAside?_of_ne ⟨notBang, notQuestion⟩, noDoctype]
  rfl

end Prolog

section Documents

theorem ne_entity_of_mem_tokens
    {mark : Mark}
    {token : Token}
    (member : token ∈ mark.tokens)
    (name : String) :
    token ≠ .entity name := by
  rw [Mark.tokens, List.mem_append, List.mem_map, List.mem_singleton] at member
  rcases member with ⟨c, _, rfl⟩ | rfl
  · rw [tokenOf]
    split <;> rintro ⟨⟩
  · cases mark.tag <;> rintro ⟨⟩

/-- Tags in writing are read as the tree that their tokens make up. -/
theorem ofText?_marks
    {first : Tag}
    {marks : List Mark}
    (isStart : first.IsStart)
    (legal : ∀ mark ∈ ⟨[], first⟩ :: marks, mark.tag.IsLegal)
    (chars : ∀ c ∈ first.text ++ marks.flatMap Mark.text, isXmlChar c) :
    ofText? false ('\n' :: (first.text ++ marks.flatMap Mark.text)) =
      root? {} ((⟨[], first⟩ :: marks).flatMap fun mark => mark.normalize.tokens) := by
  have legalFirst : first.normalize.IsLegal :=
    Mark.isLegal_normalize (legal _ List.mem_cons_self)
  have legalRead : ∀ mark ∈ (⟨[], first⟩ :: marks).map Mark.normalize, mark.tag.IsLegal := by
    intro mark member
    obtain ⟨original, inMarks, rfl⟩ := List.mem_map.mp member
    exact Mark.isLegal_normalize (legal original inMarks)
  have broken :
      normalizeBreaks ('\n' :: (first.text ++ marks.flatMap Mark.text)) =
        '\n' :: ((⟨[], first⟩ :: marks).map Mark.normalize).flatMap Mark.text := by
    rw [← normalizeBreaks_marks legal]
    exact normalizeBreaks_append_of_not_mem (show '\r' ∉ ['\n'] by decide) _
  have allChars : ('\n' :: (first.text ++ marks.flatMap Mark.text)).all isXmlChar = true := by
    rw [List.all_cons, List.all_eq_true.mpr chars]
    rfl
  have prolog :
      prolog? false none
          ('\n' :: ((⟨[], first⟩ :: marks).map Mark.normalize).flatMap Mark.text) =
        some ({}, ((⟨[], first⟩ :: marks).map Mark.normalize).flatMap Mark.text) := by
    refine prolog?_start ?_ legalFirst false _
    cases first with
    | start _ _ _ =>
        trivial
    | close _ =>
        exact isStart
  have expanded :
      Doctype.expandTokens {} (Doctype.depth {}) []
          (((⟨[], first⟩ :: marks).map Mark.normalize).flatMap Mark.tokens) =
        some (((⟨[], first⟩ :: marks).map Mark.normalize).flatMap Mark.tokens) := by
    apply expandTokens_of_plain
    intro token member name
    obtain ⟨mark, _, inMark⟩ := List.mem_flatMap.mp member
    exact ne_entity_of_mem_tokens inMark name
  rw [ofText?, allChars, broken, prolog]
  simp only [Bool.not_true, Bool.false_eq_true, if_false, Option.bind_eq_bind, Option.bind_some,
    tokens?_marks legalRead, expanded]
  rw [List.flatMap_map]

end Documents

end ApkAtlas.Xml.Markup
