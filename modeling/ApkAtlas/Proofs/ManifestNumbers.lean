import ApkAtlas.Manifest
import ApkAtlas.Platform.Builtin
import ApkAtlas.Proofs.Chunk.Tiling
import ApkAtlas.Proofs.ValueNumbers
import ApkAtlas.Proofs.Xml.Balance
import ApkAtlas.Proofs.Xml.RoundTrip

namespace ApkAtlas

/-!
# Numbers in compiled manifests

The versions of a manifest are written as texts when it is decoded and read as integers from
these texts again. The typed value of the attribute survives the detour.
-/

namespace Xml

open Chunk
open ApkAtlas.Delimiter (level)
open ApkAtlas.Xml.Part (attributeBehind delimiters described known opened starts)

/-- The first record of the element started at a position that is of a platform attribute. -/
def Part.platformRecord?
    (parts : List Part)
    (position : Nat)
    (name : String) :
    Option RawAttribute :=
  match parts[position]? with
  | some (.startElement _ _ attributes) =>
      attributes.find? fun raw =>
        let attr := attributeBehind (parts.take position) raw
        attr.name == name && attr.namespaceUri == androidNamespace
  | _ => none

/-- The platform attribute of an element is that of its record, decoded behind the parts before. -/
theorem Part.attribute?_described
    (parts : List Part)
    (position : Nat)
    (name : String) :
    (described parts position).attribute? name =
      (platformRecord? parts position name).map fun raw =>
        (attributeBehind (parts.take position) raw).value := by
  have same : (described parts position).attributes = (opened parts position).attributes :=
    rfl
  rw [Element.attribute?, Element.attributeIn?, same, opened, platformRecord?]
  cases parts[position]? with
  | none =>
      rfl
  | some part =>
      cases part with
      | startElement line nameIndex attributes =>
          dsimp only
          rw [List.find?_map, Option.map_map]
          rfl
      | strings _ | resourceIds _ | startNamespace _ _ | endNamespace _ | endElement | text _
      | unknown =>
          rfl

section Compiled

variable {document : SourceDocument} {buffer : Bytes} {pool : List String}

/-- The chunks of nodes say what the nodes say. -/
theorem mapM_read_nodes
    {headers : List Header}
    {nodes : List Node}
    (covers :
      List.Forall₂ (fun header node => header.Covers buffer (node.compose pool)) headers nodes)
    (fits : ∀ node ∈ nodes, node.Fits pool) :
    headers.mapM (Part.read buffer) = .ok (nodes.map (Node.part pool)) := by
  induction covers with
  | nil =>
      rfl
  | cons first _ inductionHypothesis =>
      obtain ⟨firstFits, restFits⟩ := List.forall_mem_cons.mp fits
      rw [List.mapM_cons, Node.read_eq first firstFits, inductionHypothesis restFits]
      rfl

/-- The parts of a compiled document are its strings and what its nodes say. -/
theorem SourceDocument.readParts_compile (compilable : document.Compilable) :
    Document.readParts document.compile =
      .ok (.strings document.decoded.pool :: document.nodes.map (Node.part document.pool)) := by
  have whole :
      document.compile.toList = [] ++ document.compose.bytes ++ [] := by
    simp [SourceDocument.compile]
  obtain ⟨header, read, _, covers⟩ := readHeader_composed compilable.compose_fits whole
  replace read : readHeader document.compile 0 = .ok header := read
  obtain ⟨headers, children, placed⟩ :=
    covers.exists_children rfl fun _ member => compilable.chunk_fits member
  obtain ⟨poolHeader, nodeHeaders, poolCovers, nodeCovers, rfl⟩ :=
    List.forall₂_cons_right_iff.mp placed
  have nodesRead :=
    mapM_read_nodes (List.forall₂_map_right_iff.mp nodeCovers) fun _ member =>
      compilable.fits member
  rw [Document.readParts, read]
  simp only [bind, Except.bind, children]
  rw [List.mapM_cons, compilable.read_pool poolCovers, nodesRead]
  rfl

end Compiled

end Xml

namespace Manifest

open Chunk Xml
open ApkAtlas.Xml.Part (attributeBehind delimiters described known platformRecord? starts)
open ApkAtlas.Delimiter (level)

/-- The integers that a manifest gives with attributes. -/
inductive NumberField where
  | versionCode
  | minSdkVersion
  | targetSdkVersion
deriving Repr, DecidableEq

namespace NumberField

/-- The name of the attribute. -/
def attributeName : NumberField → String
  | .versionCode => "versionCode"
  | .minSdkVersion => "minSdkVersion"
  | .targetSdkVersion => "targetSdkVersion"

/-- What a manifest says. -/
def value (manifest : Manifest) : NumberField → Option Int
  | .versionCode => manifest.versionCode
  | .minSdkVersion => manifest.minSdkVersion
  | .targetSdkVersion => manifest.targetSdkVersion

/-- Where the element that the attribute is on is started: the root, or the first child of the
root that is named `uses-sdk`. -/
def position? (parts : List Part) : NumberField → Option Nat
  | .versionCode => (starts parts).head?
  | .minSdkVersion | .targetSdkVersion =>
      (starts parts).find? fun position =>
        level (delimiters (parts.take position)) = 1 ∧
          (described parts position).name = "uses-sdk"

/-- The record of the attribute, with the parts that it refers to. -/
def record? (parts : List Part) (field : NumberField) : Option (List Part × RawAttribute) :=
  (field.position? parts).bind fun position =>
    (platformRecord? parts position field.attributeName).map fun raw =>
      (parts.take position, raw)

variable {parts : List Part} {place : Nat → List Nat} {root : Element}

/-- The number of an attribute is that of the text of its record. -/
theorem bind_attribute?_described (position? : Option Nat) (name : String) :
    ((position?.map (described parts)).bind (·.attribute? name)).bind Number.ofLiteral? =
      (position?.bind fun position =>
        (platformRecord? parts position name).map fun raw => (parts.take position, raw)).bind
          fun record => Number.ofLiteral? (attributeBehind record.1 record.2).value := by
  cases position? with
  | none =>
      rfl
  | some position =>
      rw [Option.map_some, Option.bind_some, Part.attribute?_described, Option.bind_some]
      cases platformRecord? parts position name <;> rfl

/-- What a manifest says is read of the text of the record. -/
theorem value_ofElement
    (listed :
      root.listing [] =
        (starts parts).map fun position => (place position, described parts position))
    (placed : ∀ position ∈ starts parts, Placed parts place position)
    (field : NumberField) :
    field.value (ofElement root) =
      (field.record? parts).bind fun record =>
        Number.ofLiteral? (attributeBehind record.1 record.2).value := by
  have atRoot : (starts parts).head?.map (described parts) = some root.alone := by
    obtain ⟨position, first, same⟩ := exists_starts_of_listing listed
    rw [first, Option.map_some, same]
  have atSdk := head?_childrenNamed_of_listing listed placed "uses-sdk"
  have ofSdk (name : String) :
      number? ((root.childrenNamed "uses-sdk").head?.bind (·.attribute? name)) =
        (((root.childrenNamed "uses-sdk").head?.map Element.alone).bind
          (·.attribute? name)).bind Number.ofLiteral? := by
    cases (root.childrenNamed "uses-sdk").head? <;> rfl
  cases field with
  | versionCode =>
      have ofRoot :
          number? (root.attribute? "versionCode") =
            ((some root.alone).bind (·.attribute? "versionCode")).bind Number.ofLiteral? :=
        rfl
      refine ofRoot.trans ?_
      rw [← atRoot, bind_attribute?_described]
      rfl
  | minSdkVersion =>
      refine (ofSdk "minSdkVersion").trans ?_
      rw [atSdk, bind_attribute?_described]
      rfl
  | targetSdkVersion =>
      refine (ofSdk "targetSdkVersion").trans ?_
      rw [atSdk, bind_attribute?_described]
      rfl

end NumberField

section Decoding

variable {parse : Markup.Parser} {buffer : Bytes} {header : Header} {parts : List Part}
  {root : Element}

/-- The first byte of a chunk of compiled XML opens no tag. -/
theorem not_isPlain_of_readHeader
    (read : readHeader buffer 0 = .ok header)
    (isXml : header.token = Token.xml) :
    ¬ isPlain buffer = true := by
  have token := (Header.fields_of_readHeader read).1
  have atStart := (readHeader_sound read).1
  rw [isXml, Nat.cast_eq_zero.mp atStart, Bytes.u16, Fallible.word_eq, List.drop_zero] at token
  rw [isPlain]
  cases bytes : buffer.toList with
  | nil =>
      decide
  | cons first rest =>
      have isThree : first.toNat = 3 := by
        rw [bytes, List.take_succ_cons, Bytes.littleEndian] at token
        have small := first.toNat_lt
        rw [Token.xml] at token
        omega
      have same : first = 3 := UInt8.toNat_inj.mp isThree
      have noTag : ¬ (some (3 : UInt8) == some 0x3C) = true := by
        decide
      rw [same, List.dropWhile_cons_of_neg (by decide)]
      exact noTag

/-- The data of an attribute is a word. -/
theorem data_lt_of_readAttributes
    {position stride count : Nat}
    {raws : List RawAttribute}
    (read : Part.readAttributes buffer header position stride count = .ok raws) :
    ∀ raw ∈ raws, raw.data < 4294967296 := by
  induction count generalizing position raws with
  | zero =>
      cases read
      exact List.forall_mem_nil _
  | succ count inductionHypothesis =>
      obtain ⟨first, readFirst, read⟩ := exists_of_bind_eq_ok read
      obtain ⟨rest, readRest, read⟩ := exists_of_bind_eq_ok read
      obtain ⟨window, _, isFirst⟩ := exists_of_bind_eq_ok readFirst
      cases read
      cases isFirst
      exact List.forall_mem_cons.mpr ⟨Fallible.u32_lt window 16, inductionHypothesis readRest⟩

/-- The data of a record are a word of 32 bits. -/
theorem data_lt_of_read
    {line nameIndex : Nat}
    {raws : List RawAttribute}
    (read : Part.read buffer header = .ok (.startElement line nameIndex raws)) :
    ∀ raw ∈ raws, raw.data < 4294967296 := by
  have isStart : header.token = Token.startElement := by
    have marks := Part.delimiter_of_read read
    rw [delimiterOf] at marks
    split at marks
    · assumption
    · split at marks <;> cases marks
  rw [Part.read, isStart, if_neg (by decide), if_neg (by decide), if_neg (by decide),
    if_neg (by decide), if_pos rfl] at read
  obtain ⟨_, _, read⟩ := exists_of_bind_eq_ok read
  obtain ⟨_, _, read⟩ := exists_of_bind_eq_ok read
  obtain ⟨raws, readRaws, same⟩ := exists_of_bind_eq_ok read
  cases same
  exact data_lt_of_readAttributes readRaws

/-- So are the data of the record that a field is read from. -/
theorem data_lt_of_record?
    (read : readHeader buffer 0 = .ok header)
    (parsed : Document.readParts buffer = .ok parts)
    {field : NumberField}
    {front : List Part}
    {raw : RawAttribute}
    (found : field.record? parts = some (front, raw)) :
    raw.data < 4294967296 := by
  obtain ⟨position, _, found⟩ := Option.bind_eq_some_iff.mp found
  obtain ⟨record, found, same⟩ := Option.map_eq_some_iff.mp found
  cases same
  rw [platformRecord?] at found
  split at found
  · rename_i line nameIndex raws atPosition
    have children := (Document.exists_children_of_readParts read parsed).2
    obtain ⟨child, _, readPart⟩ :=
      exists_of_mem_results children (List.mem_of_getElem? atPosition)
    exact data_lt_of_read readPart raw (List.mem_of_find?_eq_some found)
  · cases found

/-- A file that starts with a header of a document is decoded as a compiled one. -/
theorem decode_eq_of_readHeader
    (read : readHeader buffer 0 = .ok header)
    (isXml : header.token = Token.xml) :
    decode parse buffer =
      ((Document.decode buffer).map Document.root).mapError Chunk.DecodeError.toFault := by
  rw [decode, if_neg (not_isPlain_of_readHeader read isXml)]
  cases Document.decode buffer <;> rfl

/-- What the manifest of a compiled document says is read of the texts of its records. -/
theorem value_of_decode
    (read : readHeader buffer 0 = .ok header)
    (isXml : header.token = Token.xml)
    (parsed : Document.readParts buffer = .ok parts)
    (decoded : decode parse buffer = .ok root)
    (field : NumberField) :
    field.value (ofElement root) =
      (field.record? parts).bind fun record =>
        Number.ofLiteral? (attributeBehind record.1 record.2).value := by
  rw [decode_eq_of_readHeader read isXml] at decoded
  obtain ⟨document, isDocument, rfl⟩ := exists_of_map_eq_ok (eq_ok_of_mapError decoded)
  obtain ⟨others, place, parsedOthers, listed, placed⟩ := Document.exists_listing isDocument
  rw [parsed] at parsedOthers
  cases parsedOthers
  exact field.value_ofElement listed placed

/-- The numbers of a compiled manifest are those of its records. Whether a manifest is decoded
depends on the starts and ends of its elements only, on no value of an attribute. A field whose
record has a typed value is the number of that value, and none if the value is of another
kind. A field whose record has a raw string is the integer that the string is a literal of. -/
theorem numbers_survive_texts
    (parse : Markup.Parser)
    (read : readHeader buffer 0 = .ok header)
    (isXml : header.token = Token.xml)
    (parsed : Document.readParts buffer = .ok parts) :
    ((∃ document, Fallible.decode buffer = .ok document ∧ decode parse buffer = .ok document.root) ↔
      Delimiter.IsTree (Document.elementMarks buffer header) ∨
        Delimiter.IsUnclosed (Document.elementMarks buffer header)) ∧
    ∀ root, decode parse buffer = .ok root → ∀ field : NumberField,
      (field.record? parts = none → field.value (ofElement root) = none) ∧
      ∀ front raw, field.record? parts = some (front, raw) →
        (raw.rawIndex = noIndex →
          field.value (ofElement root) =
            ResourceValue.number? (known front).pool raw.data
              (ResourceValue.Kind.ofCode raw.kind)) ∧
        (raw.rawIndex ≠ noIndex →
          ∀ number, field.value (ofElement root) = some number ↔
            Number.IsLiteral ((known front).string raw.rawIndex) number) := by
  refine ⟨?_, ?_⟩
  · rw [← Document.exists_decode_iff_of_readParts read isXml parsed]
    constructor
    · rintro ⟨document, checked, _⟩
      rw [Fallible.decode_eq] at checked
      exact ⟨document, eq_ok_of_mapError checked⟩
    · rintro ⟨document, decoded⟩
      refine ⟨document, ?_, ?_⟩
      · rw [Fallible.decode_eq, decoded]
        rfl
      · rw [decode_eq_of_readHeader read isXml, decoded]
        rfl
  · intro root decoded field
    have value := value_of_decode read isXml parsed decoded field
    refine ⟨?_, ?_⟩
    · intro noRecord
      rw [value, noRecord]
      rfl
    · intro front raw found
      rw [found, Option.bind_some] at value
      refine ⟨?_, ?_⟩
      · intro typed
        have inWord := data_lt_of_record? read parsed found
        have shown :
            (attributeBehind front raw).value =
              ResourceValue.text (known front).pool raw.kind raw.data :=
          if_pos typed
        rw [value, shown]
        exact ResourceValue.ofLiteral?_textOfKind _ inWord _
      · intro isRaw number
        have shown : (attributeBehind front raw).value = (known front).string raw.rawIndex :=
          if_neg isRaw
        rw [value, shown]
        exact Number.ofLiteral?_eq_some_iff

/-- A manifest with a decimal version below zero, a hexadecimal literal and a truth value. -/
def numbered : SourceDocument :=
  { root :=
      { name := "manifest"
        attributes := [⟨some androidNamespace, "versionCode", .number 4294967294⟩]
        children :=
          [⟨"uses-sdk",
            [ ⟨some androidNamespace, "minSdkVersion", .text "0x15"⟩,
              ⟨some androidNamespace, "targetSdkVersion", .flag true⟩ ], []⟩] }
    namespaces := [("android", androidNamespace)] }

/-- A manifest with a negative number, one of another base and a text that is no number. -/
theorem numbered_survives :
    ∃ root, decode Platform.builtin.markupParser numbered.compile = .ok root ∧
      (ofElement root).versionCode = some (-2) ∧
      (ofElement root).minSdkVersion = some 21 ∧
      (ofElement root).targetSdkVersion = none := by
  have compilable : numbered.Compilable :=
    { attributes := by decide +kernel
      texts := by decide +kernel
      prefixes := by decide +kernel
      uris := by decide +kernel
      named := by decide +kernel
      size := by decide +kernel }
  obtain ⟨header, _, read, isXml, _⟩ :=
    Document.exists_header_of_decode (SourceDocument.decode_compile compilable)
  have parsed := SourceDocument.readParts_compile compilable
  obtain ⟨parts, isParts⟩ : ∃ parts, parts =
      .strings numbered.decoded.pool :: numbered.nodes.map (Node.part numbered.pool) := ⟨_, rfl⟩
  rw [← isParts] at parsed
  have marks : Delimiter.IsTree (Document.elementMarks numbered.compile header) := by
    have children := (Document.exists_children_of_readParts read parsed).2
    rw [Document.elementMarks, ← Part.delimiters_of_mapM children, isParts]
    decide +kernel
  have seen (field : NumberField) :
      (field.record? parts).map (fun record =>
          (record.2.rawIndex, record.2.kind, record.2.data,
            (known record.1).string record.2.rawIndex)) =
        match field with
        | .versionCode => some (noIndex, 0x10, 4294967294, "")
        | .minSdkVersion => some (5, 0x03, 5, "0x15")
        | .targetSdkVersion => some (noIndex, 0x12, 4294967295, "") := by
    rw [isParts]
    cases field <;> decide +kernel
  obtain ⟨accepted, values⟩ :=
    numbers_survive_texts Platform.builtin.markupParser read isXml parsed
  obtain ⟨document, _, decoded⟩ := accepted.mpr (.inl marks)
  have record (field : NumberField) {rawIndex kind data : Nat} {text : String}
      (isSeen : (field.record? parts).map (fun record =>
          (record.2.rawIndex, record.2.kind, record.2.data,
            (known record.1).string record.2.rawIndex)) = some (rawIndex, kind, data, text)) :
      (rawIndex = noIndex → ∃ strings, field.value (ofElement document.root) =
        ResourceValue.number? strings data (ResourceValue.Kind.ofCode kind)) ∧
      (rawIndex ≠ noIndex → ∀ number, field.value (ofElement document.root) = some number ↔
        Number.IsLiteral text number) := by
    obtain ⟨⟨front, raw⟩, found, same⟩ := Option.map_eq_some_iff.mp isSeen
    simp only [Prod.mk.injEq] at same
    obtain ⟨rfl, rfl, rfl, rfl⟩ := same
    obtain ⟨typed, written⟩ := (values _ decoded field).2 front raw found
    exact ⟨fun isTyped => ⟨_, typed isTyped⟩, written⟩
  obtain ⟨_, version⟩ := (record .versionCode (seen .versionCode)).1 rfl
  obtain ⟨_, target⟩ := (record .targetSdkVersion (seen .targetSdkVersion)).1 rfl
  have least := ((record .minSdkVersion (seen .minSdkVersion)).2 (by decide) 21).mpr
    (Number.isLiteral_markedHex 0 21)
  exact ⟨document.root, decoded, version, least, target⟩

end Decoding

section LongLiterals

/-- A manifest whose version is written as the given text. -/
def versioned (text : String) : SourceDocument :=
  { root := ⟨"manifest", [⟨some androidNamespace, "versionCode", .text text⟩], []⟩
    namespaces := [] }

variable {text : String}

theorem texts_versioned (text : String) :
    (versioned text).nodes.flatMap Node.texts =
      [androidNamespace, "versionCode", text, "manifest", "manifest"] :=
  rfl

/-- The strings that are written are some of those that the nodes use. -/
theorem length_pool_versioned (text : String) :
    (StringPool.compose (versioned text).pool).bytes.length ≤
      2 * (Text.Utf16.encodeUnits text).length + 1100 := by
  have sublist : (versioned text).pool.Sublist _ := foldl_intern_sublist [] _
  rw [List.nil_append, texts_versioned] at sublist
  have count := sublist.length_le
  have entries := (sublist.flatMap StringPool.entry).length_le
  have payload := StringPool.length_payload_le (versioned text).pool
  have fixed :
      (StringPool.entry androidNamespace).length + (StringPool.entry "versionCode").length +
        2 * (StringPool.entry "manifest").length ≤ 1000 := by
    decide
  simp only [List.flatMap_cons, List.flatMap_nil, List.length_append, List.length_cons,
    List.length_nil, StringPool.length_entry text] at count entries
  rw [Composed.length_bytes, StringPool.headerSize_compose, StringPool.leastHeaderSize]
  omega

theorem length_nodes_versioned (text : String) :
    (((versioned text).nodes.map (Node.compose (versioned text).pool)).flatMap
      Composed.bytes).length = 80 := by
  have nodes : (versioned text).nodes = [_, _] := rfl
  simp [nodes, Node.compose, Node.payload, Composed.headerSize, leastHeaderSize,
    RawAttribute.bytes]

/-- The manifest with one attribute can be compiled, if the text is short enough. -/
theorem compilable_versioned
    (short : (Text.Utf16.encodeUnits text).length < 0x8000) :
    (versioned text).Compilable where
  attributes := by
    have alone : (versioned text).root.subtree = [(versioned text).root] := rfl
    rw [alone]
    exact List.forall_mem_singleton.mpr (show 1 ≤ 65535 by decide)
  texts := by
    intro node member other inNode
    have listed := List.mem_flatMap.mpr ⟨node, member, inNode⟩
    simp only [texts_versioned, List.mem_cons, List.not_mem_nil, or_false] at listed
    rcases listed with rfl | rfl | rfl | rfl | rfl
    · decide
    · decide
    · exact short
    · decide
    · decide
  prefixes := List.nodup_nil
  uris := List.nodup_nil
  named := List.not_mem_nil
  size := by
    have pool := length_pool_versioned text
    have whole :
        (versioned text).compose.payload.length =
          (StringPool.compose (versioned text).pool).bytes.length + 80 := by
      rw [← length_nodes_versioned, ← List.length_append]
      rfl
    rw [SourceDocument.size_compile, whole]
    omega

/-- The only attribute of a root without children is the version if it is named so. -/
theorem record?_versionCode
    {strings : StringPool}
    {line nameIndex : Nat}
    {raw : RawAttribute}
    (name : (known [.strings strings]).attributeName raw.nameIndex = "versionCode")
    (uri : (known [.strings strings]).string raw.namespaceIndex = androidNamespace) :
    NumberField.versionCode.record?
        [.strings strings, .startElement line nameIndex [raw], .endElement] =
      some ([.strings strings], raw) := by
  have isFirst :
      NumberField.versionCode.position?
          [.strings strings, .startElement line nameIndex [raw], .endElement] =
        some 1 :=
    rfl
  have isVersion :
      ((attributeBehind [.strings strings] raw).name == "versionCode" &&
        (attributeBehind [.strings strings] raw).namespaceUri == androidNamespace) = true :=
    Bool.and_eq_true_iff.mpr ⟨beq_iff_eq.mpr name, beq_iff_eq.mpr uri⟩
  have found :
      platformRecord? [.strings strings, .startElement line nameIndex [raw], .endElement] 1
          "versionCode" =
        some raw := by
    change List.find? (fun raw => (attributeBehind [.strings strings] raw).name == "versionCode" &&
      (attributeBehind [.strings strings] raw).namespaceUri == androidNamespace) [raw] = some raw
    exact List.find?_cons_of_pos isVersion
  rw [NumberField.record?, isFirst, Option.bind_some, NumberField.attributeName, found]
  rfl

/-- The record of a version that is written as a text has the text as its raw string. -/
theorem exists_record?_versioned
    (short : (Text.Utf16.encodeUnits text).length < 0x8000) :
    ∃ parts front raw,
      Document.readParts (versioned text).compile = .ok parts ∧
        NumberField.versionCode.record? parts = some (front, raw) ∧
        raw.rawIndex ≠ noIndex ∧ (known front).string raw.rawIndex = text := by
  have compilable := compilable_versioned short
  have parsed := SourceDocument.readParts_compile compilable
  have fits := compilable.fits (show _ ∈ (versioned text).nodes from List.mem_cons_self)
  have inPool (other : String) (listed : other ∈ [androidNamespace, "versionCode", text]) :
      other ∈ (versioned text).pool := by
    refine mem_poolOf.mpr ?_
    rw [texts_versioned]
    exact List.mem_append_left ["manifest", "manifest"] listed
  have reads : (known [.strings (versioned text).decoded.pool]).Reads (versioned text).pool :=
    ⟨rfl, rfl, rfl⟩
  have nodes :
      (versioned text).nodes.map (Node.part (versioned text).pool) =
        [ .startElement 2 ((versioned text).pool.idxOf "manifest")
            [SourceAttribute.raw (versioned text).pool
              ⟨some androidNamespace, "versionCode", .text text⟩],
          .endElement ] :=
    rfl
  rw [nodes] at parsed
  generalize (versioned text).pool = pool at *
  generalize (versioned text).decoded.pool = strings at *
  refine ⟨_, [.strings strings], _, parsed, record?_versionCode ?_ ?_, ?_, ?_⟩
  · exact reads.attributeName_idxOf fits.small (inPool "versionCode" (by simp))
  · exact reads.string_idxOf fits.small (inPool androidNamespace (by simp))
  · have found := List.idxOf_lt_length_of_mem (inPool text (by simp))
    exact (found.trans fits.small).ne
  · exact reads.string_idxOf fits.small (inPool text (by simp))

/-- A hexadecimal literal of five thousand digits. -/
def longHexadecimal : String :=
  Text.markedHex 5000 1

/-- How many digits a text has, hexadecimal ones included. -/
def digitCount (text : String) : Nat :=
  text.toList.countP fun c => (Number.digit? c).isSome

/-- The hexadecimal literal of one, padded with zeros. -/
theorem toList_markedHex_one (width : Nat) :
    (Text.markedHex (width + 1) 1).toList = '0' :: 'x' :: (List.replicate width '0' ++ ['1']) := by
  have digit : Nat.toDigits 16 1 = ['1'] := rfl
  simp [Text.markedHex, Text.hex, digit]

/-- The limit of 4300 digits is one of decimal literals: a longer hexadecimal version is read. -/
theorem longHexadecimal_is_read :
    ¬ ∀ parse buffer header parts,
        readHeader buffer 0 = .ok header → header.token = Token.xml →
        Document.readParts buffer = .ok parts →
        ∀ root, decode parse buffer = .ok root →
        ∀ front raw, NumberField.versionCode.record? parts = some (front, raw) →
        raw.rawIndex ≠ noIndex →
        ∀ number, NumberField.versionCode.value (ofElement root) = some number ↔
          Number.IsLiteral ((known front).string raw.rawIndex) number ∧
            digitCount ((known front).string raw.rawIndex) ≤ 4300 := by
  intro limited
  have written : longHexadecimal.toList = '0' :: 'x' :: (List.replicate 4999 '0' ++ ['1']) :=
    toList_markedHex_one 4999
  have short : (Text.Utf16.encodeUnits longHexadecimal).length < 0x8000 := by
    have most := Text.Utf16.length_encodeUnits_le longHexadecimal
    rw [written, List.length_cons, List.length_cons, List.length_append, List.length_replicate,
      List.length_singleton] at most
    omega
  have many : 4300 < digitCount longHexadecimal := by
    rw [digitCount, written, List.countP_cons, List.countP_cons, List.countP_append,
      List.countP_replicate, if_pos (by decide)]
    omega
  have decoded := SourceDocument.decode_compile (compilable_versioned short)
  obtain ⟨header, others, read, isXml, _⟩ := Document.exists_header_of_decode decoded
  obtain ⟨parts, front, raw, parsed, found, isRaw, isText⟩ := exists_record?_versioned short
  have root :
      decode Platform.builtin.markupParser (versioned longHexadecimal).compile =
        .ok (versioned longHexadecimal).decoded.root := by
    rw [decode_eq_of_readHeader read isXml, decoded]
    rfl
  have value := value_of_decode read isXml parsed root .versionCode
  have shown : (attributeBehind front raw).value = (known front).string raw.rawIndex :=
    if_neg isRaw
  have isOne :
      NumberField.versionCode.value (ofElement (versioned longHexadecimal).decoded.root) =
        some 1 := by
    rw [value, found, Option.bind_some, shown, isText, Number.ofLiteral?_eq_some_iff]
    exact Number.isLiteral_markedHex 5000 1
  have within :=
    ((limited _ _ header parts read isXml parsed _ root front raw found isRaw 1).mp isOne).2
  rw [isText] at within
  exact absurd within (Nat.not_le.mpr many)

end LongLiterals

end Manifest

end ApkAtlas
