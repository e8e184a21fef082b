import ApkAtlas.Manifest
import ApkAtlas.Platform.Builtin
import ApkAtlas.Proofs.Xml.Bare
import ApkAtlas.Proofs.Xml.Faithful
import ApkAtlas.Proofs.Xml.RoundTrip

namespace ApkAtlas.Manifest

/-!
# Printed manifests

A printed manifest is plain text, so it is read as markup, where attributes are in the
namespaces that the declarations in scope give to their prefixes. Whatever parser follows XML,
the print says what the manifest said if the elements are faithful. Elements of plain manifests
have neither prefixes nor declarations, so what is printed of them is no longer in the namespace
of the platform.
-/

open Xml

section Skeletons

variable (element : Element)

@[simp]
theorem nameOf_skeleton : nameOf element.skeleton = nameOf element := by
  simp [nameOf]

@[simp]
theorem intentFilter_skeleton : intentFilter element.skeleton = intentFilter element := by
  simp [intentFilter, Function.comp_def]

@[simp]
theorem component_skeleton : component element.skeleton = component element := by
  simp [component, Function.comp_def]

@[simp]
theorem provider_skeleton : provider element.skeleton = provider element := by
  simp [provider]

/-- A manifest says no more than the skeleton of its elements. -/
theorem ofElement_skeleton : ofElement element.skeleton = ofElement element := by
  simp only [ofElement, Element.childrenNamed_skeleton, Element.attribute?_skeleton,
    Element.anyAttribute?_skeleton, List.head?_map, List.map_map, Function.comp_def,
    nameOf_skeleton]
  cases (element.childrenNamed "application").head? <;>
    cases (element.childrenNamed "uses-sdk").head? <;>
    simp [Function.comp_def]

end Skeletons

/-- What is printed opens a tag, so it is taken for plain text. -/
theorem isPlain_render (root : Element) : isPlain (Text.Utf8.encode root.render) := by
  rw [isPlain, Text.Utf8.toList_encode, Element.toList_render]
  rfl

section Parsers

variable {parse : Markup.Parser} {root : Element}

/-- A printed manifest is read as what its tags are read as. -/
theorem decode_render_of_reread?
    (follows : Markup.FollowsXml parse)
    (spelled : ∀ inner ∈ root.subtree, inner.IsSpelled)
    {again : Element}
    (reread : root.reread? Markup.outerScope = some again) :
    decode parse (Text.Utf8.encode root.render) = .ok again := by
  obtain ⟨text, isDocument, opens, means⟩ := Element.exists_text_of_render spelled
  obtain ⟨tree, parsed, shows⟩ := follows.accepts text opens again (means.trans reread)
  have plain := Element.reread?_isPlain Element.isUnbraced_outerScope spelled reread
  rw [decode, if_pos (isPlain_render root), decodePlain, isDocument, parsed]
  exact congrArg (Except.mapError Fault.external) (Markup.Tree.element_of_shows shows plain)

/-- A printed manifest whose tags cannot be read is refused, with whatever the parser says. -/
theorem exists_message_of_reread?
    (follows : Markup.FollowsXml parse)
    (spelled : ∀ inner ∈ root.subtree, inner.IsSpelled)
    (refused : root.reread? Markup.outerScope = none) :
    ∃ message,
      decode parse (Text.Utf8.encode root.render) = .error (.failure (notWellFormed message)) := by
  obtain ⟨text, isDocument, opens, means⟩ := Element.exists_text_of_render spelled
  obtain ⟨message, parsed⟩ := follows.refuses text opens (means.trans refused)
  refine ⟨message, ?_⟩
  rw [decode, if_pos (isPlain_render root), decodePlain, isDocument, parsed]

/-- The elements of a plain manifest have neither declarations nor prefixes. -/
theorem isBareThroughout_of_isPlain
    {bytes : Bytes}
    (plain : isPlain bytes)
    (decoded : decode parse bytes = .ok root) :
    root.IsBareThroughout := by
  rw [decode, if_pos plain, decodePlain] at decoded
  split at decoded
  · exact Markup.Tree.element_isBare (eq_ok_of_mapError decoded)
  · cases decoded
  · cases decoded

end Parsers

theorem attribute?_eq_none
    {element : Element}
    (noNamespace : ∀ attr ∈ element.attributes, attr.namespaceUri = "")
    (name : String) :
    element.attribute? name = none := by
  rw [Element.attribute?, Element.attributeIn?, Option.map_eq_none_iff, List.find?_eq_none]
  intro attr member
  rw [noNamespace attr member, Bool.and_eq_true, not_and]
  exact fun _ => by decide

/-- With any parser that follows XML, a printed manifest is read again as what its tags are read
as, or refused if they cannot be read. It says the same if its elements are faithful. What is
printed of a plain manifest has no platform attributes left. -/
theorem printing_keeps_meaning
    {parse : Markup.Parser}
    (follows : Markup.FollowsXml parse)
    {bytes : Bytes}
    {root : Element}
    (decoded : decode parse bytes = .ok root)
    (spelled : ∀ inner ∈ root.subtree, inner.IsSpelled) :
    (∀ again, root.reread? Markup.outerScope = some again →
        decode parse (Text.Utf8.encode root.render) = .ok again) ∧
      (root.reread? Markup.outerScope = none →
        ∃ message,
          decode parse (Text.Utf8.encode root.render) =
            .error (.failure (notWellFormed message))) ∧
      (root.IsFaithful Markup.outerScope →
        ∃ again, decode parse (Text.Utf8.encode root.render) = .ok again ∧
          ofElement again = ofElement root) ∧
      (isPlain bytes →
        ∀ again, decode parse (Text.Utf8.encode root.render) = .ok again →
          ∀ inner ∈ again.subtree, ∀ name, inner.attribute? name = none) := by
  refine ⟨fun again => decode_render_of_reread? follows spelled,
    exists_message_of_reread? follows spelled, ?_, ?_⟩
  · intro faithful
    obtain ⟨again, reread, same⟩ := faithful.exists_reread
    refine ⟨again, decode_render_of_reread? follows spelled reread, ?_⟩
    rw [← ofElement_skeleton, same, ofElement_skeleton]
  · intro plain again decodedAgain inner member name
    cases reread : root.reread? Markup.outerScope with
    | none =>
        obtain ⟨message, refused⟩ := exists_message_of_reread? follows spelled reread
        cases refused.symm.trans decodedAgain
    | some found =>
        cases (decode_render_of_reread? follows spelled reread).symm.trans decodedAgain
        have bare := isBareThroughout_of_isPlain plain decoded
        exact attribute?_eq_none (Element.reread?_namespaceUri bare reread inner member) name

section Platform

/-- A manifest with a label that needs escapes. -/
def labelled : SourceDocument :=
  { root :=
      { name := "manifest"
        attributes :=
          [ ⟨none, "package", .text "a.b"⟩,
            ⟨some androidNamespace, "versionCode", .number 7⟩ ]
        children :=
          [⟨"application", [⟨some androidNamespace, "label", .text "\"A\" < B & C"⟩], []⟩] }
    namespaces := [("android", androidNamespace)] }

/-- A compiled manifest is decoded without a parser of markup. -/
theorem decode_compile_labelled (parse : Markup.Parser) :
    decode parse labelled.compile = .ok labelled.decoded.root := by
  have compilable : labelled.Compilable :=
    { attributes := by decide +kernel
      texts := by decide +kernel
      prefixes := by decide +kernel
      uris := by decide +kernel
      named := by decide +kernel
      size := by decide +kernel }
  have notPlain : ¬ isPlain labelled.compile := by
    decide +kernel
  rw [decode, if_neg notPlain, SourceDocument.decode_compile compilable]

/-- The parser that is at hand everywhere reads the label again. -/
theorem labelled_keeps_meaning :
    decode Platform.builtin.markupParser labelled.compile = .ok labelled.decoded.root ∧
      ∃ again,
        decode Platform.builtin.markupParser
            (Text.Utf8.encode labelled.decoded.root.render) = .ok again ∧
        ofElement again =
          { packageName := "a.b"
            versionCode := some 7
            applicationLabel := some "\"A\" < B & C" } := by
  have spelled : ∀ inner ∈ labelled.decoded.root.subtree, inner.IsSpelled := by
    decide +kernel
  have faithful : labelled.decoded.root.IsFaithful Markup.outerScope := by
    decide +kernel
  have meaning :
      ofElement labelled.decoded.root =
        { packageName := "a.b"
          versionCode := some 7
          applicationLabel := some "\"A\" < B & C" } := by
    decide +kernel
  have decoded := decode_compile_labelled Platform.builtin.markupParser
  obtain ⟨_, _, keeps, _⟩ :=
    printing_keeps_meaning (Markup.reader_followsXml _ _) decoded spelled
  obtain ⟨again, read, same⟩ := keeps faithful
  exact ⟨decoded, again, read, same.trans meaning⟩

/-- A plain manifest with a version of the platform. -/
def plain : Bytes :=
  Text.Utf8.encode ("<manifest xmlns:android=\"" ++ androidNamespace ++
    "\" package=\"a.b\" android:versionCode=\"7\" />")

/-- The version of a plain manifest is lost when it is printed. -/
theorem plain_loses_meaning :
    ¬ ∀ parse, Markup.FollowsXml parse →
      ∀ bytes root,
        decode parse bytes = .ok root →
          (∀ inner ∈ root.subtree, inner.IsSpelled) →
            ∃ again, decode parse (Text.Utf8.encode root.render) = .ok again ∧
              ofElement again = ofElement root := by
  intro keeps
  let parse := Platform.builtin.markupParser
  have seen :
      (decode parse plain).toOption.map (fun root =>
        (decide (∀ inner ∈ root.subtree, inner.IsSpelled), (ofElement root).versionCode,
          (decode parse (Text.Utf8.encode root.render)).toOption.map fun again =>
            (ofElement again).versionCode)) =
        some (true, some 7, some none) := by
    decide +kernel
  obtain ⟨root, decoded, view⟩ := Option.map_eq_some_iff.mp seen
  replace decoded := eq_ok_of_toOption decoded
  obtain ⟨spelled, version, versionAgain⟩ := by
    simpa only [Prod.mk.injEq, decide_eq_true_eq] using view
  obtain ⟨again, read, same⟩ :=
    keeps parse (Markup.reader_followsXml _ _) plain root decoded spelled
  rw [read, Except.toOption, Option.map_some, same, version] at versionAgain
  cases versionAgain

end Platform

end ApkAtlas.Manifest
