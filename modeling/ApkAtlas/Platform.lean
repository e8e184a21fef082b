import ApkAtlas.Dex.Symbols
import ApkAtlas.Xml.Markup.Tree

namespace ApkAtlas

/-!
# Platforms

Reading a package rests on things that are not described here: a parser of DEX files and
one of markup, two of the decompressors that archives may call for, a compressor whose
output is only measured, and the sizes that a file system has. Everything that is said of
packages is said for every such platform.
-/

/-- A decompressor: the content of a byte string, and whether it has an end there. -/
abbrev Decompressor := Bytes → Except ExternalError (Bytes × Bool)

/-- What reading a package rests on. -/
structure Platform where
  dexParser : Dex.Parser
  markupParser : Xml.Markup.Parser
  /-- The decompressor of method 12 of archives, if there is one. -/
  bzip2 : Option Decompressor
  /-- The decompressor of method 14 of archives, if there is one. -/
  lzma : Option Decompressor
  /-- How many bytes a byte string takes after compression at a level. -/
  gzipSize : Int → Bytes → Nat
  /-- The size of a directory. -/
  directorySize : List String → Nat
  /-- The last position that a file can be read at. -/
  lastPosition : Nat

end ApkAtlas
