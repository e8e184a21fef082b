import ApkAtlas.Compression.Inflate
import ApkAtlas.Failure
import ApkAtlas.Text.Utf8

namespace ApkAtlas

/-!
# Errors of archives

A package may be missing or no archive at all, its directory or an entry may be corrupt,
and an entry that is asked for may not exist.
-/

/-- Why an archive cannot be opened or an entry cannot be read. -/
inductive ArchiveError where
  /-- There is no file; `named` tells whether the failure names the path. -/
  | fileMissing (path : String) (named : Bool)
  | notAnArchive (path : String)
  | noEntry (name : String)
  | directoryOffset
  | directoryTruncated
  | directoryMark
  /-- The archive is spread over several files. -/
  | manyDisks
  | extraField (mark size : Nat)
  /-- A number of eight bytes that an extra field should hold is not there. -/
  | wideField (name : String)
  | entryPosition
  /-- The position of an entry does not fit into eight bytes. -/
  | entryOffset
  | entryTruncated
  | entryMark
  | entryRenamed (listed : String) (found : List UInt8)
  | entryOverlaps (listed : String)
  | undecodableName (error : Text.Utf8.Error)
  | wrongChecksum (name : String)
  | contentTruncated
  | contentCorrupt (defect : Compression.Inflate.Defect)
  /-- A decompressor of the platform refuses the content. -/
  | contentRefused (error : ExternalError)
  | encrypted (name : String)
  | unsupportedVersion (tenths : Nat)
  | patched
  | stronglyEncrypted
  | unsupportedMethod
  /-- The platform does not have the decompressor. -/
  | missingModule (name : String)
  /-- The number in the name of a DEX file has too many digits. -/
  | longNumber (limit digits : Nat)
deriving Repr, DecidableEq

namespace ArchiveError

/-- A failure of validation. -/
def invalid (text fieldName : String) (actualValue : Datum) : Fault :=
  .failure { text, detail := .validation (some fieldName) actualValue }

/-- The error as a fault. -/
def toFault : ArchiveError → Fault
  | .fileMissing path named =>
      invalid ("APK file not found: " ++ path) "apk_path" (if named then .text path else .null)
  | .notAnArchive path => invalid "Invalid APK: not a valid ZIP archive" "apk_path" (.text path)
  | .noEntry name => invalid ("Entry not found in APK: " ++ name) "entry" (.text name)
  | .directoryOffset => .external ⟨.corruptArchive, "Bad offset for central directory"⟩
  | .directoryTruncated => .external ⟨.corruptArchive, "Truncated central directory"⟩
  | .directoryMark => .external ⟨.corruptArchive, "Bad magic number for central directory"⟩
  | .manyDisks =>
      .external ⟨.corruptArchive, "zipfiles that span multiple disks are not supported"⟩
  | .extraField mark size =>
      .external ⟨.corruptArchive,
        "Corrupt extra field " ++ Text.hex 4 mark ++ s!" (size={size})"⟩
  | .wideField name =>
      .external ⟨.corruptArchive, s!"Corrupt zip64 extra field. {name} not found."⟩
  | .entryOffset =>
      .external ⟨.badValue, "cannot fit 'int' into an offset-sized integer"⟩
  | .entryPosition => .external ⟨.badPosition, "[Errno 22] Invalid argument"⟩
  | .entryTruncated => .external ⟨.corruptArchive, "Truncated file header"⟩
  | .entryMark => .external ⟨.corruptArchive, "Bad magic number for file header"⟩
  | .entryRenamed listed found =>
      .external ⟨.corruptArchive,
        "File name in directory " ++ Text.quoted listed ++ " and header " ++
          Text.quotedBytes found ++ " differ."⟩
  | .entryOverlaps listed =>
      .external ⟨.corruptArchive,
        "Overlapped entries: " ++ Text.quoted listed ++ " (possible zip bomb)"⟩
  | .undecodableName error => .external ⟨.undecodableText, error.message⟩
  | .wrongChecksum name =>
      .external ⟨.corruptArchive, "Bad CRC-32 for file " ++ Text.quoted name⟩
  | .contentTruncated => .external ⟨.endOfData, ""⟩
  | .contentCorrupt defect =>
      .external ⟨.corruptStream, "Error -3 while decompressing data: " ++ defect.text⟩
  | .contentRefused error => .external error
  | .encrypted name =>
      .external ⟨.encrypted,
        "File " ++ Text.quoted name ++ " is encrypted, password required for extraction"⟩
  | .unsupportedVersion tenths =>
      .external ⟨.unsupported, s!"zip file version {tenths / 10}.{tenths % 10}"⟩
  | .patched => .external ⟨.unsupported, "compressed patched data (flag bit 5)"⟩
  | .stronglyEncrypted => .external ⟨.unsupported, "strong encryption (flag bit 6)"⟩
  | .unsupportedMethod =>
      .external ⟨.unsupported, "That compression method is not supported"⟩
  | .missingModule name =>
      .external ⟨.missingModule, s!"Compression requires the (missing) {name} module"⟩
  | .longNumber limit digits =>
      .external ⟨.badValue,
        s!"Exceeds the limit ({limit} digits) for integer string conversion: value has " ++
          s!"{digits} digits; use sys.set_int_max_str_digits() to increase the limit"⟩

end ArchiveError

end ApkAtlas
