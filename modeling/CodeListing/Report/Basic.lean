import CodeListing.Listing.Text
import CodeListing.Settings

/-!
# Reports

A disassembly together with where it came from and how it was made.
-/

set_option autoImplicit false

namespace CodeListing

/-- A disassembly and its provenance. -/
structure Report where
  toolVersion : String
  /-- The path of the snapshot. -/
  snapshot : String
  /-- The digest of the snapshot file. -/
  digest : String
  generatedAt : String
  settings : Settings
  disassembly : Disassembly

namespace Report

/-- The name of the program in the header of a report. -/
def toolName : String := "jitlens"

/-- The report as a document. -/
def toDocument (report : Report) : Document :=
  .object [
    ("tool_version", .string report.toolVersion),
    ("snapshot", .string report.snapshot),
    ("snapshot_sha256", .string report.digest),
    ("generated_at", .string report.generatedAt),
    ("settings", report.settings.toDocument),
    ("result", report.disassembly.toDocument)]

/-- The report as text: a header, the listings and the errors. -/
def text (report : Report) : String :=
  let format : LineFormat :=
    ⟨report.settings.printAddresses, report.disassembly.pointerSize⟩
  "; " ++ toolName ++ " v" ++ report.toolVersion ++ "\n" ++
    "; snapshot: " ++ report.snapshot ++ " (sha256 " ++ report.digest ++ ")\n" ++
    "; generated: " ++ report.generatedAt ++ "\n\n" ++
    format.text report.disassembly ++
    String.join (report.disassembly.errors.map fun error => "; error: " ++ error ++ "\n")

end Report

end CodeListing
