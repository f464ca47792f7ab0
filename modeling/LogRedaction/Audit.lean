/-
LogRedaction.Audit — the record of what a rule did to a line.
-/
import LogRedaction.Text.CodePoint

namespace LogRedaction

/-- One rule that applied to one line. -/
structure AuditEntry where
  source : Text
  lineNumber : Int
  /-- Something was replaced. -/
  substituted : Bool
  description : Text
deriving DecidableEq, Repr

/-- The entry as one line of a report. -/
def AuditEntry.format (entry : AuditEntry) : Text :=
  let status := if entry.substituted then "Replaced" else "Not Replaced"
  let flag := if entry.substituted then "true" else "false"
  let text := status ++ ", " ++ toString entry.lineNumber ++ ", " ++ flag
  if entry.description = "" then text else text ++ ", " ++ entry.description

end LogRedaction
