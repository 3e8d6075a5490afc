import SynapseGateway.Lib.Utf8

/-!
# Segments of text leaves
-/

namespace SynapseGateway

open Utf8 (Text)

/-- The text leaves a guard scans together. -/
abbrev Segment := List Text

def SEPARATOR : Text := ['\n']

def joined (seg : Segment) : Text := List.intercalate SEPARATOR seg

@[simp] theorem joined_singleton (t : Text) : joined [t] = t := by
  simp [joined, List.intercalate]

end SynapseGateway
