/-
TripleLogic.Version — version numbers, and the version and name that the
library reports.
-/
namespace TripleLogic

/-- A version: three numbers and an optional tag. -/
structure Version where
  major : Int
  minor : Int
  patch : Int
  pre : String := ""
  deriving DecidableEq, Repr

/-- The text of a version. -/
def Version.text (v : Version) : String :=
  let base := toString v.major ++ "." ++ toString v.minor ++ "." ++ toString v.patch
  if v.pre == "" then base else base ++ "-" ++ v.pre

/-- The version of the library. -/
def Version.current : Version := { major := 2, minor := 5, patch := 0 }

/-- The name under which the library reports itself. -/
def distribution : String := "aiql-reasoning"

end TripleLogic
