/-!
# Paths

* `Path`: the parts of a path;
* `Path.ofText`, `Path.text`: reading and writing paths, without parts that lead nowhere;
* `Files`: the files that there are.
-/

namespace Stencil

/-- The names between the slashes of a path, which begins at the root of all files or in the
folder at hand. -/
structure Path where
  isAbsolute : Bool
  parts : List String
  deriving DecidableEq, Repr

namespace Path

/-- Empty parts and single points are left out; two points are kept. -/
def ofText (s : String) : Path :=
  ⟨s.toList.head? == some '/', (s.splitOn "/").filter fun part => part != "" && part != "."⟩

/-- A path without parts is a single point. -/
def text (p : Path) : String :=
  if p.isAbsolute then "/" ++ String.intercalate "/" p.parts
  else if p.parts.isEmpty then "."
  else String.intercalate "/" p.parts

end Path

/-- The bytes of the file that a path leads to, for the paths that lead to a file. -/
abbrev Files := Path → Option (List UInt8)

end Stencil
