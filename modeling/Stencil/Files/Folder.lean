import Stencil.Files.Path

/-!
# Folders

* `Folder`: files with their bytes, and the folders that have to be there besides;
* `Folder.read?`: the files that can be read from it.
-/

namespace Stencil

/-- Paths begin in the folder itself. The folders on the way to a file are there with it. -/
structure Folder where
  files : List (Path × List UInt8)
  folders : List Path
  deriving DecidableEq, Repr

namespace Folder

def isFolder (f : Folder) (parts : List String) : Bool :=
  parts.isEmpty ||
    f.files.any (fun file => parts.isPrefixOf file.1.parts && parts != file.1.parts) ||
    f.folders.any fun folder => parts.isPrefixOf folder.parts

/-- One part on from a place, which has to be a folder. Two points lead back, but not out of the
folder at hand. -/
def enter (f : Folder) (place : List String) (part : String) : Option (List String) :=
  if !f.isFolder place then none
  else if part = ".." then
    if place.isEmpty then none else some place.dropLast
  else some (place ++ [part])

def locate (f : Folder) (p : Path) : Option (List String) :=
  if p.isAbsolute then none else p.parts.foldlM f.enter []

def read? (f : Folder) : Files := fun p => do
  let place ← f.locate p
  (f.files.find? fun file => file.1.parts == place).map Prod.snd

end Folder

end Stencil
