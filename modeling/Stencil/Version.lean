/-!
# Version

* `versionOf`: the version of a distribution, as far as it is installed.
-/

namespace Stencil

def distribution : String := "simple-templates"

/-- What is not installed has version 0.0.0. -/
def versionOf (name : String) : String := if name = distribution then "0.1.0" else "0.0.0"

end Stencil
