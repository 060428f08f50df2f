import Stencil.Markup.Fault
import Stencil.Text.Utf8
import Stencil.Value.Literal
import Stencil.Yaml.Fault

/-!
# Errors

* `Error`: everything that compiling, rendering, loading and the command line refuse;
* `Error.message`: the words of a refusal;
* `Error.isUser`: whether it is one that the user of a template can mend;
* `Error.isForeseen`: whether it ends a run of the program in an orderly way.
-/

namespace Stencil

inductive ContextFileCause where
  | missing (path : String)
  | unreadable (path : String) (reason : String)
  | notMapping (path : String) (typeName : String)
  deriving DecidableEq, Repr

def ContextFileCause.message : ContextFileCause → String
  | .missing path => s!"Context file not found: {path}"
  | .unreadable path reason => s!"Failed to read context file {path}: {reason}"
  | .notMapping path typeName => s!"Context file {path} must contain a mapping, got {typeName}"

inductive TemplateFileCause where
  | missing (path : String)
  | unreadable (path : String) (fault : Text.Utf8Fault)
  deriving DecidableEq, Repr

def TemplateFileCause.message : TemplateFileCause → String
  | .missing path => s!"Template file not found: {path}"
  | .unreadable path fault => s!"Failed to read template file {path}: {fault.message}"

/-- The first five are errors of a user's input. -/
inductive Error where
  | template (fault : Fault)
  | notFound (name : String)
  | unsupported (key typeName : String)
  | contextFile (cause : ContextFileCause)
  | templateFile (cause : TemplateFileCause)
  | twoContexts
  | selector (item : Value)
  | notDictionary (typeName : String)
  | blankSelector (item : String)
  | lostSelector
  | content (fault : Yaml.ContentFault)
  | undecodable (fault : Text.Utf8Fault)
  | tooDeep
  deriving Repr

namespace Error

def notFoundText (name : String) : String := "Template not found: " ++ name

def unsupportedText (key typeName : String) : String :=
  s!"Unsupported context value for {key}: {typeName} (expected str, int, float, bool or None)"

/-- The words of an error; those of a fault in a template end with its line and column. -/
def message : Error → String
  | .template f => s!"{f.cause.message} at {f.position.line}:{f.position.column}"
  | .notFound name => notFoundText (Text.quote name)
  | .unsupported key typeName => unsupportedText (Text.quote key) typeName
  | .contextFile cause => cause.message
  | .templateFile cause => cause.message
  | .twoContexts => "render() got two contexts; pass a block name as the first argument"
  | .selector item => "Invalid template selector: " ++ item.literal
  | .notDictionary typeName => s!"'{typeName}' object has no attribute 'get'"
  | .blankSelector item => s!"Invalid selector '{item}'. Expected 'NAME' or 'NAME:FILE'"
  | .lostSelector => "'list' object has no attribute 'partition'"
  | .content fault => fault.message
  | .undecodable fault => fault.message
  | .tooDeep => "maximum recursion depth exceeded while encoding a JSON object"

def isUser : Error → Bool
  | .template .. | .notFound .. | .unsupported .. | .contextFile .. | .templateFile .. => true
  | .twoContexts | .selector .. | .notDictionary .. | .blankSelector .. | .lostSelector
  | .content .. | .undecodable .. | .tooDeep => false

/-- Whether a run of the program foresees the error, and so ends with a complaint. -/
def isForeseen : Error → Bool
  | .twoContexts | .selector .. | .notDictionary .. | .lostSelector | .tooDeep => false
  | .content fault => fault.isForeseen
  | _ => true

end Error

end Stencil
