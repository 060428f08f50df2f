import Stencil.Text.Quoted
import Stencil.Value.Calendar

/-!
# Faults of documents

* `Yaml.Problem`: what makes a document unreadable;
* `Yaml.ContentFault`: what makes the content of a scalar no value of its type;
* `Yaml.Fault`: either of them.
-/

namespace Stencil.Yaml

inductive Problem where
  | unprintable (c : Char)
  | unexpectedCharacter (c : Char)
  | missingColon
  | misplacedKey
  | misplacedEntry
  | misplacedValue
  | openQuote
  | escape
  | separatorInQuotes
  | blockHeader
  | blockIndent
  | tag
  | anchor
  | directive
  | unexpectedToken
  | unknownAlias (name : String)
  | secondDocument
  | duplicateKey
  | compoundKey
  | merge
  | wrongTag (name : String)
  | collectionTag
  | base64
  deriving DecidableEq, Repr

def Problem.message : Problem → String
  | .unprintable _ => "special characters are not allowed"
  | .unexpectedCharacter c => "found a character that cannot start any token: " ++ c.toString
  | .missingColon => "could not find expected ':'"
  | .misplacedKey => "mapping keys are not allowed here"
  | .misplacedEntry => "sequence entries are not allowed here"
  | .misplacedValue => "mapping values are not allowed here"
  | .openQuote => "found unexpected end of stream"
  | .escape => "found unknown escape character"
  | .separatorInQuotes => "found unexpected document separator"
  | .blockHeader => "expected chomping or indentation indicators"
  | .blockIndent => "more indented follow up line than first in a block scalar"
  | .tag => "expected a tag"
  | .anchor => "expected the name of an anchor"
  | .directive => "expected a directive"
  | .unexpectedToken => "found an unexpected token"
  | .unknownAlias name => "found undefined alias " ++ Text.quote name
  | .secondDocument => "expected a single document in the stream"
  | .duplicateKey => "found duplicate key"
  | .compoundKey => "found unhashable key"
  | .merge => "expected a mapping or list of mappings for merging"
  | .wrongTag name => "could not determine a constructor for the tag " ++ Text.quote name
  | .collectionTag => "could not determine a constructor for the tag of a collection"
  | .base64 => "failed to decode base64 data"

/-- What keeps a scalar from being what its tag or its form says it is, or a value from being a
key. -/
inductive ContentFault where
  | calendar (f : CalendarFault)
  | integer (base : Nat) (text : String)
  | float (text : String)
  | noDigits
  | truth (word : String)
  | codePoint
  | codePointSize
  | key (typeName : String)
  deriving DecidableEq, Repr

/-- A text in quotes, cut off where it is long. -/
def quoteBriefly (s : String) : String := String.ofList ((Text.quote s).toList.take 200)

def ContentFault.message : ContentFault → String
  | .calendar f => f.message
  | .integer base text => s!"invalid literal for int() with base {base}: {quoteBriefly text}"
  | .float text => "could not convert string to float: " ++ Text.quote text
  | .noDigits => "string index out of range"
  | .truth word => Text.quote word
  | .codePoint => "chr() arg not in range(0x110000)"
  | .codePointSize => "Python int too large to convert to C int"
  | .key typeName => s!"unhashable type: '{typeName}'"

def ContentFault.isForeseen : ContentFault → Bool
  | .calendar .beyond | .noDigits | .truth _ | .codePointSize | .key _ => false
  | _ => true

inductive Fault where
  | form (p : Problem)
  | content (f : ContentFault)
  deriving DecidableEq, Repr

end Stencil.Yaml
