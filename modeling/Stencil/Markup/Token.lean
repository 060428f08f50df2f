import Stencil.Markup.Position
import Stencil.Text.Quoted

/-!
# Tokens

* `Lexeme`: what a piece of a template is: a run of text, an expression, the start or the stop of
  a block;
* `Token`: a lexeme and where it begins;
* `Token.literal`: a token on one line.
-/

namespace Stencil

inductive Lexeme where
  | text (run : String)
  | expression (name : String)
  | blockStart (name : String)
  | blockStop
  deriving DecidableEq, Repr

namespace Lexeme

def kind : Lexeme → String
  | .text _ => "String"
  | .expression _ => "Expression"
  | .blockStart _ => "TemplateStart"
  | .blockStop => "TemplateStop"

def constant : Lexeme → String
  | .text _ => "STRING"
  | .expression _ => "EXPRESSION"
  | .blockStart _ => "TEMPLATE_START"
  | .blockStop => "TEMPLATE_STOP"

def payload? : Lexeme → Option String
  | .text run => some run
  | .expression name => some name
  | .blockStart name => some name
  | .blockStop => none

end Lexeme

structure Token where
  lexeme : Lexeme
  position : Position
  deriving DecidableEq, Repr

def Token.literal (t : Token) : String :=
  let payload := (t.lexeme.payload?.map Text.quote).getD "None"
  s!"Token({t.lexeme.constant}, {payload}, {t.position.line}:{t.position.column})"

end Stencil
