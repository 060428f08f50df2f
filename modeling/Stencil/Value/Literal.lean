import Stencil.Decimal.Layout
import Stencil.Text.Quoted
import Stencil.Value.Basic

/-!
# Literals

* `Value.numberLayout`: how floating-point numbers are written;
* `Value.literal`: a value the way a programmer would write it down;
* `Value.label`: a value as a label: a text is its own label, the rest have their literals.
-/

namespace Stencil.Value

/-- Numbers from 0.0001 up to ten to the sixteenth are positional and keep a fraction; an exponent
has its sign and two digits at least. -/
def numberLayout : Decimal.Layout :=
  { least := -4, greatest := 15, whole := ".0", mark := "e", width := 2, nan := "nan",
    infinity := "inf" }

def call (name : String) (arguments : List String) : String :=
  name ++ "(" ++ String.intercalate ", " arguments ++ ")"

def zoneLiteral (z : Zone) : String :=
  call "datetime.timezone" [spanLiteral z.ahead, Text.quote z.name]

/-- Seconds and microseconds, without the zeros that nothing follows. -/
def fineParts (m : Moment) : List Nat :=
  if m.microsecond ≠ 0 then [m.second, m.microsecond]
  else if m.second ≠ 0 then [m.second]
  else []

def dateLiteral (d : Date) : String :=
  call "datetime.date" ([d.year, d.month, d.day].map toString)

def momentLiteral (m : Moment) : String :=
  let parts := [m.date.year, m.date.month, m.date.day, m.hour, m.minute] ++ fineParts m
  let zone :=
    match m.zone? with
    | some z => ["tzinfo=" ++ zoneLiteral z]
    | none => []
  call "datetime.datetime" (parts.map toString ++ zone)

mutual

def literal : Value → String
  | .null => "None"
  | .bool b => if b then "True" else "False"
  | .int n => toString n
  | .float x => numberLayout.write x
  | .text s => Text.quote s
  | .bytes b => Text.quoteBytes b
  | .date d => dateLiteral d
  | .moment m => momentLiteral m
  | .list items => "[" ++ String.intercalate ", " (literals items) ++ "]"
  | .tuple [item] => "(" ++ literal item ++ ",)"
  | .tuple items => "(" ++ String.intercalate ", " (literals items) ++ ")"
  | .dict pairs => "\x7b" ++ String.intercalate ", " (pairLiterals pairs) ++ "\x7d"
  | .selector name context => s!"Selector(name={Text.quote name}, context={literal context})"

def literals : List Value → List String
  | [] => []
  | item :: rest => literal item :: literals rest

def pairLiterals : List (Value × Value) → List String
  | [] => []
  | (key, value) :: rest => (literal key ++ ": " ++ literal value) :: pairLiterals rest

end

def label : Value → String
  | .text s => s
  | .date d => d.text
  | .moment m => m.text
  | v => v.literal

end Stencil.Value
