import Stencil.Error

/-!
# Contexts

* `stringify`: the text of a value in a rendered template;
* `lookup`: the text of a name in a context;
* `validate`: a context with names for keys and supported values only.
-/

namespace Stencil

/-- The context of a rendering: a dictionary from names to values, or nothing. Own contexts of
selectors may be any value. -/
abbrev Context := Value

/-- Nothing has no text, truth values are in lower case, and a number without a fraction is written
as the integer it is. -/
def stringify (key : String) : Value → Except Error String
  | .null => .ok ""
  | .text s => .ok s
  | .bool b => .ok (if b then "true" else "false")
  | .int n => .ok (toString n)
  | .float x =>
    match x.integer? with
    | some n => .ok (toString n)
    | none => .ok (Value.numberLayout.write x)
  | v => .error (.unsupported key v.typeName)

/-- A name that the context does not have, and every name in a context that stands for nothing, has
the empty text. -/
def lookup (context : Context) (key : String) : Except Error String :=
  if context.isFalsy then .ok ""
  else
    match context with
    | .dict pairs => stringify key ((Value.get? pairs key).getD .null)
    | v => .error (.notDictionary v.typeName)

namespace Value

def isSupported : Value → Bool
  | .null | .text _ | .bool _ | .int _ | .float _ => true
  | _ => false

/-- Puts a value under a key: in its place if the key is there, and else at the end. -/
def put (key : String) (value : Value) : List (String × Value) → List (String × Value)
  | [] => [(key, value)]
  | (k, v) :: rest => if k = key then (k, value) :: rest else (k, v) :: put key value rest

end Value

/-- Keys become their labels. Of two keys with one label the first gives the place and the last
gives the value. The first value that is not supported is refused. -/
def validate (pairs : List (Value × Value)) : Except Error (List (String × Value)) :=
  pairs.foldlM
    (fun checked pair =>
      if pair.2.isSupported then .ok (Value.put pair.1.label pair.2 checked)
      else .error (.unsupported pair.1.label pair.2.typeName))
    []

def Value.ofChecked (pairs : List (String × Value)) : Value :=
  .dict (pairs.map fun pair => (.text pair.1, pair.2))

end Stencil
