import Stencil.Context
import Stencil.Selector
import Stencil.Template.Search

/-!
# Rendering

* `Entry.renderLevels`: the walk over pending entries that all rendering comes down to;
* `Template.render`: the text of a whole node;
* `Template.renderBlock`: the text of the block of a name;
* `Template.renderOnly`, `Template.renderExcept`, `Template.renderSome`: the selected blocks alone,
  all but them, and everything with the selected blocks under contexts of their own.

A rendering fails with the error of the first expression, in the order of the output, that fails.
-/

namespace Stencil

namespace Entry

noncomputable def weight : List (List Entry × Context) → Nat
  | [] => 0
  | level :: levels => 1 + sizeOf level.1 + weight levels

/-- Walks the pending entries, those of the innermost level first. A block opens a level of its own
with the context of the level it stands on, and an expression that fails ends the walk. -/
def renderLevels (output : String) : List (List Entry × Context) → Except Error String
  | [] => .ok output
  | ([], _) :: levels => renderLevels output levels
  | (.text run :: rest, context) :: levels =>
    renderLevels (output ++ run) ((rest, context) :: levels)
  | (.expression name :: rest, context) :: levels =>
    match lookup context name with
    | .ok shown => renderLevels (output ++ shown) ((rest, context) :: levels)
    | .error e => .error e
  | (.block _ body :: rest, context) :: levels =>
    renderLevels output ((body, context) :: (rest, context) :: levels)
termination_by levels => weight levels
decreasing_by
  all_goals simp only [weight, List.cons.sizeOf_spec, block.sizeOf_spec]
  all_goals omega

def renderAll (context : Context) (entries : List Entry) : Except Error String :=
  renderLevels "" [(entries, context)]

/-- The text of an entry; blocks hand the context on to their entries. -/
def render (context : Context) : Entry → Except Error String
  | .text run => .ok run
  | .expression name => lookup context name
  | .block _ body => renderAll context body

end Entry

def concat : List (Except Error String) → Except Error String
  | [] => .ok ""
  | r :: rest => do
    let text ← r
    let texts ← concat rest
    .ok (text ++ texts)

namespace Template

def render (t : Template) (context : Context) : Except Error String :=
  Entry.renderAll context t.entries

def renderBlock (t : Template) (name : String) (context : Context) : Except Error String := do
  let site ← t.find name
  site.template.render context

/-- What a node renders when it is given a name or a context first, and perhaps a context after
it. A context may be given in one place only. -/
def renderWith (t : Template) (nameOrContext context : Value) : Except Error String :=
  match nameOrContext, context with
  | .text name, context => t.renderBlock name context
  | .null, context => t.render context
  | first, .null => t.render first
  | _, _ => .error .twoContexts

/-- A single selector takes the block of its name from anywhere in the tree, and renders nothing if
there is none. A list takes children only, in the order of the tree, each once for every selector
of its name. -/
def renderOnly (t : Template) (selection : Selection) (context : Context) : Except Error String :=
  match selection with
  | .single s =>
    match t.search s.name with
    | some site => site.template.render (s.contextOr context)
    | none => .ok ""
  | .list items =>
    concat (t.children.flatMap fun child =>
      (items.filter fun s => child.name == s.name).map fun s => child.render (s.contextOr context))

def isNamed (names : List String) : Entry → Bool
  | .block name _ => names.contains name
  | _ => false

/-- Leaves out the selected children; own contexts do not matter. An empty list renders nothing. -/
def renderExcept (t : Template) (selection : Selection) (context : Context) : Except Error String :=
  match selection.selectors with
  | [] => .ok ""
  | selectors =>
    let names := selectors.map Selector.name
    Entry.renderAll context (t.entries.filter fun e => !isNamed names e)

/-- The context of a child: that of the first selector of its name, and else the shared one. -/
def contextFor (selectors : List Selector) (context : Context) (name : String) : Context :=
  match selectors.find? fun s => s.name == name with
  | some s => s.contextOr context
  | none => context

/-- Renders everything, selected children under their own contexts. An empty list renders
nothing. -/
def renderSome (t : Template) (selection : Selection) (context : Context) : Except Error String :=
  match selection.selectors with
  | [] => .ok ""
  | selectors =>
    concat (t.entries.map fun e =>
      match e with
      | .block name _ => e.render (contextFor selectors context name)
      | e => e.render context)

end Template

end Stencil
