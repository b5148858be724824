import Whisker.Filter
import Whisker.Pragmas
import Whisker.Scope
import Whisker.Settings.Basic
import Whisker.Text.Output
import Whisker.View.Section

/-! Rendering documents. Sections, inclusions, blocks and lambdas lead from one document into
others; the depth bounds how far, and a rendering that needs more fails for that reason alone. -/

namespace Whisker

/-- What stays the same during a rendering. -/
structure Stage where
  settings : Settings
  /-- Partials given for this rendering, by name. -/
  partials : Entries Text
  /-- Escapes the texts of variables in place of the entities of HTML. -/
  escape : Option Value
  filters : Entries Value

/-- The function that escapes texts. One that counts as nothing leaves them to the entities of
HTML. -/
def Stage.escaping? (stage : Stage) : Option Value := stage.escape.filter fun f => !f.isNothing

theorem Stage.escape_of_escaping? {stage : Stage} {f : Value} (h : stage.escaping? = some f) :
    stage.escape = some f :=
  (Option.filter_eq_some_iff.mp h).1

/-- What surrounds a node. -/
structure Site where
  scope : Scope
  pragmas : Pragmas
  /-- The overrides of blocks in force. -/
  blocks : Entries (List Node)
  /-- The names of the inclusions around the node, innermost first. -/
  chain : List Text

/-- What a node renders to. Only an escaping function can give something that is no text. -/
inductive Piece where
  | text (t : Text)
  | unfit

/-- Texts, and the pragmas in force behind them. -/
abbrev Rendered := Text × Pragmas

namespace Piece

/-- A value in place of an escaped text: what counts as nothing inserts nothing. -/
def ofValue (v : Value) : Except Failure Piece :=
  match v with
  | .text t => .ok (.text t)
  | .object o => o.size?.map fun size => if size = some 0 then .text [] else .unfit
  | _ => .ok (if v.isNothing then .text [] else .unfit)

end Piece

namespace Render

/-- Renders nodes one after another; each sees the pragmas that the ones before it enabled. A piece
that is no text is a failure, but only after all nodes are rendered. -/
def inOrder (one : Site → Node → Run (Piece × Pragmas)) (site : Site) (nodes : List Node) :
    Run Rendered := do
  let (pieces, pragmas) ← nodes.foldlM (fun (pieces, pragmas) node => do
    let (piece, pragmas) ← one { site with pragmas } node
    return (piece :: pieces, pragmas)) (([] : List Piece), site.pragmas)
  let texts ← pieces.reverse.mapM fun piece =>
    match piece with
    | .text t => return t
    | .unfit => throw Failure.unfit
  return (texts.flatten, pragmas)

/-- Renders a document in place, apart from its pragmas, which end with it. -/
abbrev Nested := Site → List Node → Run Rendered

/-! ## Variables -/

def escaped (stage : Stage) (depth : Nat) (t : Text) : Run Piece := do
  match stage.escaping? with
  | none => return .text (Text.escapeHtml t)
  | some f =>
    match Piece.ofValue (← f.call depth Value.cannotRender [.text t]) with
    | .ok piece => return piece
    | .error e => throw e

/-- The value of a variable. What a function returns is a template of its own. -/
def variableValue (nested : Nested) (depth : Nat) (site : Site) (name : Text) : Run Value := do
  let v ← site.scope.resolve depth name
  if !v.isCallable then return v
  match ← v.call depth Value.cannotRender [] with
  | .null => return .text []
  | result =>
    let document ← Run.load (Loading.build .standard result.toText)
    return .text (← nested site document.nodes).1

def variable_ (stage : Stage) (nested : Nested) (depth : Nat) (site : Site) (name : Text)
    (isEscaped : Bool) : Run Piece := do
  let (name, filters) :=
    if site.pragmas.isEnabled Pragmas.filters then Filter.split name else (name, [])
  let v ← variableValue nested depth site name
  if v.isMissing then return .text []
  match ← Filter.applyAll depth stage.filters filters v with
  | .null => return .text []
  | v => if isEscaped then escaped stage depth v.toText else return .text v.toText

/-! ## Sections -/

/-- The text that a section lambda returns; it may render texts where the section stands. -/
def lambdaSection (nested : Nested) (depth : Nat) (site : Site) (d : Delimiters) (body : Text)
    (f : Value) : Run Text := do
  let render (t : Text) : Run Text := do
    let document ← Run.load (Loading.build d t)
    return (← nested site document.nodes).1
  match ← f.call depth render [.text body, .renderer] with
  | .null => return []
  | result => return result.toText

def section_ (nested : Nested) (depth : Nat) (site : Site) (name : Text) (children : List Node)
    (d : Delimiters) (body : Text) : Run Rendered := do
  let v ← site.scope.resolve depth name
  match ← SectionValue.ofValue v with
  | .falsy => return ([], site.pragmas)
  | .list items =>
    let label := site.pragmas.iteratorName
    items.foldlM (fun (text, pragmas) item => do
      let (more, pragmas) ←
        nested { site with scope := site.scope.push item label, pragmas } children
      return (text ++ more, pragmas)) ([], site.pragmas)
  | .lambda => return (← lambdaSection nested depth site d body v, site.pragmas)
  | .frame => nested { site with scope := site.scope.push v none } children

def invertedSection (nested : Nested) (depth : Nat) (site : Site) (name : Text)
    (children : List Node) : Run Rendered := do
  let v ← site.scope.resolve depth name
  if (← SectionValue.ofValue v).isFalsy then nested site children
  else return ([], site.pragmas)

/-! ## Inclusions -/

/-- The text of an included template under the indent of its tag. -/
def indented (settings : Settings) (indent t : Text) : Text :=
  if indent.isEmpty || t.isEmpty then t
  else if settings.indentPartials then Text.indentLines indent t
  else indent ++ t

/-- The pragmas that a template starts with. -/
def initialPragmas (settings : Settings) : Run Pragmas := do
  match Pragmas.ofNames settings.strictPragmas settings.pragmas with
  | .error e => throw e
  | .ok (pragmas, warnings) =>
    warnings.forM Run.warn
    return pragmas

/-- The site inside the inclusion of a template that was found. -/
def includedSite (settings : Settings) (site : Site) (name : Text) : Run Site := do
  let chain := name :: site.chain
  if chain.length > settings.maxPartialDepth then throw (.inclusionTooDeep chain.reverse)
  let pragmas ← if settings.partialsInheritPragmas then pure site.pragmas
    else initialPragmas settings
  return { site with pragmas, chain }

/-- The document of a partial. Where that is allowed, a missing one is none, with a warning. -/
def included? (stage : Stage) (name : Text) : Run (Option Document) := do
  match ← Run.load (Loading.included? stage.partials name) with
  | some document => return some document
  | none =>
    if stage.settings.strictPartials then throw (.partialNotFound name)
    Run.warn s!"Partial '{name.string}' not found, rendering empty string"
    return none

/-- The view and template under a name, if the pragma asks for them and they are there. -/
def subView? (depth : Nat) (site : Site) (name : Text) : Run (Option (Text × Value)) := do
  if !site.pragmas.isEnabled Pragmas.subViews then return none
  match ← site.scope.resolve depth name with
  | .subView template view => return some (template, view)
  | _ => return none

def inclusion (stage : Stage) (nested : Nested) (depth : Nat) (site : Site) (name indent : Text) :
    Run Text := do
  match ← subView? depth site name with
  | some (template, view) =>
    let document ← Run.load (Loading.template stage.partials template)
    let inner ← includedSite stage.settings site name
    let (text, _) ← Run.afresh (nested { inner with scope := Scope.ofView view } document.nodes)
    return indented stage.settings indent text
  | none =>
    match ← included? stage name with
    | none => return []
    | some document =>
      let inner ← includedSite stage.settings site name
      let (text, _) ← nested inner document.nodes
      return indented stage.settings indent text

/-- The blocks right inside a parent tag, by name; of two with one name the later counts. -/
def blocksOf (children : List Node) : Entries (List Node) :=
  Entries.ofPairs (children.filterMap fun child =>
    match child with
    | .enclosure .block name children .. => some (name, children)
    | _ => none)

/-- Overrides from outside come before those of the tag itself. -/
def overrides (outer : Entries (List Node)) (children : List Node) : Entries (List Node) :=
  outer.foldl (fun blocks (name, children) => blocks.put name children) (blocksOf children)

def parent (stage : Stage) (nested : Nested) (site : Site) (name indent : Text)
    (children : List Node) : Run Text := do
  let blocks := overrides site.blocks children
  match ← included? stage name with
  | none => return []
  | some document =>
    let inner ← includedSite stage.settings site name
    let (text, _) ← nested { inner with blocks } document.nodes
    return indented stage.settings indent text

/-! ## Nodes -/

def enable (site : Site) (call : PragmaCall) : Run Pragmas := do
  match site.pragmas.enable call.name call.params with
  | .error e => throw e
  | .ok (pragmas, warnings) =>
    warnings.forM Run.warn
    return pragmas

/-- Renders a node, with `nested` for what lies inside it. -/
def step (stage : Stage) (depth : Nat) (nested : Nested) (site : Site) (n : Node) :
    Run (Piece × Pragmas) := do
  match n with
  | .text content => return (.text content, site.pragmas)
  | .comment _ => return (.text [], site.pragmas)
  | .delimiterChange _ => return (.text [], site.pragmas)
  | .variable name isEscaped _ =>
    return (← variable_ stage nested depth site name isEscaped, site.pragmas)
  | .pragma call _ => return (.text [], ← enable site call)
  | .inclusion name indent =>
    return (.text (← inclusion stage nested depth site name (indent.getD [])), site.pragmas)
  | .enclosure .plain name children body d _ _ =>
    let (text, pragmas) ← section_ nested depth site name children d body
    return (.text text, pragmas)
  | .enclosure .inverted name children _ _ _ _ =>
    let (text, pragmas) ← invertedSection nested depth site name children
    return (.text text, pragmas)
  | .enclosure .block name children _ _ _ _ =>
    let (text, pragmas) ← nested site ((site.blocks.get? name).getD children)
    return (.text text, pragmas)
  | .enclosure .parent name children _ _ _ indent =>
    return (.text (← parent stage nested site name indent children), site.pragmas)

/-- Renders a node. Whatever lies inside it is rendered with one level of depth less. -/
def node (stage : Stage) : Nat → Site → Node → Run (Piece × Pragmas)
  | 0, _, _ => throw .tooDeep
  | depth + 1, site, n => step stage depth (inOrder (node stage depth)) site n

/-- Renders the nodes of a document with `view` as the outermost frame. -/
def document (stage : Stage) (depth : Nat) (view : Value) (nodes : List Node) : Run Text := do
  let pragmas ← initialPragmas stage.settings
  return (← inOrder (node stage depth) ⟨Scope.ofView view, pragmas, [], []⟩ nodes).1

end Render

end Whisker
