import TsxPreview.Script.Run
import TsxPreview.View.Stage

/-!
The page that previews are shown on. It lends its container to one preview at a time; each mount
takes the container over from the one before. Heap and loaders are common to all previews of a page.
-/

namespace TsxPreview

structure Page where
  heap : Heap
  loaders : Array Loader := #[]
  /-- What scripts of the page itself see. -/
  globals : ScopeRef
  document : Document
  /-- The element that is lent. -/
  container : NodeId
  /-- How often the container was lent. -/
  leases : Nat := 0
  deriving Inhabited

/-- A document of one division, which has an identifier. -/
def Document.ofContainer (id : String) : NodeId × Document :=
  let (container, d) := Document.empty.addElement "div"
  (container, (d.setAttribute container "id" id).append Document.body container)

namespace Page

def new : Page :=
  let (globals, heap) := Globals.make {}
  let (container, document) := Document.ofContainer "canvas-root"
  { heap, globals, document, container }

/-- The markup of the whole page. -/
def html (p : Page) : String := p.document.innerHtml Document.body

/-! ### Mounts without interaction -/

def inertAttribute : String := "data-canvas-inert"

def styleAttribute : String := "data-canvas-style"

/-- Turns off what follows the pointer, and movement. -/
def inertCss : String :=
  "[data-canvas-inert], [data-canvas-inert] * \x7b pointer-events: none !important; \x7d "
    ++ "[data-canvas-inert] *, [data-canvas-inert] *::before, [data-canvas-inert] *::after "
    ++ "\x7b transition: none !important; animation: none !important; \x7d "
    ++ "[data-canvas-inert] *:hover \x7b filter: none !important; \x7d"

def styleSelector : Selector := ⟨[{ tag := some "style", attributes := [(styleAttribute, none)] }]⟩

/-- The style node of a document, made if there is none. -/
def withStyle (d : Document) : NodeId × Document :=
  match (d.selectAll Document.body styleSelector).head? with
  | some style => (style, d)
  | none =>
    let (style, d) := d.addElement "style"
    let d := d.setAttribute style styleAttribute ""
    let (css, d) := d.addText inertCss
    (style, (d.append style css).append Document.body style)

/-- Lends the container: empties it and marks it. Gives the style node and the number of the
lease. -/
def lend (p : Page) : (NodeId × Nat) × Page :=
  let d := p.document.clear p.container
  let d := d.setAttribute p.container inertAttribute ""
  let d := d.setAttribute p.container "style" "pointer-events: none"
  let (style, document) := withStyle d
  ((style, p.leases + 1), { p with document, leases := p.leases + 1 })

/-- Takes the container back from the lease that holds it; an older lease changes nothing. -/
def reclaim (p : Page) (style : NodeId) (lease : Nat) : Page :=
  if p.leases = lease then
    let d := p.document.clear p.container
    let d := d.removeAttribute p.container inertAttribute
    let d := d.removeAttribute p.container "style"
    { p with document := d.remove style }
  else p

end Page

end TsxPreview
