import TsxPreview.Script.Machine

/-!
The export containers of the host's packages. Each realm has its own.
-/

namespace TsxPreview

/-- Export containers by package. -/
abbrev PackageTable := List (HostPackage × Value)

namespace PackageTable

/-- The exports of the element package. -/
def reactEntries : Alloc (List (String × Value)) := do
  let element (f : ElementFunction) : Alloc (String × Value) := do
    return (f.name, ← Alloc.native (.elementFunction f))
  let fragment ← Alloc.native .fragment
  let create ← element .createElement
  let rest ← [ElementFunction.cloneElement, .isValidElement, .memo, .forwardRef,
    .createContext].mapM element
  let children ← Alloc.members
    (← Alloc.natives ChildrenFunction.all ChildrenFunction.name .childrenFunction)
  let hooks ← Alloc.natives Hook.all Hook.name .hook
  return [create, ("Fragment", fragment), ("StrictMode", fragment)] ++ rest
    ++ [("Children", children)] ++ hooks

def routerEntries : Alloc (List (String × Value)) := do
  let make (f : RouterFunction) : Alloc Value := Alloc.native (.router f)
  let browser ← make .browserRouter
  let route ← make .route
  let routes ← Alloc.native (.routes route)
  return [("BrowserRouter", browser), ("HashRouter", browser),
    ("MemoryRouter", ← make .memoryRouter), ("Routes", routes), ("Route", route),
    ("Link", ← make .link), ("NavLink", ← make .navLink), ("useNavigate", ← make .useNavigate),
    ("useLocation", ← make .useLocation), ("useParams", ← make .useParams)]

def find (entries : List (String × Value)) (name : String) : Value :=
  (entries.lookup name).getD .undefined

/-- New containers; functions that several packages export are the same. -/
def make : Alloc PackageTable := do
  let react ← reactEntries
  let create := find react "createElement"
  let clsx ← Alloc.native (.classFunction .clsx)
  let merge ← Alloc.native (.classFunction .twMerge)
  let cn ← Alloc.native (.classFunction .cn)
  let cva ← Alloc.native (.classFunction .cva)
  let slot ← Alloc.native .slot
  let icons ← fun h => h.newId
  let joiner : List (String × Value) := [("default", clsx), ("clsx", clsx), ("classNames", clsx)]
  return [(.react, ← Alloc.members react),
    (.jsxRuntime, ← Alloc.members [("jsx", create), ("jsxs", create),
      ("Fragment", find react "Fragment")]),
    (.icons, .icons icons),
    (.clsx, ← Alloc.members joiner),
    (.classNames, ← Alloc.members joiner),
    (.variantClasses, ← Alloc.members [("cva", cva), ("cx", clsx)]),
    (.tailwindMerge, ← Alloc.members [("twMerge", merge), ("twJoin", clsx)]),
    (.utils, ← Alloc.members [("cn", cn)]),
    (.slot, ← Alloc.members [("Slot", slot), ("Root", slot)]),
    (.router, ← Alloc.members (← routerEntries))]

/-- The container that a specifier names. -/
def container? (table : PackageTable) (specifier : String) : Option Value :=
  (HostPackage.ofSpecifier? specifier).bind fun p => List.lookup p table

/-- A property of a package, without evaluating anything. -/
def member (table : PackageTable) (h : Heap) (p : HostPackage) (name : String) : Value :=
  ((List.lookup p table).getD .undefined).get h name

/-- Declares what code uses without importing it: the element package, its hooks and the joining of
class names. -/
def install (table : PackageTable) (globals : ScopeRef) : Alloc Unit := do
  let define (name : String) (v : Value) : Alloc Unit :=
    modify fun h => h.define globals name v true
  define "React" ((List.lookup HostPackage.react table).getD .undefined)
  for hook in Hook.all do
    define hook.name (table.member (← get) .react hook.name)
  define "cn" (table.member (← get) .utils "cn")
  define "clsx" (table.member (← get) .clsx "clsx")

end PackageTable

end TsxPreview
