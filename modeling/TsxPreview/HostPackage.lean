/-!
The packages that the host supplies. Only these can be imported from outside a project.
-/

namespace TsxPreview

inductive HostPackage where
  /-- Elements and hooks. -/
  | react
  /-- The element factory that lowered markup calls. -/
  | jsxRuntime
  /-- Icons: any capitalised name is one. -/
  | icons
  /-- Joins class names. -/
  | clsx
  /-- The same under its older name. -/
  | classNames
  /-- Builds class names from variants. -/
  | variantClasses
  /-- Drops classes that later ones override. -/
  | tailwindMerge
  /-- Joins and drops. -/
  | utils
  /-- Passes its props on to its child. -/
  | slot
  /-- Routes and links. -/
  | router
  deriving DecidableEq, Inhabited

namespace HostPackage

def all : List HostPackage :=
  [react, jsxRuntime, icons, clsx, classNames, variantClasses, tailwindMerge, utils, slot, router]

/-- The specifier that imports a package. -/
def specifier : HostPackage → String
  | react => "react"
  | jsxRuntime => "react/jsx-runtime"
  | icons => "lucide-react"
  | clsx => "clsx"
  | classNames => "classnames"
  | variantClasses => "class-variance-authority"
  | tailwindMerge => "tailwind-merge"
  | utils => "@/lib/utils"
  | slot => "@radix-ui/react-slot"
  | router => "react-router-dom"

/-- The name of a package in reports. -/
def name : HostPackage → String
  | react => "react"
  | jsxRuntime => "jsx-runtime"
  | icons => "icons"
  | clsx => "clsx"
  | classNames => "class-names"
  | variantClasses => "variant-classes"
  | tailwindMerge => "tailwind-merge"
  | utils => "utils"
  | slot => "slot"
  | router => "router"

/-- The development build of the element factory is the same package. -/
def ofSpecifier? (text : String) : Option HostPackage :=
  if text == "react/jsx-dev-runtime" then some jsxRuntime
  else all.find? fun p => p.specifier == text

end HostPackage

end TsxPreview
