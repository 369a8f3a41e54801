import TsxPreview.Repair.Report
import TsxPreview.Repair.Scan

/-!
Counting declarations. A revision that may not create or destroy one compares the counts before and
after.
-/

namespace TsxPreview

/-- A declaration keyword. The `const` of `as const` declares nothing. -/
def Scan.declares (s : Scan) (i : Nat) : Bool :=
  (s.kind i).isDeclarationKeyword && !(i != 0 && s.ident? (i - 1) == some "as")

namespace Census

def ofScan (s : Scan) : Census :=
  let found := (List.range s.size).filter s.declares
  ⟨found.length, (found.filter fun i => s.braceDepth i == 0).length⟩

def ofText (text : String) : Census := ofScan (Scan.ofText text)

end Census

end TsxPreview
