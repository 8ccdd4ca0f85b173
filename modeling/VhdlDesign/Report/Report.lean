import VhdlDesign.Build.Builder
import VhdlDesign.Report.Diagnostic

/-!
Reports: the design of a text as far as it can be built, with a diagnostic for everything that
cannot. A unit that fails does not hide the others.
-/
namespace VhdlDesign

/-- There is no design if the image or its design file cannot be read at all. -/
structure Report where
  design : Option DesignFile
  diagnostics : List Diagnostic

namespace Report

def hasErrors (r : Report) : Bool := r.diagnostics.any Diagnostic.isError

def built (results : List (Except Issue DesignUnit)) : List DesignUnit :=
  results.filterMap Except.toOption

def issues : List (Except Issue DesignUnit) → List Issue
  | [] => []
  | .ok _ :: rest => issues rest
  | .error i :: rest => i :: issues rest

def ofUnits (results : List (Except Issue DesignUnit)) : Report :=
  let units := built results
  { design := some ⟨units⟩
    diagnostics := (issues results).map .ofIssue ++ if units.isEmpty then [.noUnit] else [] }

def ofText (text : String) (limits : Limits) : Report :=
  match Image.load text with
  | .error e => { design := none, diagnostics := [.ofLoadError e] }
  | .ok image =>
    match buildDesignUnits image.arena.graph limits image.root with
    | .error fault => { design := none, diagnostics := [.ofFault fault] }
    | .ok results => ofUnits results

end Report

end VhdlDesign
