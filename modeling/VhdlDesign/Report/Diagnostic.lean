import VhdlDesign.Build.Issue
import VhdlDesign.Image.Load

/-! Diagnostics: what a reader of a report is told. -/
namespace VhdlDesign

inductive Severity
  | error | warning
  deriving DecidableEq

def Severity.text : Severity → String
  | .error => "ERROR"
  | .warning => "WARNING"

inductive Phase
  | loading | construction
  deriving DecidableEq

def Phase.text : Phase → String
  | .loading => "loading"
  | .construction => "construction"

structure Diagnostic where
  message : String
  severity : Severity
  phase : Phase
  kind : Option Kind := none
  position : Option Position := none
  deriving DecidableEq

namespace Diagnostic

def isError (d : Diagnostic) : Bool := d.severity == .error

def text (d : Diagnostic) : String :=
  let place := match d.position with
    | some p => " " ++ p.text
    | none => ""
  d.severity.text ++ " [" ++ d.phase.text ++ "]" ++ place ++ ": " ++ d.message

def ofLoadError (e : LoadError) : Diagnostic :=
  { message := e.text, severity := .error, phase := .loading }

/-- An issue by its node. The position is kept apart from the message. -/
def ofIssue (i : Issue) : Diagnostic :=
  { message := i.summary, severity := .error, phase := .construction, kind := some i.kind
    position := i.position }

def ofFault : Fault → Diagnostic
  | .issue i => ofIssue i
  | .absent n _ =>
    { message := "node " ++ n.text ++ " is not in the table", severity := .error
      phase := .construction }

def noUnit : Diagnostic :=
  { message := "no design unit could be built", severity := .warning, phase := .construction }

end Diagnostic

end VhdlDesign
