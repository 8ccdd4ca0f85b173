import VhdlDesign.Report.Report
import VhdlDesign.Workspace.FileTree

/-!
Documents: image texts with their limits. A document that is read from a file is kept under the
place of the file and the limits that were asked for, so that it is read once.
-/
namespace VhdlDesign

structure Document where
  path : String
  text : String
  limits : Limits
  deriving DecidableEq

def Document.report (d : Document) : Report := Report.ofText d.text d.limits

structure DocumentRef where
  index : Nat
  deriving DecidableEq

/-- The documents of a session, and which of them were read for a place and limits. -/
structure Workspace where
  documents : Array Document := #[]
  cache : List ((Location × Limits) × DocumentRef) := []

namespace Workspace

def get? (w : Workspace) (d : DocumentRef) : Option Document := w.documents[d.index]?

def add (w : Workspace) (d : Document) : Workspace × DocumentRef :=
  ({ w with documents := w.documents.push d }, ⟨w.documents.size⟩)

def setText (w : Workspace) (d : DocumentRef) (text : String) : Workspace :=
  { w with documents := w.documents.modify d.index fun x => { x with text } }

def setLimits (w : Workspace) (d : DocumentRef) (limits : Limits) : Workspace :=
  { w with documents := w.documents.modify d.index fun x => { x with limits } }

/-- The document at a path under some limits. One that was read before is returned as it is now,
whatever became of the file. -/
def input (w : Workspace) (files : FileTree) (path : String) (limits : Limits) :
    Except FileError (Workspace × DocumentRef) := do
  let place ← files.canonical path
  match w.cache.lookup (place, limits) with
  | some d => .ok (w, d)
  | none =>
    let text ← files.read place
    let (w, d) := w.add { path := absolutePath place, text, limits }
    .ok ({ w with cache := ((place, limits), d) :: w.cache }, d)

end Workspace

end VhdlDesign
