import VhdlDesign.Graph.Arena
import VhdlDesign.Image.Decode

/-! Loading: ids are resolved to places in a table of nodes. -/
namespace VhdlDesign

inductive LoadError
  | malformed
  | duplicateId (id : Nat)
  | danglingReference (source id : Nat)
  | missingRoot (id : Nat)
  deriving DecidableEq

/-- The words in which a refusal is reported. For a text that holds no image at all these are its
first words only: the detail of the parser's error, which would follow after a colon, is left out,
as no definition here says where or why a reader gave up. -/
def LoadError.text : LoadError → String
  | .malformed => "invalid IR image"
  | .duplicateId id => "node id " ++ toString id ++ " is defined more than once"
  | .danglingReference source id =>
    "node " ++ toString source ++ " refers to undefined node id " ++ toString id
  | .missingRoot id => "root node id " ++ toString id ++ " is not defined"

structure LoadedImage where
  arena : Arena
  root : NodeRef

def firstRepeat? (seen : List Nat) : List Nat → Option Nat
  | [] => none
  | id :: rest => if id ∈ seen then some id else firstRepeat? (id :: seen) rest

namespace Image

def ids (i : Image) : List Nat := i.records.map Record.id

def find? (i : Image) (id : Nat) : Option NodeRef := (i.ids.idxOf? id).map NodeRef.mk

end Image

namespace Record

/-- The ids that a record refers to: its successor, then its fields in order. -/
def targets (r : Record) : List Nat := r.next.toList ++ Field.all.filterMap r.field

def toNode (find? : Nat → Option NodeRef) (r : Record) : Except LoadError Node :=
  match r.targets.find? fun id => (find? id).isNone with
  | some id => .error (.danglingReference r.id id)
  | none =>
    .ok { r.toAttributes with
      position := r.position
      next := r.next.bind find?
      field := fun f => (r.field f).bind find? }

end Record

namespace Image

/-- The table of an image. Repeated ids are reported first, then the first dangling reference in
file order, then a missing root. -/
def resolve (i : Image) : Except LoadError LoadedImage := do
  match firstRepeat? [] i.ids with
  | some id => .error (.duplicateId id)
  | none =>
    let nodes ← i.records.mapM fun r => r.toNode i.find?
    match i.find? i.root with
    | some root => .ok ⟨⟨nodes.toArray⟩, root⟩
    | none => .error (.missingRoot i.root)

def load (text : String) : Except LoadError LoadedImage :=
  match (Json.read? text).bind Json.image? with
  | some i => i.resolve
  | none => .error .malformed

end Image

end VhdlDesign
