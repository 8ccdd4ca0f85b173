import VhdlDesign.Graph.Kind
import VhdlDesign.Number.Double

/-! Nodes of a design graph: what a node says of itself and where its edges lead. -/
namespace VhdlDesign

inductive Mode
  | input | output | inout | buffer | linkage
  deriving DecidableEq

namespace Mode

def all : List Mode := [.input, .output, .inout, .buffer, .linkage]

def label : Mode → String
  | .input => "In"
  | .output => "Out"
  | .inout => "InOut"
  | .buffer => "Buffer"
  | .linkage => "Linkage"

def text : Mode → String
  | .input => "in"
  | .output => "out"
  | .inout => "inout"
  | .buffer => "buffer"
  | .linkage => "linkage"

def ofKey? (s : String) : Option Mode := all.find? (fun m => snake m.label == s)

end Mode

inductive Direction
  | ascending | descending
  deriving DecidableEq

namespace Direction

def all : List Direction := [.ascending, .descending]

def label : Direction → String
  | .ascending => "To"
  | .descending => "Downto"

def text : Direction → String
  | .ascending => "to"
  | .descending => "downto"

def ofKey? (s : String) : Option Direction := all.find? (fun d => d.text == s)

end Direction

inductive Flag
  | shared | impure
  deriving DecidableEq

def Flag.ofKey? (s : String) : Option Flag :=
  if s = "shared" then some .shared else if s = "impure" then some .impure else none

inductive Literal
  | integer (value : Int)
  | real (value : Double)
  | character (value : Char)
  | string (value : String)
  deriving DecidableEq

structure Position where
  file : Option String
  line : Nat
  column : Nat
  deriving DecidableEq

def Position.text (p : Position) : String :=
  let place := toString p.line ++ ":" ++ toString p.column
  match p.file with
  | some file => file ++ ":" ++ place
  | none => place

/-- A reference to a node by its place in the table. References are shown by number, from 1. -/
structure NodeRef where
  index : Nat
  deriving DecidableEq

namespace NodeRef

def number (n : NodeRef) : Nat := n.index + 1

def ofNumber? : Nat → Option NodeRef
  | 0 => none
  | i + 1 => some ⟨i⟩

def text (n : NodeRef) : String := "#" ++ toString n.number

theorem ofNumber?_number (n : NodeRef) : ofNumber? n.number = some n := rfl

end NodeRef

structure Attributes where
  kind : Kind
  name : Option String := none
  literal : Option Literal := none
  mode : Option Mode := none
  direction : Option Direction := none
  flags : List Flag := []

def Attributes.has (a : Attributes) (f : Flag) : Bool := a.flags.contains f

/-- A node: its attributes, its source position and its edges. A field of a node may be set also
where the kind does not define it. -/
structure Node extends Attributes where
  position : Option Position := none
  next : Option NodeRef := none
  field : Field → Option NodeRef := fun _ => none

/-- A design graph answers which node stands behind a reference. -/
abbrev Graph := NodeRef → Option Node

def Graph.next (g : Graph) (n : NodeRef) : Option NodeRef := (g n).bind Node.next

end VhdlDesign
