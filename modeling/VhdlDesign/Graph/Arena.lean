import VhdlDesign.Graph.Node

/-! Arenas: node tables that grow at the end and whose edges can be set. -/
namespace VhdlDesign

/-- A table of nodes. The reference to a node is its place. -/
structure Arena where
  nodes : Array Node := #[]

namespace Arena

def size (a : Arena) : Nat := a.nodes.size

def graph (a : Arena) : Graph := fun n => a.nodes[n.index]?

def add (a : Arena) (x : Node) : Arena × NodeRef :=
  (⟨a.nodes.push x⟩, ⟨a.nodes.size⟩)

def addSimpleName (a : Arena) (name : String) : Arena × NodeRef :=
  a.add { kind := .simpleName, name := some name }

def modify? (a : Arena) (n : NodeRef) (f : Node → Node) : Option Arena :=
  if n.index < a.nodes.size then some ⟨a.nodes.modify n.index f⟩ else none

def setNext? (a : Arena) (n : NodeRef) (next : Option NodeRef) : Option Arena :=
  a.modify? n fun x => { x with next }

end Arena

def Node.setField (x : Node) (f : Field) (target : Option NodeRef) : Node :=
  { x with field := fun g => if g = f then target else x.field g }

namespace Arena

def setField? (a : Arena) (n : NodeRef) (f : Field) (target : Option NodeRef) : Option Arena :=
  a.modify? n fun x => x.setField f target

/-- Links nodes in the given order, pair by pair, and clears the successor of the last. If a node
does not exist, what is left is the arena with the links made before it. -/
def link (a : Arena) : List NodeRef → Except Arena Arena
  | [] => .ok a
  | n :: rest =>
    match a.setNext? n rest.head? with
    | some linked => linked.link rest
    | none => .error a

def chain (a : Arena) (ns : List NodeRef) : Except Arena (Arena × Option NodeRef) := do
  let linked ← a.link ns
  .ok (linked, ns.head?)

/-! ### What the operations do to the graph -/

theorem graph_add (a : Arena) (x : Node) (n : NodeRef) :
    (a.add x).1.graph n = if n.index = a.size then some x else a.graph n :=
  Array.getElem?_push

theorem modify?_isSome (a : Arena) (n : NodeRef) (f : Node → Node) :
    (a.modify? n f).isSome ↔ n.index < a.size := by
  by_cases h : n.index < a.nodes.size <;> simp [modify?, size, h]

theorem graph_modify? {a b : Arena} {n : NodeRef} {f : Node → Node}
    (h : a.modify? n f = some b) (m : NodeRef) :
    b.graph m = if m = n then (a.graph m).map f else a.graph m := by
  simp only [modify?] at h
  split at h
  · cases h
    cases m with
    | mk i =>
      cases n with
      | mk j => simp [graph, Array.getElem?_modify, eq_comm]
  · contradiction

theorem size_modify? {a b : Arena} {n : NodeRef} {f : Node → Node}
    (h : a.modify? n f = some b) : b.size = a.size := by
  simp only [modify?] at h
  split at h
  · cases h
    simp [size]
  · contradiction

end Arena

end VhdlDesign
