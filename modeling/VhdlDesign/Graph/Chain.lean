import VhdlDesign.Graph.Node

/-!
Chains: lists of nodes linked by a successor function.

A walk stops at the end of the chain, at a node that it has met before, or at the limit. It says
what it collected and why it stopped, so that a malformed chain is known as such before any of its
elements is used.
-/
namespace VhdlDesign

inductive ChainDefect
  | cycle (repeated : NodeRef) (length : Nat)
  | tooLong (limit : Nat)
  deriving DecidableEq

def ChainDefect.text : ChainDefect → String
  | .cycle repeated length =>
    "node " ++ repeated.text ++ " appears again after " ++ toString length ++ " elements"
  | .tooLong limit => "chain is longer than " ++ toString limit ++ " elements"

/-- What a walk found: the elements in order, each of which was asked for its successor once, and
the node and defect that stopped the walk, if any. -/
structure Trail where
  nodes : List NodeRef
  defect : Option (NodeRef × ChainDefect)
  deriving DecidableEq

/-- Follows a chain from where the elements `seen` have led. A node met again is reported before
the limit is. -/
def follow (next : NodeRef → Option NodeRef) (limit : Nat) :
    (room : Nat) → (seen : List NodeRef) → Option NodeRef → Trail
  | _, _, none => ⟨[], none⟩
  | room, seen, some n =>
    if n ∈ seen then ⟨[], some (n, .cycle n seen.length)⟩
    else
      match room with
      | 0 => ⟨[], some (n, .tooLong limit)⟩
      | room + 1 =>
        let rest := follow next limit room (n :: seen) (next n)
        ⟨n :: rest.nodes, rest.defect⟩

def walk (next : NodeRef → Option NodeRef) (limit : Nat) (start : Option NodeRef) : Trail :=
  follow next limit limit [] start

/-- Follows a chain as `follow` does, with a successor function that may do something each time it
is asked. -/
def followM {m : Type → Type} [Monad m] (next : NodeRef → m (Option NodeRef)) (limit : Nat) :
    (room : Nat) → (seen : List NodeRef) → Option NodeRef → m Trail
  | _, _, none => return ⟨[], none⟩
  | room, seen, some n =>
    if n ∈ seen then return ⟨[], some (n, .cycle n seen.length)⟩
    else
      match room with
      | 0 => return ⟨[], some (n, .tooLong limit)⟩
      | room + 1 => do
        let successor ← next n
        let rest ← followM next limit room (n :: seen) successor
        return ⟨n :: rest.nodes, rest.defect⟩

def walkM {m : Type → Type} [Monad m] (next : NodeRef → m (Option NodeRef)) (limit : Nat)
    (start : Option NodeRef) : m Trail :=
  followM next limit limit [] start

inductive ChainFailure (ε : Type)
  | chain (node : NodeRef) (defect : ChainDefect)
  | element (error : ε)

/-- Walks a whole chain and then makes something of each element in order, up to the first that
fails. -/
def collect {m : Type → Type} [Monad m] {ε β : Type} (next : NodeRef → m (Option NodeRef))
    (limit : Nat) (start : Option NodeRef) (make : NodeRef → m (Except ε β)) :
    m (Except (ChainFailure ε) (List β)) := do
  let trail ← walkM next limit start
  match trail.defect with
  | some (n, defect) => return .error (.chain n defect)
  | none =>
    let made ← (trail.nodes.mapM fun n => ExceptT.mk (make n)).run
    return made.mapError .element

end VhdlDesign
