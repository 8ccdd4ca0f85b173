import VhdlDesign.Build.Grammar

/-!
Builders carry out recipes on a graph.

The nodes that are open, from the innermost outward, are a plain argument. A node that is open
cannot be entered again, and no more nodes may be open than the depth limit says; recursion is on
the room that is left below that limit.
-/
namespace VhdlDesign

/-- The longest chain that is followed, and the deepest nesting of nodes. -/
structure Limits where
  chainLength : Nat := 65536
  depth : Nat := 512
  deriving DecidableEq

/-- A graph, the limits for building from it, and the nodes that are open. -/
structure Builder where
  graph : Graph
  limits : Limits := {}
  path : List NodeRef := []

namespace Builder

def node (b : Builder) (n : NodeRef) : Except Fault Node :=
  match b.graph n with
  | some x => .ok x
  | none => .error (.absent n b.path)

def refuse {α : Type} (b : Builder) (n : NodeRef) (c : Cause) : Except Fault α := do
  let x ← b.node n
  .error (x.issue n c)

def elements (b : Builder) (head : Option NodeRef) : Except Fault (List NodeRef) := do
  let trail := walk b.graph.next b.limits.chainLength head
  trail.nodes.forM fun n => discard (b.node n)
  match trail.defect with
  | none => .ok trail.nodes
  | some (n, defect) => b.refuse n (.malformedChain defect)

end Builder

namespace Node

/-- What a field of a node holds. The kind of the node has to define the field. -/
def edge? (x : Node) (n : NodeRef) (f : Field) : Except Fault (Option NodeRef) :=
  if x.kind.defines f then .ok (x.field f)
  else .error (x.issue n (.contractViolation (.fieldNotApplicable f)))

def edge (x : Node) (n : NodeRef) (f : Field) : Except Fault NodeRef := do
  match ← x.edge? n f with
  | some m => .ok m
  | none => .error (x.issue n (.contractViolation (.missingField f)))

end Node

namespace Builder

def label (b : Builder) (read : Attributes → Except Cause String) (n : NodeRef) :
    Except Fault String := do
  let x ← b.node n
  match read x.toAttributes with
  | .ok s => .ok s
  | .error cause => .error (x.issue n cause)

/-- Carries out a recipe at the node `x` behind `n`. Other nodes are built by `enter`. -/
def carryOut {α : Type} (b : Builder) (n : NodeRef) (x : Node)
    (enter : (f : Form) → NodeRef → Except Fault f.Value) : Recipe α → Except Fault α
  | .done value => .ok value
  | .refuse cause => .error (x.issue n cause)
  | .look rest => carryOut b n x enter (rest x.toAttributes)
  | .touch field rest => do
    discard (x.edge? n field)
    carryOut b n x enter rest
  | .child field form rest => do
    let m ← x.edge n field
    let v ← enter form m
    carryOut b n x enter (rest v)
  | .optional field form rest => do
    match ← x.edge? n field with
    | none => carryOut b n x enter (rest none)
    | some m =>
      let v ← enter form m
      carryOut b n x enter (rest (some v))
  | .chain field form rest => do
    let head ← x.edge? n field
    let ms ← b.elements head
    let vs ← ms.mapM (enter form)
    carryOut b n x enter (rest vs)
  | .label field read rest => do
    let m ← x.edge n field
    let s ← b.label read m
    carryOut b n x enter (rest s)
  | .labels field read rest => do
    let head ← x.edge? n field
    let ms ← b.elements head
    let ss ← ms.mapM (b.label read)
    carryOut b n x enter (rest ss)

theorem carryOut_bind {α β : Type} (b : Builder) (n : NodeRef) (x : Node)
    (enter : (f : Form) → NodeRef → Except Fault f.Value) (r : Recipe α) (k : α → Recipe β) :
    b.carryOut n x enter (r.bind k) =
      b.carryOut n x enter r >>= fun a => b.carryOut n x enter (k a) := by
  induction r with
  | done value => rfl
  | refuse cause => rfl
  | look rest ih => exact ih x.toAttributes
  | touch field rest ih =>
    simp only [Recipe.bind, carryOut, bind_assoc, ih]
  | child field form rest ih =>
    simp only [Recipe.bind, carryOut, bind_assoc, ih]
  | optional field form rest ih =>
    simp only [Recipe.bind, carryOut, bind_assoc]
    congr 1
    funext held
    cases held <;> simp only [bind_assoc, ih]
  | chain field form rest ih =>
    simp only [Recipe.bind, carryOut, bind_assoc, ih]
  | label field read rest ih =>
    simp only [Recipe.bind, carryOut, bind_assoc, ih]
  | labels field read rest ih =>
    simp only [Recipe.bind, carryOut, bind_assoc, ih]

/-- Turns away a node whose kind does not fit the form, for the forms that look before entering. -/
def screen (b : Builder) (f : Form) (n : NodeRef) : Except Fault Unit :=
  match f.screen with
  | none => .ok ()
  | some takes => do
    let x ← b.node n
    if takes x.kind then .ok () else .error (x.issue n (.unsupportedKind x.kind))

def push (b : Builder) (n : NodeRef) : Builder := { b with path := n :: b.path }

/-- Opens a node and builds a form from it, with room for so many more open nodes. -/
def enter : (room : Nat) → Builder → (f : Form) → NodeRef → Except Fault f.Value
  | room, b, f, n => do
    b.screen f n
    if n ∈ b.path then b.refuse n (.contractViolation .ancestorReference)
    else
      match room with
      | 0 => b.refuse n (.contractViolation (.depthExceeded b.limits.depth))
      | room + 1 => do
        let inner := b.push n
        let x ← inner.node n
        inner.carryOut n x (enter room inner) (Grammar.recipe f)

def room (b : Builder) : Nat := b.limits.depth - b.path.length

def build (b : Builder) (f : Form) (n : NodeRef) : Except Fault f.Value := enter b.room b f n

/-- Builds a form from a node that the caller answers for: the node is not opened. -/
def buildOpen (b : Builder) (f : Form) (n : NodeRef) : Except Fault f.Value := do
  let x ← b.node n
  b.carryOut n x b.build (Grammar.recipe f)

/-! ### Single questions -/

def kindOf (b : Builder) (n : NodeRef) : Except Fault Kind := do
  let x ← b.node n
  return x.kind

def field? (b : Builder) (n : NodeRef) (f : Field) : Except Fault (Option NodeRef) := do
  let x ← b.node n
  x.edge? n f

def field (b : Builder) (n : NodeRef) (f : Field) : Except Fault NodeRef := do
  let x ← b.node n
  x.edge n f

def identifier (b : Builder) (n : NodeRef) : Except Fault String := b.label Attributes.identifier n

def unsupported {α : Type} (b : Builder) (n : NodeRef) : Except Fault α := do
  let x ← b.node n
  .error (x.issue n (.unsupportedKind x.kind))

def expect (b : Builder) (n : NodeRef) (kinds : List Kind) : Except Fault Kind := do
  let x ← b.node n
  if x.kind ∈ kinds then .ok x.kind else b.unsupported n

def descend (b : Builder) (n : NodeRef) : Except Fault Builder :=
  if n ∈ b.path then b.refuse n (.contractViolation .ancestorReference)
  else if b.path.length < b.limits.depth then .ok (b.push n)
  else b.refuse n (.contractViolation (.depthExceeded b.limits.depth))

end Builder

/-! ### Whole files -/

def buildDesignFile (g : Graph) (limits : Limits) (root : NodeRef) : Except Fault DesignFile :=
  ({ graph := g, limits } : Builder).build .designFile root

/-- Keeps an issue as a result. A reference with no node behind it stays a failure. -/
def settle {α : Type} : Except Fault α → Except Fault (Except Issue α)
  | .ok value => .ok (.ok value)
  | .error (.issue i) => .ok (.error i)
  | .error (.absent n path) => .error (.absent n path)

/-- Builds each design unit of a file by itself, in file order. Only a malformed root or chain of
units is an issue of the whole. -/
def buildDesignUnits (g : Graph) (limits : Limits) (root : NodeRef) :
    Except Fault (List (Except Issue DesignUnit)) := do
  let start : Builder := { graph := g, limits }
  discard (start.expect root [.designFile])
  let b ← start.descend root
  let head ← b.field? root .designUnits
  let units ← b.elements head
  units.mapM fun n => settle (b.build .designUnit n)

def buildNode (g : Graph) (limits : Limits) (n : NodeRef) : Except Fault DesignNode :=
  ({ graph := g, limits } : Builder).build .anyNode n

end VhdlDesign
