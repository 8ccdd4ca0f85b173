import VhdlDesign.Build.Builder

/-!
Contexts: one stack of open nodes for many builds.

A context is a builder whose open nodes are a state. A node is pushed when it is entered and popped
when what was done inside it is over, and a build that fails leaves its context to the next one.
-/
namespace VhdlDesign

/-- What is done in a context. The state is the nodes that are open, from the innermost outward, and
a fault does not undo what was done to it. -/
abbrev Visit (α : Type) := ExceptT Fault (StateM (List NodeRef)) α

/-- A reference had no node behind it. Nothing is put in order after that. -/
def Fault.isAbsent : Fault → Bool
  | .issue _ => false
  | .absent _ _ => true

def endsAbruptly {α : Type} : Except Fault α → Bool
  | .ok _ => false
  | .error e => e.isAbsent

structure Setting where
  graph : Graph
  limits : Limits := {}

namespace Setting

variable {α β : Type}

def builder (s : Setting) (path : List NodeRef) : Builder :=
  { graph := s.graph, limits := s.limits, path }

def ask (s : Setting) (question : Builder → Except Fault α) : Visit α :=
  ExceptT.mk do return question (s.builder (← get))

/-- Does something inside a node: the node is pushed, and popped again whether this succeeds or
fails. -/
def descend (s : Setting) (n : NodeRef) (act : Visit α) : Visit α :=
  ExceptT.mk do
    let path ← get
    if n ∈ path then (s.ask (·.refuse n (.contractViolation .ancestorReference))).run
    else if path.length < s.limits.depth then
      set (n :: path)
      let result ← act.run
      if !endsAbruptly result then modify List.tail
      return result
    else (s.ask (·.refuse n (.contractViolation (.depthExceeded s.limits.depth)))).run

def carryOut (s : Setting) (n : NodeRef) (x : Node)
    (enter : (f : Form) → NodeRef → Visit f.Value) : Recipe α → Visit α
  | .done value => pure value
  | .refuse cause => s.ask fun _ => .error (x.issue n cause)
  | .look rest => s.carryOut n x enter (rest x.toAttributes)
  | .touch field rest => do
    discard (s.ask fun _ => x.edge? n field)
    s.carryOut n x enter rest
  | .child field form rest => do
    let m ← s.ask fun _ => x.edge n field
    let v ← enter form m
    s.carryOut n x enter (rest v)
  | .optional field form rest => do
    match ← s.ask fun _ => x.edge? n field with
    | none => s.carryOut n x enter (rest none)
    | some m =>
      let v ← enter form m
      s.carryOut n x enter (rest (some v))
  | .chain field form rest => do
    let head ← s.ask fun _ => x.edge? n field
    let ms ← s.ask (·.elements head)
    let vs ← ms.mapM (enter form)
    s.carryOut n x enter (rest vs)
  | .label field read rest => do
    let m ← s.ask fun _ => x.edge n field
    let text ← s.ask (·.label read m)
    s.carryOut n x enter (rest text)
  | .labels field read rest => do
    let head ← s.ask fun _ => x.edge? n field
    let ms ← s.ask (·.elements head)
    let texts ← ms.mapM fun m => s.ask (·.label read m)
    s.carryOut n x enter (rest texts)

/-- Opens a node and builds a form from it. The limit on open nodes is tested on the stack; since it
ends the recursion, it never goes deeper than the limit. -/
def enter (s : Setting) : (turns : Nat) → (f : Form) → NodeRef → Visit f.Value
  | turns, f, n => do
    s.ask (·.screen f n)
    s.descend n do
      let x ← s.ask (·.node n)
      match turns with
      | 0 => s.ask (·.refuse n (.contractViolation (.depthExceeded s.limits.depth)))
      | turns + 1 => s.carryOut n x (s.enter turns) (Grammar.recipe f)

def build (s : Setting) (f : Form) (n : NodeRef) : Visit f.Value := s.enter s.limits.depth f n

def buildOpen (s : Setting) (f : Form) (n : NodeRef) : Visit f.Value := do
  let x ← s.ask (·.node n)
  s.carryOut n x s.build (Grammar.recipe f)

/-- Takes an issue as a result, and goes on. What was done to the open nodes stays done. -/
def keep (act : Visit α) : Visit (Except Issue α) := ExceptT.mk do return settle (← act.run)

/-- Builds each design unit of a file by itself, as `buildDesignUnits` does, in one context for all
of them: a unit is built in the state that the one before has left. -/
def buildDesignUnits (s : Setting) (root : NodeRef) : Visit (List (Except Issue DesignUnit)) := do
  discard (s.ask (·.expect root [.designFile]))
  s.descend root do
    let head ← s.ask (·.field? root .designUnits)
    let units ← s.ask (·.elements head)
    units.mapM fun n => keep (s.build .designUnit n)

def chain (s : Setting) (head : Option NodeRef) (make : NodeRef → Visit β) : Visit (List β) := do
  let ms ← s.ask (·.elements head)
  ms.mapM make

end Setting

/-! ### Operations -/

inductive Maker
  | build (f : Form)
  | buildOpen (f : Form)
  | identifier

abbrev Maker.Value : Maker → Type
  | .build f => f.Value
  | .buildOpen f => f.Value
  | .identifier => String

inductive Operation
  | make (maker : Maker) (n : NodeRef)
  | chain (maker : Maker) (head : Option NodeRef)
  | inside (n : NodeRef) (inner : Operation)

abbrev Operation.Answer : Operation → Type
  | .make maker _ => maker.Value
  | .chain maker _ => List maker.Value
  | .inside _ inner => inner.Answer

namespace Setting

def make (s : Setting) (n : NodeRef) : (maker : Maker) → Visit maker.Value
  | .build f => s.build f n
  | .buildOpen f => s.buildOpen f n
  | .identifier => s.ask (·.identifier n)

def run (s : Setting) : (o : Operation) → Visit o.Answer
  | .make maker n => s.make n maker
  | .chain maker head => s.chain head fun n => s.make n maker
  | .inside n inner => s.descend n (s.run inner)

structure Outcome where
  operation : Operation
  result : Except Fault operation.Answer
  depth : Nat

def perform (s : Setting) : List Operation → StateM (List NodeRef) (List Outcome)
  | [] => return []
  | o :: rest => do
    let result ← (s.run o).run
    let depth := (← get).length
    return ⟨o, result, depth⟩ :: (← s.perform rest)

end Setting

end VhdlDesign
