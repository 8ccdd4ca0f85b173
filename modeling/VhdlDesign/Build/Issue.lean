import VhdlDesign.Graph.Chain
import VhdlDesign.Text.Quoted

/-!
Issues: why a design cannot be built from a graph, and at which node. A node may fail for its name,
so that the texts that can name something in a design are told here too.
-/
namespace VhdlDesign

/-! ### Identifiers -/

def isControl (c : Char) : Bool := c.toNat < 0x20 || (0x7f ≤ c.toNat && c.toNat ≤ 0x9f)

/-- The characters with the Unicode property `White_Space`. -/
def isBlank (c : Char) : Bool :=
  let n := c.toNat
  (9 ≤ n && n ≤ 13) || n == 0x20 || n == 0x85 || n == 0xa0 || n == 0x1680
    || (0x2000 ≤ n && n ≤ 0x200a) || n == 0x2028 || n == 0x2029 || n == 0x202f || n == 0x205f
    || n == 0x3000

inductive NameDefect
  | missing
  | empty
  | invalidCharacter (name : String)
  deriving DecidableEq

def isExtended (name : String) : Bool :=
  2 ≤ name.utf8ByteSize && name.toList.head? == some '\\' && name.toList.getLast? == some '\\'

/-- A control character is never allowed, white space only in an extended identifier. -/
def isForbidden (extended : Bool) (c : Char) : Bool := isControl c || (!extended && isBlank c)

def checkIdentifier : Option String → Except NameDefect String
  | none => .error .missing
  | some name =>
    if name.isEmpty then .error .empty
    else if name.toList.any (isForbidden (isExtended name)) then .error (.invalidCharacter name)
    else .ok name

/-! ### Causes -/

inductive Violation
  | fieldNotApplicable (field : Field)
  | missingField (field : Field)
  | ancestorReference
  | depthExceeded (limit : Nat)
  | missingAttribute (what : String)
  | literalMismatch
  | unexpectedKind (expected : String)
  deriving DecidableEq

inductive Cause
  | malformedChain (defect : ChainDefect)
  | unresolvableName (defect : NameDefect)
  | unsupportedKind (kind : Kind)
  | contractViolation (violation : Violation)
  deriving DecidableEq

def NameDefect.text : NameDefect → String
  | .missing => "no identifier"
  | .empty => "empty identifier"
  | .invalidCharacter name =>
    "identifier " ++ quoteString name ++ " contains an invalid character"

def Violation.text : Violation → String
  | .fieldNotApplicable field => "field " ++ field.label ++ " is not defined for this kind"
  | .missingField field => "required field " ++ field.label ++ " is absent"
  | .ancestorReference => "node refers back to one of its ancestors"
  | .depthExceeded limit => "nesting deeper than " ++ toString limit ++ " levels"
  | .missingAttribute what => "missing " ++ what ++ " attribute"
  | .literalMismatch => "literal value does not match the node kind"
  | .unexpectedKind expected => "expected " ++ expected

def Cause.text : Cause → String
  | .malformedChain defect => "malformed chain: " ++ defect.text
  | .unresolvableName defect => "unresolvable name: " ++ defect.text
  | .unsupportedKind kind => "unsupported node kind " ++ kind.label
  | .contractViolation violation => "provider contract violation: " ++ violation.text

structure Issue where
  cause : Cause
  node : NodeRef
  kind : Kind
  position : Option Position
  deriving DecidableEq

def Issue.summary (i : Issue) : String :=
  i.kind.label ++ " " ++ i.node.text ++ ": " ++ i.cause.text

def Issue.text (i : Issue) : String :=
  let place := match i.position with
    | some p => " at " ++ p.text
    | none => ""
  i.kind.label ++ " " ++ i.node.text ++ place ++ ": " ++ i.cause.text

/-- What ends a build: an issue, or a reference with no node behind it, met while the nodes of
`path` were open. -/
inductive Fault
  | issue (i : Issue)
  | absent (node : NodeRef) (path : List NodeRef)
  deriving DecidableEq

def Node.issue (x : Node) (n : NodeRef) (c : Cause) : Fault := .issue ⟨c, n, x.kind, x.position⟩

end VhdlDesign
