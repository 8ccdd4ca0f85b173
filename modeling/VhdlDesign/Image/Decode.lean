import VhdlDesign.Graph.Node
import VhdlDesign.Json.Reader

/-!
Images: a design graph as records that refer to one another by their ids, and how it is written in
JSON. Records are objects, or arrays with the members in a fixed order. Members that no record has
are refused, except in positions, where they are passed over.
-/
namespace VhdlDesign

/-- A node as it is written. Its id and those it refers to are arbitrary numbers. -/
structure Record extends Attributes where
  id : Nat
  position : Option Position := none
  next : Option Nat := none
  field : Field → Option Nat := fun _ => none

structure Image where
  root : Nat
  records : List Record

namespace Json

/-! ### Plain values -/

def text? : Json → Option String
  | .string s => s
  | _ => none

def integer? : Json → Option Int
  | .number n => n.integer?
  | _ => none

def index? (j : Json) : Option Nat := do
  let z ← j.integer?
  if 0 ≤ z ∧ z < 4294967296 then some z.toNat else none

def nullable {α : Type} (read : Json → Option α) : Json → Option (Option α)
  | .null => some none
  | j => (read j).map some

/-- An enumeration value: its name, or an object that gives null to it. -/
def enumeration {α : Type} (ofKey? : String → Option α) : Json → Option α
  | .string (some s) => ofKey? s
  | .object [(some s, .null)] => ofKey? s
  | _ => none

/-! ### Members -/

abbrev Members := String → Option Json

/-- The members given by an object. A known member may be given only once, and another one only if
the record is open. -/
def objectMembers (known : List String) (isOpen : Bool) (ms : List (Option String × Json)) :
    Option Members := do
  let named ← ms.mapM fun (key, j) => key.map fun key => (key, j)
  let keys := named.map Prod.fst
  if (isOpen || keys.all known.contains) && decide (keys.filter known.contains).Nodup then
    some fun key => named.lookup key
  else none

/-- The members of a record, which may also be written as an array, in order, with some of the last
ones left out. -/
def members (known : List String) (least : Nat) (isOpen : Bool) : Json → Option Members
  | .object ms => objectMembers known isOpen ms
  | .array js =>
    if least ≤ js.length ∧ js.length ≤ known.length then some fun key => (known.zip js).lookup key
    else none
  | _ => none

def required {α : Type} (m : Members) (key : String) (read : Json → Option α) : Option α :=
  (m key).bind read

/-- A member that may be missing or null. -/
def optional {α : Type} (m : Members) (key : String) (read : Json → Option α) :
    Option (Option α) :=
  match m key with
  | none => some none
  | some j => nullable read j

/-- A member that may be missing, but not null. -/
def defaulted {α : Type} (m : Members) (key : String) (default : α) (read : Json → Option α) :
    Option α :=
  match m key with
  | none => some default
  | some j => read j

/-! ### Records -/

def position? (j : Json) : Option Position := do
  let m ← members ["file", "line", "column"] 3 true j
  let file ← optional m "file" text?
  let line ← required m "line" index?
  let column ← required m "column" index?
  some { file, line, column }

def character? (j : Json) : Option Char := do
  let s ← j.text?
  match s.toList with
  | [c] => some c
  | _ => none

def integerLiteral? (j : Json) : Option Int := do
  let z ← j.integer?
  if -9223372036854775808 ≤ z ∧ z < 9223372036854775808 then some z else none

def real? : Json → Option Double
  | .number n => n.toDouble?
  | _ => none

def literal? : Json → Option Literal
  | .object [(some key, j)] =>
    if key = "integer" then (integerLiteral? j).map .integer
    else if key = "real" then (real? j).map .real
    else if key = "character" then (character? j).map .character
    else if key = "string" then (text? j).map .string
    else none
  | _ => none

def fieldTarget? : Option String × Json → Option (Field × Nat)
  | (some key, j) => do
    let f ← Field.ofKey? key
    let id ← index? j
    some (f, id)
  | (none, _) => none

/-- The targets of the fields of a node. Of a field given more than once the last target counts. -/
def fields? : Json → Option (Field → Option Nat)
  | .object ms => do
    let pairs ← ms.mapM fieldTarget?
    some fun f => pairs.reverse.lookup f
  | _ => none

def list? {α : Type} (read : Json → Option α) : Json → Option (List α)
  | .array js => js.mapM read
  | _ => none

def recordKeys : List String :=
  ["id", "kind", "name", "position", "next", "fields", "literal", "mode", "direction", "flags"]

def record? (j : Json) : Option Record := do
  let m ← members recordKeys 9 false j
  let id ← required m "id" index?
  let kind ← required m "kind" (enumeration Kind.ofKey?)
  let name ← optional m "name" text?
  let position ← optional m "position" position?
  let next ← optional m "next" index?
  let field ← defaulted m "fields" (fun _ => none) fields?
  let literal ← optional m "literal" literal?
  let mode ← optional m "mode" (enumeration Mode.ofKey?)
  let direction ← optional m "direction" (enumeration Direction.ofKey?)
  let flags ← defaulted m "flags" [] (list? (enumeration Flag.ofKey?))
  some { id, kind, name, position, next, field, literal, mode, direction, flags }

def image? (j : Json) : Option Image := do
  let m ← members ["root", "nodes"] 2 false j
  let root ← required m "root" index?
  let records ← required m "nodes" (list? record?)
  some { root, records }

end Json

end VhdlDesign
