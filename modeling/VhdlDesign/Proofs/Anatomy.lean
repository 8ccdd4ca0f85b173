import VhdlDesign.Proofs.Naming
import VhdlDesign.Proofs.Reading

/-!
The anatomy of a design.

A value is taken apart into levels of nesting, the names that are declared on them, the symbols by
which they refer to other things, and sequences. This is written down type by type, without a look
at how values are built; `Form.contents_eq` then says that the parts of a value are those that were
read for it.
-/
namespace VhdlDesign

/-- What a design is made of. A level is a design file or unit, a library unit, a context item, a
declaration, an interface item, a type definition, a range, a record element, an expression, an
element of an aggregate or an argument. -/
inductive Piece
  | name (text : String)
  | symbol (s : Symbol)
  | level (inside : List Piece)
  | sequence (elements : List Piece)

namespace Piece

mutual
def everything : Piece → List Piece
  | .name text => [.name text]
  | .symbol s => [.symbol s]
  | .level inside => .level inside :: everythingIn inside
  | .sequence elements => .sequence elements :: everythingIn elements

def everythingIn : List Piece → List Piece
  | [] => []
  | p :: rest => p.everything ++ everythingIn rest
end

mutual
/-- The number of levels, one inside the other, on the longest way in. -/
def height : Piece → Nat
  | .name _ => 0
  | .symbol _ => 0
  | .level inside => tallest inside + 1
  | .sequence elements => tallest elements

def tallest : List Piece → Nat
  | [] => 0
  | p :: rest => max p.height (tallest rest)
end

/-- What a level holds. A part that is no level holds itself. -/
def contents : Piece → List Piece
  | .level inside => inside
  | p => [p]

theorem mem_everythingIn {q : Piece} {ps : List Piece} :
    q ∈ everythingIn ps ↔ ∃ p ∈ ps, q ∈ p.everything := by
  induction ps with
  | nil => simp [everythingIn]
  | cons p ps ih => simp [everythingIn, ih]

theorem tallest_le {k : Nat} {ps : List Piece} : tallest ps ≤ k ↔ ∀ p ∈ ps, p.height ≤ k := by
  induction ps with
  | nil => simp [tallest]
  | cons p ps ih => simp only [tallest, Nat.max_le, ih, List.forall_mem_cons]

end Piece

/-! ### What each kind of value is made of -/

mutual
def Expression.anatomy : Expression → Piece
  | .integer _ => .level []
  | .real _ => .level []
  | .character _ => .level []
  | .string _ => .level []
  | .name symbol => .level [.symbol symbol]
  | .unary _ operand => .level [operand.anatomy]
  | .binary _ left right => .level [left.anatomy, right.anatomy]
  | .parenthesis inner => .level [inner.anatomy]
  | .aggregate elements => .level [.sequence (elementAnatomies elements)]
  | .call called arguments => .level [.symbol called, .sequence (argumentAnatomies arguments)]

def AggregateElement.anatomy : AggregateElement → Piece
  | .positional value => .level [value.anatomy]
  | .chosen choice value => .level [choice.anatomy, value.anatomy]
  | .others value => .level [value.anatomy]

def Argument.anatomy : Argument → Piece
  | .positional actual => .level [actual.anatomy]
  | .named formal actual => .level [.symbol formal, actual.anatomy]

def elementAnatomies : List AggregateElement → List Piece
  | [] => []
  | e :: rest => e.anatomy :: elementAnatomies rest

def argumentAnatomies : List Argument → List Piece
  | [] => []
  | a :: rest => a.anatomy :: argumentAnatomies rest
end

def objectAnatomy (name : String) (subtype : Symbol) (value : Option Expression) : Piece :=
  .level ([.name name, .symbol subtype] ++ (value.map Expression.anatomy).toList)

def GenericItem.anatomy (i : GenericItem) : Piece := objectAnatomy i.name i.subtype i.defaultValue

def ParameterItem.anatomy (i : ParameterItem) : Piece :=
  objectAnatomy i.name i.subtype i.defaultValue

def PortItem.anatomy (i : PortItem) : Piece := objectAnatomy i.name i.subtype i.defaultValue

def Range.anatomy (r : Range) : Piece := .level [r.left.anatomy, r.right.anatomy]

def RecordElement.anatomy (e : RecordElement) : Piece := .level [.name e.name, .symbol e.subtype]

def TypeDefinition.anatomy : TypeDefinition → Piece
  | .enumeration literals => .level [.sequence (literals.map .name)]
  | .integer range => .level [range.anatomy]
  | .floating range => .level [range.anatomy]
  | .array indices element => .level [.sequence (indices.map .symbol), .symbol element]
  | .record elements => .level [.sequence (elements.map RecordElement.anatomy)]
  | .access designated => .level [.symbol designated]

def UseClause.anatomy (c : UseClause) : Piece := .level [.sequence (c.names.map .symbol)]

mutual
def Declaration.anatomy : Declaration → Piece
  | .function f =>
    .level [.name f.name, .sequence (f.generics.map GenericItem.anatomy),
      .sequence (f.parameters.map ParameterItem.anatomy), .symbol f.returnType]
  | .procedure p =>
    .level [.name p.name, .sequence (p.generics.map GenericItem.anatomy),
      .sequence (p.parameters.map ParameterItem.anatomy)]
  | .subprogramBody _ name declarations =>
    .level [.name name, .sequence (declarationAnatomies declarations)]
  | .constantDecl d => objectAnatomy d.name d.subtype d.defaultValue
  | .signalDecl d => objectAnatomy d.name d.subtype d.defaultValue
  | .variableDecl d => objectAnatomy d.name d.subtype d.defaultValue
  | .typeDecl d => .level [.name d.name, d.definition.anatomy]
  | .subtypeDecl d => .level [.name d.name, .symbol d.subtype]
  | .aliasDecl d => .level (.name d.name :: (d.subtype.map .symbol).toList ++ [.symbol d.target])
  | .componentDecl d =>
    .level [.name d.name, .sequence (d.generics.map GenericItem.anatomy),
      .sequence (d.ports.map PortItem.anatomy)]
  | .attributeDecl d => .level [.name d.name, .symbol d.typeMark]
  | .useClause c => c.anatomy

def declarationAnatomies : List Declaration → List Piece
  | [] => []
  | d :: rest => d.anatomy :: declarationAnatomies rest
end

def ContextItem.anatomy : ContextItem → Piece
  | .library c => .level [.name c.name]
  | .useClause c => c.anatomy
  | .reference c => .level [.sequence (c.names.map .symbol)]

def LibraryUnit.anatomy : LibraryUnit → Piece
  | .entity u =>
    .level [.name u.name, .sequence (u.generics.map GenericItem.anatomy),
      .sequence (u.ports.map PortItem.anatomy), .sequence (u.declarations.map Declaration.anatomy)]
  | .architecture u =>
    .level [.name u.name, .symbol u.entity, .sequence (u.declarations.map Declaration.anatomy)]
  | .package u =>
    .level [.name u.name, .sequence (u.generics.map GenericItem.anatomy),
      .sequence (u.declarations.map Declaration.anatomy)]
  | .packageBody u => .level [.name u.name, .sequence (u.declarations.map Declaration.anatomy)]
  | .context u => .level [.name u.name, .sequence (u.items.map ContextItem.anatomy)]
  | .configuration u => .level [.name u.name, .symbol u.entity]

def DesignUnit.anatomy (u : DesignUnit) : Piece :=
  .level [.sequence (u.context.map ContextItem.anatomy), u.unit.anatomy]

def DesignFile.anatomy (f : DesignFile) : Piece :=
  .level [.sequence (f.units.map DesignUnit.anatomy)]

def DesignNode.anatomy : DesignNode → Piece
  | .designFile f => f.anatomy
  | .designUnit u => u.anatomy
  | .libraryUnit u => u.anatomy
  | .contextItem i => i.anatomy
  | .declaration d => d.anatomy
  | .expression e => e.anatomy

def Form.anatomy : (f : Form) → f.Value → Piece
  | .designFile, f => f.anatomy
  | .designUnit, u => u.anatomy
  | .entity, u => LibraryUnit.anatomy (.entity u)
  | .architecture, u => LibraryUnit.anatomy (.architecture u)
  | .package, u => LibraryUnit.anatomy (.package u)
  | .packageBody, u => LibraryUnit.anatomy (.packageBody u)
  | .contextDeclaration, u => LibraryUnit.anatomy (.context u)
  | .configuration, u => LibraryUnit.anatomy (.configuration u)
  | .libraryClause, c => ContextItem.anatomy (.library c)
  | .useClause, c => c.anatomy
  | .contextReference, c => ContextItem.anatomy (.reference c)
  | .function, f => Declaration.anatomy (.function f)
  | .procedure, p => Declaration.anatomy (.procedure p)
  | .subprogramBody, b => Declaration.anatomy (.subprogramBody b.kind b.name b.declarations)
  | .constantDecl, d => Declaration.anatomy (.constantDecl d)
  | .signalDecl, d => Declaration.anatomy (.signalDecl d)
  | .variableDecl, d => Declaration.anatomy (.variableDecl d)
  | .typeDecl, d => Declaration.anatomy (.typeDecl d)
  | .subtypeDecl, d => Declaration.anatomy (.subtypeDecl d)
  | .aliasDecl, d => Declaration.anatomy (.aliasDecl d)
  | .componentDecl, d => Declaration.anatomy (.componentDecl d)
  | .attributeDecl, d => Declaration.anatomy (.attributeDecl d)
  | .generic, i => i.anatomy
  | .parameter, i => i.anatomy
  | .port, i => i.anatomy
  | .typeDefinition, d => d.anatomy
  | .range, r => r.anatomy
  | .recordElement, e => e.anatomy
  | .name, s => .symbol s
  | .subtype, s => .symbol s
  | .aggregateElement, e => e.anatomy
  | .argument, a => a.anatomy
  | .libraryUnit, u => u.anatomy
  | .contextItem, i => i.anatomy
  | .declaration, d => d.anatomy
  | .expression, e => e.anatomy
  | .anyNode, d => d.anatomy

/-! ### Parts and readings -/

/-- The parts that an answer contributes to a value. -/
def Reading.parts : Reading → List Piece
  | ⟨.touch _, _⟩ => []
  | ⟨.child _ form, v⟩ => [form.anatomy v]
  | ⟨.optional _ form, v⟩ => (v.map form.anatomy).toList
  | ⟨.chain _ form, vs⟩ => [.sequence (vs.map form.anatomy)]
  | ⟨.label _ _, s⟩ => [.name s]
  | ⟨.labels _ _, ss⟩ => [.sequence (ss.map .name)]

def ContextItem.own : ContextItem → List Piece
  | .library c => [.name c.name]
  | _ => []

def Declaration.own (d : Declaration) : List Piece := (d.name?.map .name).toList

def Expression.own : Expression → List Piece
  | .name symbol => [.symbol symbol]
  | _ => []

/-- The parts of a value that no reading accounts for: the name of what is declared, and a symbol
that is the whole of the value. -/
def Form.own : (f : Form) → f.Value → List Piece
  | .designFile, _ => []
  | .designUnit, _ => []
  | .entity, u => [.name u.name]
  | .architecture, u => [.name u.name]
  | .package, u => [.name u.name]
  | .packageBody, u => [.name u.name]
  | .contextDeclaration, u => [.name u.name]
  | .configuration, u => [.name u.name]
  | .libraryClause, c => [.name c.name]
  | .useClause, _ => []
  | .contextReference, _ => []
  | .function, f => [.name f.name]
  | .procedure, p => [.name p.name]
  | .subprogramBody, b => [.name b.name]
  | .constantDecl, d => [.name d.name]
  | .signalDecl, d => [.name d.name]
  | .variableDecl, d => [.name d.name]
  | .typeDecl, d => [.name d.name]
  | .subtypeDecl, d => [.name d.name]
  | .aliasDecl, d => [.name d.name]
  | .componentDecl, d => [.name d.name]
  | .attributeDecl, d => [.name d.name]
  | .generic, i => [.name i.name]
  | .parameter, i => [.name i.name]
  | .port, i => [.name i.name]
  | .typeDefinition, _ => []
  | .range, _ => []
  | .recordElement, e => [.name e.name]
  | .name, s => [.symbol s]
  | .subtype, s => [.symbol s]
  | .aggregateElement, _ => []
  | .argument, _ => []
  | .libraryUnit, u => [.name u.name]
  | .contextItem, i => i.own
  | .declaration, d => d.own
  | .expression, e => e.own
  | .anyNode, .libraryUnit u => [.name u.name]
  | .anyNode, .contextItem i => i.own
  | .anyNode, .declaration d => d.own
  | .anyNode, .expression e => e.own
  | .anyNode, _ => []

theorem elementAnatomies_eq (es : List AggregateElement) :
    elementAnatomies es = es.map AggregateElement.anatomy := by
  induction es with
  | nil => rfl
  | cons e es ih => simp [elementAnatomies, ih]

theorem argumentAnatomies_eq (as : List Argument) :
    argumentAnatomies as = as.map Argument.anatomy := by
  induction as with
  | nil => rfl
  | cons a as ih => simp [argumentAnatomies, ih]

theorem declarationAnatomies_eq (ds : List Declaration) :
    declarationAnatomies ds = ds.map Declaration.anatomy := by
  induction ds with
  | nil => rfl
  | cons d ds ih => simp [declarationAnatomies, ih]

theorem Expression.contents_eq (e : Expression) :
    e.anatomy.contents = e.own ++ e.readings.flatMap Reading.parts := by
  cases e with
  | aggregate elements =>
    simp only [anatomy, elementAnatomies_eq]
    rfl
  | call called arguments =>
    simp only [anatomy, argumentAnatomies_eq]
    rfl
  | _ => simp only [anatomy]; rfl

theorem AggregateElement.contents_eq (e : AggregateElement) :
    e.anatomy.contents = e.readings.flatMap Reading.parts := by
  cases e <;> simp only [anatomy] <;> rfl

theorem Argument.contents_eq (a : Argument) :
    a.anatomy.contents = a.readings.flatMap Reading.parts := by
  cases a <;> simp only [anatomy] <;> rfl

theorem TypeDefinition.contents_eq (d : TypeDefinition) :
    d.anatomy.contents = d.readings.flatMap Reading.parts := by
  cases d <;> rfl

theorem objectAnatomy_contents (name : String) (subtype : Symbol) (value : Option Expression) :
    (objectAnatomy name subtype value).contents =
      .name name :: (objectReadings subtype value).flatMap Reading.parts := by
  cases value <;> rfl

theorem Declaration.contents_eq (d : Declaration) :
    d.anatomy.contents = d.own ++ d.readings.flatMap Reading.parts := by
  cases d with
  | subprogramBody kind name declarations =>
    simp only [anatomy, declarationAnatomies_eq]
    rfl
  | constantDecl d =>
    rw [anatomy, objectAnatomy_contents]
    rfl
  | signalDecl d =>
    rw [anatomy, objectAnatomy_contents]
    rfl
  | variableDecl d =>
    rw [anatomy, objectAnatomy_contents]
    rfl
  | aliasDecl d =>
    obtain ⟨name, subtype, target⟩ := d
    cases subtype <;> simp only [anatomy] <;> rfl
  | _ => simp only [anatomy]; rfl

theorem ContextItem.contents_eq (i : ContextItem) :
    i.anatomy.contents = i.own ++ i.readings.flatMap Reading.parts := by
  cases i <;> rfl

theorem LibraryUnit.contents_eq (u : LibraryUnit) :
    u.anatomy.contents = .name u.name :: u.readings.flatMap Reading.parts := by
  cases u <;> rfl

theorem Form.contents_eq (f : Form) (v : f.Value) :
    (f.anatomy v).contents = f.own v ++ (f.readings v).flatMap Reading.parts := by
  cases f with
  | entity => exact LibraryUnit.contents_eq (.entity v)
  | architecture => exact LibraryUnit.contents_eq (.architecture v)
  | package => exact LibraryUnit.contents_eq (.package v)
  | packageBody => exact LibraryUnit.contents_eq (.packageBody v)
  | contextDeclaration => exact LibraryUnit.contents_eq (.context v)
  | configuration => exact LibraryUnit.contents_eq (.configuration v)
  | libraryClause => exact ContextItem.contents_eq (.library v)
  | contextReference => exact ContextItem.contents_eq (.reference v)
  | function => exact Declaration.contents_eq (.function v)
  | procedure => exact Declaration.contents_eq (.procedure v)
  | subprogramBody => exact Declaration.contents_eq (.subprogramBody v.kind v.name v.declarations)
  | constantDecl => exact Declaration.contents_eq (.constantDecl v)
  | signalDecl => exact Declaration.contents_eq (.signalDecl v)
  | variableDecl => exact Declaration.contents_eq (.variableDecl v)
  | typeDecl => exact Declaration.contents_eq (.typeDecl v)
  | subtypeDecl => exact Declaration.contents_eq (.subtypeDecl v)
  | aliasDecl => exact Declaration.contents_eq (.aliasDecl v)
  | componentDecl => exact Declaration.contents_eq (.componentDecl v)
  | attributeDecl => exact Declaration.contents_eq (.attributeDecl v)
  | generic => exact objectAnatomy_contents v.name v.subtype v.defaultValue
  | parameter => exact objectAnatomy_contents v.name v.subtype v.defaultValue
  | port => exact objectAnatomy_contents v.name v.subtype v.defaultValue
  | typeDefinition => exact TypeDefinition.contents_eq v
  | aggregateElement => exact AggregateElement.contents_eq v
  | argument => exact Argument.contents_eq v
  | libraryUnit => exact LibraryUnit.contents_eq v
  | contextItem => exact ContextItem.contents_eq v
  | declaration => exact Declaration.contents_eq v
  | expression => exact Expression.contents_eq v
  | anyNode =>
    cases v with
    | designFile f => rfl
    | designUnit u => rfl
    | libraryUnit u => exact LibraryUnit.contents_eq u
    | contextItem i => exact ContextItem.contents_eq i
    | declaration d => exact Declaration.contents_eq d
    | expression e => exact Expression.contents_eq e
  | _ => rfl

end VhdlDesign
