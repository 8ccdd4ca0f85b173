import VhdlDesign.Build.Construction

/-! Forms: the syntactic places that can be built, with the type of value that each one gives. -/
namespace VhdlDesign

/-- What a node is asked to be. `libraryUnit`, `contextItem`, `declaration` and `expression` are
places that take nodes of several kinds, and `anyNode` takes every kind that can stand alone. -/
inductive Form
  | designFile | designUnit
  | entity | architecture | package | packageBody | contextDeclaration | configuration
  | libraryClause | useClause | contextReference
  | function | procedure | subprogramBody
  | constantDecl | signalDecl | variableDecl | typeDecl | subtypeDecl | aliasDecl | componentDecl
  | attributeDecl
  | generic | parameter | port
  | typeDefinition | range | recordElement
  | name | subtype
  | aggregateElement | argument
  | libraryUnit | contextItem | declaration | expression | anyNode
  deriving DecidableEq

namespace Form

abbrev Value : Form → Type
  | .designFile => DesignFile
  | .designUnit => DesignUnit
  | .entity => Entity
  | .architecture => Architecture
  | .package => Package
  | .packageBody => PackageBody
  | .contextDeclaration => ContextDeclaration
  | .configuration => Configuration
  | .libraryClause => LibraryClause
  | .useClause => UseClause
  | .contextReference => ContextReference
  | .function => Function
  | .procedure => Procedure
  | .subprogramBody => SubprogramBody
  | .constantDecl => ObjectDeclaration
  | .signalDecl => ObjectDeclaration
  | .variableDecl => VariableDeclaration
  | .typeDecl => TypeDeclaration
  | .subtypeDecl => SubtypeDeclaration
  | .aliasDecl => AliasDeclaration
  | .componentDecl => ComponentDeclaration
  | .attributeDecl => AttributeDeclaration
  | .generic => GenericItem
  | .parameter => ParameterItem
  | .port => PortItem
  | .typeDefinition => TypeDefinition
  | .range => Range
  | .recordElement => RecordElement
  | .name => Symbol
  | .subtype => Symbol
  | .aggregateElement => AggregateElement
  | .argument => Argument
  | .libraryUnit => LibraryUnit
  | .contextItem => ContextItem
  | .declaration => Declaration
  | .expression => Expression
  | .anyNode => DesignNode

def takesUnit (k : Kind) : Bool :=
  match k.construction with
  | some (.libraryUnit _) => true
  | _ => false

def takesContextItem (k : Kind) : Bool :=
  match k.construction with
  | some (.contextItem _) => true
  | _ => false

def takesDeclaration (k : Kind) : Bool :=
  match k.construction with
  | some (.declaration _) => true
  | some (.contextItem .useClause) => true
  | _ => false

def takesExpression (k : Kind) : Bool :=
  match k.construction with
  | some (.expression _) => true
  | _ => false

/-- A place for nodes of several kinds turns a node of another kind away before it is entered.
Every other form looks at the kind after entering. -/
def screen : Form → Option (Kind → Bool)
  | .libraryUnit => some takesUnit
  | .contextItem => some takesContextItem
  | .declaration => some takesDeclaration
  | .expression => some takesExpression
  | .anyNode => some fun k => k.construction.isSome
  | _ => none

end Form

end VhdlDesign
