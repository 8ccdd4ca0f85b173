import VhdlDesign.Build.Recipe

/-! The recipe of every form: which fields of a node become which parts of a design. -/
namespace VhdlDesign

namespace Grammar

open Recipe

/-! ### Names -/

/-- A name reference. A selected name follows its qualifier, which is read first, after a point. -/
def name : Recipe Symbol := do
  let a ← attributes
  match a.kind with
  | .simpleName => return ⟨← identifier⟩
  | .selectedName =>
    let qualifier ← part .qualifier .name
    let suffix ← identifier
    return ⟨qualifier.name ++ "." ++ suffix⟩
  | .selectedByAllName =>
    let qualifier ← part .qualifier .name
    return ⟨qualifier.name ++ ".all"⟩
  | _ => violate (.unexpectedKind "a name reference")

/-- A subtype indication: a name, or a constrained subtype, of which only the type mark is kept. -/
def subtype : Recipe Symbol := do
  let a ← attributes
  match a.kind with
  | .simpleName | .selectedName => name
  | .subtypeDefinition | .arraySubtypeDefinition => part .subtypeTypeMark .name
  | _ => violate (.unexpectedKind "a subtype indication")

/-! ### Expressions -/

def literalOf (a : Attributes) : Except Cause Expression :=
  match a.literal with
  | none => .error (.contractViolation (.missingAttribute "literal"))
  | some literal =>
    match a.kind, literal with
    | .integerLiteral, .integer value => .ok (.integer value)
    | .floatingPointLiteral, .real value => .ok (.real value)
    | .characterLiteral, .character value => .ok (.character value)
    | .stringLiteral, .string value => .ok (.string value)
    | _, _ => .error (.contractViolation .literalMismatch)

def literal : Recipe Expression := .look fun a => ofExcept (literalOf a)

def expressionOf : ExpressionForm → Recipe Expression
  | .name => .name <$> name
  | .literal => literal
  | .unary op => return .unary op (← part .operand .expression)
  | .binary op => do
    let left ← part .left .expression
    let right ← part .right .expression
    return .binary op left right
  | .parenthesis => return .parenthesis (← part .expression .expression)
  | .aggregate => return .aggregate (← parts .associationChain .aggregateElement)
  | .call => do
    let called ← part .qualifier .name
    let arguments ← parts .associationChain .argument
    return .call called arguments

def expression : Recipe Expression := do
  let a ← attributes
  match a.kind.construction with
  | some (.expression form) => expressionOf form
  | _ => unsupported

def aggregateElement : Recipe AggregateElement := do
  let a ← attributes
  match a.kind with
  | .choiceByNone => return .positional (← part .associatedExpr .expression)
  | .choiceByOthers => return .others (← part .associatedExpr .expression)
  | .choiceByExpression =>
    let choice ← part .choiceExpression .expression
    let value ← part .associatedExpr .expression
    return .chosen choice value
  | _ => unsupported

def argument : Recipe Argument := do
  let a ← attributes
  match a.kind with
  | .associationElementPositional => return .positional (← part .actual .expression)
  | .associationElementByExpression =>
    let formal ← part .formal .name
    let actual ← part .actual .expression
    return .named formal actual
  | _ => unsupported

def direction : Recipe Direction :=
  .look fun a =>
    match a.direction with
    | some d => .done d
    | none => violate (.missingAttribute "direction")

def range : Recipe Range := do
  expect .rangeExpression
  let direction ← direction
  let left ← part .left .expression
  let right ← part .right .expression
  return { left, direction, right }

/-! ### Type definitions -/

def recordElement : Recipe RecordElement := do
  expect .elementDeclaration
  let name ← identifier
  let subtype ← part .subtypeIndication .subtype
  return { name, subtype }

def enumerationLiteral (a : Attributes) : Except Cause String :=
  if a.kind = .enumerationLiteral then a.identifier else .error (.unsupportedKind a.kind)

def typeDefinition : Recipe TypeDefinition := do
  let a ← attributes
  match a.kind with
  | .enumerationTypeDefinition =>
    .labels .enumerationLiterals enumerationLiteral fun literals => .done (.enumeration literals)
  | .integerTypeDefinition => return .integer (← part .rangeConstraint .range)
  | .floatingTypeDefinition => return .floating (← part .rangeConstraint .range)
  | .arrayTypeDefinition =>
    let indices ← parts .indexSubtypes .subtype
    let element ← part .elementSubtype .subtype
    return .array indices element
  | .recordTypeDefinition => return .record (← parts .elementDeclarations .recordElement)
  | .accessTypeDefinition => return .access (← part .designatedSubtype .subtype)
  | _ => unsupported

/-! ### Interfaces -/

def generic : Recipe GenericItem := do
  expect .interfaceConstantDeclaration
  let name ← identifier
  let subtype ← part .subtypeIndication .subtype
  let defaultValue ← part? .defaultValue .expression
  return { name, subtype, defaultValue }

def mode : Recipe Mode := .look fun a => .done (a.mode.getD .input)

def parameterClass : Recipe ParameterClass := do
  let a ← attributes
  match a.kind with
  | .interfaceConstantDeclaration => return .const
  | .interfaceVariableDeclaration => return .var
  | .interfaceSignalDeclaration => return .signal
  | .interfaceFileDeclaration => return .file
  | _ => unsupported

def parameter : Recipe ParameterItem := do
  let objectClass ← parameterClass
  let name ← identifier
  let mode ← mode
  let subtype ← part .subtypeIndication .subtype
  let defaultValue ← part? .defaultValue .expression
  return { objectClass, name, mode, subtype, defaultValue }

def port : Recipe PortItem := do
  expect .interfaceSignalDeclaration
  let name ← identifier
  let mode ← mode
  let subtype ← part .subtypeIndication .subtype
  let defaultValue ← part? .defaultValue .expression
  return { name, mode, subtype, defaultValue }

/-! ### Declarations -/

def function : Recipe Function := do
  expect .functionDeclaration
  let name ← identifier
  let a ← attributes
  let generics ← parts .genericChain .generic
  let parameters ← parts .interfaceChain .parameter
  let returnType ← part .returnTypeMark .name
  return { name, isPure := !a.has .impure, generics, parameters, returnType }

def procedure : Recipe Procedure := do
  expect .procedureDeclaration
  let name ← identifier
  let generics ← parts .genericChain .generic
  let parameters ← parts .interfaceChain .parameter
  return { name, generics, parameters }

/-- A body takes its name from its specification, which has to declare a subprogram of the same
kind. -/
def specification (kind : SubprogramKind) (a : Attributes) : Except Cause String :=
  match kind with
  | .function =>
    if a.kind = .functionDeclaration then a.identifier
    else .error (.contractViolation (.unexpectedKind "a function declaration"))
  | .procedure =>
    if a.kind = .procedureDeclaration then a.identifier
    else .error (.contractViolation (.unexpectedKind "a procedure declaration"))

def bodyOf (kind : SubprogramKind) : Recipe SubprogramBody := do
  let name ← Recipe.label .subprogramSpecification (specification kind) .done
  let declarations ← parts .declarationChain .declaration
  skip .statementChain
  return { kind, name, declarations }

def subprogramBody : Recipe SubprogramBody := do
  let a ← attributes
  match a.kind with
  | .functionBody => bodyOf .function
  | .procedureBody => bodyOf .procedure
  | _ => unsupported

def object : Recipe ObjectDeclaration := do
  let name ← identifier
  let subtype ← part .subtypeIndication .subtype
  let defaultValue ← part? .defaultValue .expression
  return { name, subtype, defaultValue }

def constantDecl : Recipe ObjectDeclaration := do
  expect .constantDeclaration
  object

def signalDecl : Recipe ObjectDeclaration := do
  expect .signalDeclaration
  object

def variableDecl : Recipe VariableDeclaration := do
  expect .variableDeclaration
  let declared ← object
  let a ← attributes
  return { declared with shared := a.has .shared }

def typeDecl : Recipe TypeDeclaration := do
  expect .typeDeclaration
  let name ← identifier
  let definition ← part .typeDefinition .typeDefinition
  return { name, definition }

def subtypeDecl : Recipe SubtypeDeclaration := do
  expect .subtypeDeclaration
  let name ← identifier
  let subtype ← part .subtypeIndication .subtype
  return { name, subtype }

def aliasDecl : Recipe AliasDeclaration := do
  expect .aliasDeclaration
  let name ← identifier
  let subtype ← part? .subtypeIndication .subtype
  let target ← part .name .name
  return { name, subtype, target }

def componentDecl : Recipe ComponentDeclaration := do
  expect .componentDeclaration
  let name ← identifier
  let generics ← parts .genericChain .generic
  let ports ← parts .portChain .port
  return { name, generics, ports }

def attributeDecl : Recipe AttributeDeclaration := do
  expect .attributeDeclaration
  let name ← identifier
  let typeMark ← part .typeMark .name
  return { name, typeMark }

def useClause : Recipe UseClause := do
  expect .useClause
  return { names := ← parts .nameChain .name }

def declarationOf : DeclarationForm → Recipe Declaration
  | .function => .function <$> function
  | .procedure => .procedure <$> procedure
  | .subprogramBody kind => do
    let b ← bodyOf kind
    return .subprogramBody b.kind b.name b.declarations
  | .constantDecl => .constantDecl <$> constantDecl
  | .signalDecl => .signalDecl <$> signalDecl
  | .variableDecl => .variableDecl <$> variableDecl
  | .typeDecl => .typeDecl <$> typeDecl
  | .subtypeDecl => .subtypeDecl <$> subtypeDecl
  | .aliasDecl => .aliasDecl <$> aliasDecl
  | .componentDecl => .componentDecl <$> componentDecl
  | .attributeDecl => .attributeDecl <$> attributeDecl

def declaration : Recipe Declaration := do
  let a ← attributes
  match a.kind.construction with
  | some (.declaration form) => declarationOf form
  | some (.contextItem .useClause) => .useClause <$> useClause
  | _ => unsupported

/-! ### Units -/

def libraryClause : Recipe LibraryClause := do
  expect .libraryClause
  return { name := ← identifier }

def contextReference : Recipe ContextReference := do
  expect .contextReference
  return { names := ← parts .nameChain .name }

def contextItemOf : ClauseForm → Recipe ContextItem
  | .library => .library <$> libraryClause
  | .useClause => .useClause <$> useClause
  | .reference => .reference <$> contextReference

def contextItem : Recipe ContextItem := do
  let a ← attributes
  match a.kind.construction with
  | some (.contextItem form) => contextItemOf form
  | _ => unsupported

/-- Statements are not built. -/
def entity : Recipe Entity := do
  expect .entityDeclaration
  let name ← identifier
  let generics ← parts .genericChain .generic
  let ports ← parts .portChain .port
  let declarations ← parts .declarationChain .declaration
  skip .statementChain
  return { name, generics, ports, declarations }

def architecture : Recipe Architecture := do
  expect .architectureBody
  let name ← identifier
  let entity ← part .entityName .name
  let declarations ← parts .declarationChain .declaration
  skip .statementChain
  return { name, entity, declarations }

def package : Recipe Package := do
  expect .packageDeclaration
  let name ← identifier
  let generics ← parts .genericChain .generic
  let declarations ← parts .declarationChain .declaration
  return { name, generics, declarations }

def packageBody : Recipe PackageBody := do
  expect .packageBody
  let name ← identifier
  let declarations ← parts .declarationChain .declaration
  return { name, declarations }

def contextDeclaration : Recipe ContextDeclaration := do
  expect .contextDeclaration
  let name ← identifier
  let items ← parts .contextItems .contextItem
  return { name, items }

def configuration : Recipe Configuration := do
  expect .configurationDeclaration
  let name ← identifier
  let entity ← part .entityName .name
  return { name, entity }

def libraryUnitOf : UnitForm → Recipe LibraryUnit
  | .entity => .entity <$> entity
  | .architecture => .architecture <$> architecture
  | .package => .package <$> package
  | .packageBody => .packageBody <$> packageBody
  | .context => .context <$> contextDeclaration
  | .configuration => .configuration <$> configuration

def libraryUnit : Recipe LibraryUnit := do
  let a ← attributes
  match a.kind.construction with
  | some (.libraryUnit form) => libraryUnitOf form
  | _ => unsupported

def designUnit : Recipe DesignUnit := do
  expect .designUnit
  let context ← parts .contextItems .contextItem
  let unit ← part .libraryUnit .libraryUnit
  return { context, unit }

def designFile : Recipe DesignFile := do
  expect .designFile
  return { units := ← parts .designUnits .designUnit }

def anyNode : Recipe DesignNode := do
  let a ← attributes
  match a.kind.construction with
  | some .designFile => .designFile <$> designFile
  | some .designUnit => .designUnit <$> designUnit
  | some (.libraryUnit form) => .libraryUnit <$> libraryUnitOf form
  | some (.contextItem form) => .contextItem <$> contextItemOf form
  | some (.declaration form) => .declaration <$> declarationOf form
  | some (.expression form) => .expression <$> expressionOf form
  | none => unsupported

def recipe : (f : Form) → Recipe f.Value
  | .designFile => designFile
  | .designUnit => designUnit
  | .entity => entity
  | .architecture => architecture
  | .package => package
  | .packageBody => packageBody
  | .contextDeclaration => contextDeclaration
  | .configuration => configuration
  | .libraryClause => libraryClause
  | .useClause => useClause
  | .contextReference => contextReference
  | .function => function
  | .procedure => procedure
  | .subprogramBody => subprogramBody
  | .constantDecl => constantDecl
  | .signalDecl => signalDecl
  | .variableDecl => variableDecl
  | .typeDecl => typeDecl
  | .subtypeDecl => subtypeDecl
  | .aliasDecl => aliasDecl
  | .componentDecl => componentDecl
  | .attributeDecl => attributeDecl
  | .generic => generic
  | .parameter => parameter
  | .port => port
  | .typeDefinition => typeDefinition
  | .range => range
  | .recordElement => recordElement
  | .name => name
  | .subtype => subtype
  | .aggregateElement => aggregateElement
  | .argument => argument
  | .libraryUnit => libraryUnit
  | .contextItem => contextItem
  | .declaration => declaration
  | .expression => expression
  | .anyNode => anyNode

end Grammar

end VhdlDesign
