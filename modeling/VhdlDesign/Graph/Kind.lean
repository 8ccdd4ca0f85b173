import VhdlDesign.Graph.Field

/-! Kinds of nodes, the groups they fall into and the fields that each kind defines. -/
namespace VhdlDesign

inductive Kind
  | designFile | designUnit
  | entityDeclaration | architectureBody | packageDeclaration | packageBody | contextDeclaration
  | configurationDeclaration
  | libraryClause | useClause | contextReference
  | functionDeclaration | procedureDeclaration | functionBody | procedureBody
  | constantDeclaration | signalDeclaration | variableDeclaration | fileDeclaration
  | typeDeclaration | subtypeDeclaration | aliasDeclaration | componentDeclaration
  | attributeDeclaration | attributeSpecification | groupDeclaration
  | interfaceConstantDeclaration | interfaceSignalDeclaration | interfaceVariableDeclaration
  | interfaceFileDeclaration | interfaceTypeDeclaration | interfacePackageDeclaration
  | enumerationTypeDefinition | integerTypeDefinition | floatingTypeDefinition
  | physicalTypeDefinition | arrayTypeDefinition | recordTypeDefinition | accessTypeDefinition
  | fileTypeDefinition
  | enumerationLiteral | elementDeclaration | rangeExpression | subtypeDefinition
  | arraySubtypeDefinition
  | simpleName | selectedName | selectedByAllName | attributeName | indexedName
  | integerLiteral | floatingPointLiteral | characterLiteral | stringLiteral | physicalLiteral
  | nullLiteral
  | identityOperator | negationOperator | absoluteOperator | notOperator
  | andOperator | orOperator | nandOperator | norOperator | xorOperator | xnorOperator
  | equalityOperator | inequalityOperator | lessThanOperator | lessThanOrEqualOperator
  | greaterThanOperator | greaterThanOrEqualOperator | sllOperator | srlOperator | slaOperator
  | sraOperator | rolOperator | rorOperator | additionOperator | subtractionOperator
  | concatenationOperator | multiplicationOperator | divisionOperator | modulusOperator
  | remainderOperator | exponentiationOperator
  | parenthesis | aggregate | functionCall | qualifiedExpression | typeConversion
  | associationElementPositional | associationElementByExpression | choiceByNone
  | choiceByExpression | choiceByOthers | choiceByRange
  | processStatement | concurrentSimpleSignalAssignment | componentInstantiationStatement
  | blockStatement | ifGenerateStatement | forGenerateStatement
  deriving DecidableEq

inductive Category
  | structural | libraryUnit | contextItem | declaration | interface | typeDefinition
  | typeComponent | name | literal | operator | expression | association | statement
  deriving DecidableEq

def Category.label : Category → String
  | .structural => "Structure"
  | .libraryUnit => "LibraryUnit"
  | .contextItem => "ContextItem"
  | .declaration => "Declaration"
  | .interface => "Interface"
  | .typeDefinition => "TypeDefinition"
  | .typeComponent => "TypeComponent"
  | .name => "Name"
  | .literal => "Literal"
  | .operator => "Operator"
  | .expression => "Expression"
  | .association => "Association"
  | .statement => "Statement"

namespace Kind

def all : List Kind := [
  .designFile, .designUnit, .entityDeclaration, .architectureBody, .packageDeclaration,
  .packageBody, .contextDeclaration, .configurationDeclaration, .libraryClause, .useClause,
  .contextReference, .functionDeclaration, .procedureDeclaration, .functionBody, .procedureBody,
  .constantDeclaration, .signalDeclaration, .variableDeclaration, .fileDeclaration,
  .typeDeclaration, .subtypeDeclaration, .aliasDeclaration, .componentDeclaration,
  .attributeDeclaration, .attributeSpecification, .groupDeclaration,
  .interfaceConstantDeclaration, .interfaceSignalDeclaration, .interfaceVariableDeclaration,
  .interfaceFileDeclaration, .interfaceTypeDeclaration, .interfacePackageDeclaration,
  .enumerationTypeDefinition, .integerTypeDefinition, .floatingTypeDefinition,
  .physicalTypeDefinition, .arrayTypeDefinition, .recordTypeDefinition, .accessTypeDefinition,
  .fileTypeDefinition, .enumerationLiteral, .elementDeclaration, .rangeExpression,
  .subtypeDefinition, .arraySubtypeDefinition, .simpleName, .selectedName, .selectedByAllName,
  .attributeName, .indexedName, .integerLiteral, .floatingPointLiteral, .characterLiteral,
  .stringLiteral, .physicalLiteral, .nullLiteral, .identityOperator, .negationOperator,
  .absoluteOperator, .notOperator, .andOperator, .orOperator, .nandOperator, .norOperator,
  .xorOperator, .xnorOperator, .equalityOperator, .inequalityOperator, .lessThanOperator,
  .lessThanOrEqualOperator, .greaterThanOperator, .greaterThanOrEqualOperator, .sllOperator,
  .srlOperator, .slaOperator, .sraOperator, .rolOperator, .rorOperator, .additionOperator,
  .subtractionOperator, .concatenationOperator, .multiplicationOperator, .divisionOperator,
  .modulusOperator, .remainderOperator, .exponentiationOperator, .parenthesis, .aggregate,
  .functionCall, .qualifiedExpression, .typeConversion, .associationElementPositional,
  .associationElementByExpression, .choiceByNone, .choiceByExpression, .choiceByOthers,
  .choiceByRange, .processStatement, .concurrentSimpleSignalAssignment,
  .componentInstantiationStatement, .blockStatement, .ifGenerateStatement, .forGenerateStatement]

def label : Kind → String
  | .designFile => "DesignFile"
  | .designUnit => "DesignUnit"
  | .entityDeclaration => "EntityDeclaration"
  | .architectureBody => "ArchitectureBody"
  | .packageDeclaration => "PackageDeclaration"
  | .packageBody => "PackageBody"
  | .contextDeclaration => "ContextDeclaration"
  | .configurationDeclaration => "ConfigurationDeclaration"
  | .libraryClause => "LibraryClause"
  | .useClause => "UseClause"
  | .contextReference => "ContextReference"
  | .functionDeclaration => "FunctionDeclaration"
  | .procedureDeclaration => "ProcedureDeclaration"
  | .functionBody => "FunctionBody"
  | .procedureBody => "ProcedureBody"
  | .constantDeclaration => "ConstantDeclaration"
  | .signalDeclaration => "SignalDeclaration"
  | .variableDeclaration => "VariableDeclaration"
  | .fileDeclaration => "FileDeclaration"
  | .typeDeclaration => "TypeDeclaration"
  | .subtypeDeclaration => "SubtypeDeclaration"
  | .aliasDeclaration => "AliasDeclaration"
  | .componentDeclaration => "ComponentDeclaration"
  | .attributeDeclaration => "AttributeDeclaration"
  | .attributeSpecification => "AttributeSpecification"
  | .groupDeclaration => "GroupDeclaration"
  | .interfaceConstantDeclaration => "InterfaceConstantDeclaration"
  | .interfaceSignalDeclaration => "InterfaceSignalDeclaration"
  | .interfaceVariableDeclaration => "InterfaceVariableDeclaration"
  | .interfaceFileDeclaration => "InterfaceFileDeclaration"
  | .interfaceTypeDeclaration => "InterfaceTypeDeclaration"
  | .interfacePackageDeclaration => "InterfacePackageDeclaration"
  | .enumerationTypeDefinition => "EnumerationTypeDefinition"
  | .integerTypeDefinition => "IntegerTypeDefinition"
  | .floatingTypeDefinition => "FloatingTypeDefinition"
  | .physicalTypeDefinition => "PhysicalTypeDefinition"
  | .arrayTypeDefinition => "ArrayTypeDefinition"
  | .recordTypeDefinition => "RecordTypeDefinition"
  | .accessTypeDefinition => "AccessTypeDefinition"
  | .fileTypeDefinition => "FileTypeDefinition"
  | .enumerationLiteral => "EnumerationLiteral"
  | .elementDeclaration => "ElementDeclaration"
  | .rangeExpression => "RangeExpression"
  | .subtypeDefinition => "SubtypeDefinition"
  | .arraySubtypeDefinition => "ArraySubtypeDefinition"
  | .simpleName => "SimpleName"
  | .selectedName => "SelectedName"
  | .selectedByAllName => "SelectedByAllName"
  | .attributeName => "AttributeName"
  | .indexedName => "IndexedName"
  | .integerLiteral => "IntegerLiteral"
  | .floatingPointLiteral => "FloatingPointLiteral"
  | .characterLiteral => "CharacterLiteral"
  | .stringLiteral => "StringLiteral"
  | .physicalLiteral => "PhysicalLiteral"
  | .nullLiteral => "NullLiteral"
  | .identityOperator => "IdentityOperator"
  | .negationOperator => "NegationOperator"
  | .absoluteOperator => "AbsoluteOperator"
  | .notOperator => "NotOperator"
  | .andOperator => "AndOperator"
  | .orOperator => "OrOperator"
  | .nandOperator => "NandOperator"
  | .norOperator => "NorOperator"
  | .xorOperator => "XorOperator"
  | .xnorOperator => "XnorOperator"
  | .equalityOperator => "EqualityOperator"
  | .inequalityOperator => "InequalityOperator"
  | .lessThanOperator => "LessThanOperator"
  | .lessThanOrEqualOperator => "LessThanOrEqualOperator"
  | .greaterThanOperator => "GreaterThanOperator"
  | .greaterThanOrEqualOperator => "GreaterThanOrEqualOperator"
  | .sllOperator => "SllOperator"
  | .srlOperator => "SrlOperator"
  | .slaOperator => "SlaOperator"
  | .sraOperator => "SraOperator"
  | .rolOperator => "RolOperator"
  | .rorOperator => "RorOperator"
  | .additionOperator => "AdditionOperator"
  | .subtractionOperator => "SubtractionOperator"
  | .concatenationOperator => "ConcatenationOperator"
  | .multiplicationOperator => "MultiplicationOperator"
  | .divisionOperator => "DivisionOperator"
  | .modulusOperator => "ModulusOperator"
  | .remainderOperator => "RemainderOperator"
  | .exponentiationOperator => "ExponentiationOperator"
  | .parenthesis => "Parenthesis"
  | .aggregate => "Aggregate"
  | .functionCall => "FunctionCall"
  | .qualifiedExpression => "QualifiedExpression"
  | .typeConversion => "TypeConversion"
  | .associationElementPositional => "AssociationElementPositional"
  | .associationElementByExpression => "AssociationElementByExpression"
  | .choiceByNone => "ChoiceByNone"
  | .choiceByExpression => "ChoiceByExpression"
  | .choiceByOthers => "ChoiceByOthers"
  | .choiceByRange => "ChoiceByRange"
  | .processStatement => "ProcessStatement"
  | .concurrentSimpleSignalAssignment => "ConcurrentSimpleSignalAssignment"
  | .componentInstantiationStatement => "ComponentInstantiationStatement"
  | .blockStatement => "BlockStatement"
  | .ifGenerateStatement => "IfGenerateStatement"
  | .forGenerateStatement => "ForGenerateStatement"

def key (k : Kind) : String := snake k.label

def ofKey? (s : String) : Option Kind := all.find? (fun k => k.key == s)

def category : Kind → Category
  | .designFile | .designUnit => .structural
  | .entityDeclaration | .architectureBody | .packageDeclaration | .packageBody
  | .contextDeclaration | .configurationDeclaration => .libraryUnit
  | .libraryClause | .useClause | .contextReference => .contextItem
  | .functionDeclaration | .procedureDeclaration | .functionBody | .procedureBody
  | .constantDeclaration | .signalDeclaration | .variableDeclaration | .fileDeclaration
  | .typeDeclaration | .subtypeDeclaration | .aliasDeclaration | .componentDeclaration
  | .attributeDeclaration | .attributeSpecification | .groupDeclaration => .declaration
  | .interfaceConstantDeclaration | .interfaceSignalDeclaration | .interfaceVariableDeclaration
  | .interfaceFileDeclaration | .interfaceTypeDeclaration | .interfacePackageDeclaration =>
    .interface
  | .enumerationTypeDefinition | .integerTypeDefinition | .floatingTypeDefinition
  | .physicalTypeDefinition | .arrayTypeDefinition | .recordTypeDefinition
  | .accessTypeDefinition | .fileTypeDefinition => .typeDefinition
  | .enumerationLiteral | .elementDeclaration | .rangeExpression | .subtypeDefinition
  | .arraySubtypeDefinition => .typeComponent
  | .simpleName | .selectedName | .selectedByAllName | .attributeName | .indexedName => .name
  | .integerLiteral | .floatingPointLiteral | .characterLiteral | .stringLiteral
  | .physicalLiteral | .nullLiteral => .literal
  | .identityOperator | .negationOperator | .absoluteOperator | .notOperator | .andOperator
  | .orOperator | .nandOperator | .norOperator | .xorOperator | .xnorOperator | .equalityOperator
  | .inequalityOperator | .lessThanOperator | .lessThanOrEqualOperator | .greaterThanOperator
  | .greaterThanOrEqualOperator | .sllOperator | .srlOperator | .slaOperator | .sraOperator
  | .rolOperator | .rorOperator | .additionOperator | .subtractionOperator
  | .concatenationOperator | .multiplicationOperator | .divisionOperator | .modulusOperator
  | .remainderOperator | .exponentiationOperator => .operator
  | .parenthesis | .aggregate | .functionCall | .qualifiedExpression | .typeConversion =>
    .expression
  | .associationElementPositional | .associationElementByExpression | .choiceByNone
  | .choiceByExpression | .choiceByOthers | .choiceByRange => .association
  | .processStatement | .concurrentSimpleSignalAssignment | .componentInstantiationStatement
  | .blockStatement | .ifGenerateStatement | .forGenerateStatement => .statement

/-- The fields defined for nodes of a kind. No other field of such a node may be asked for. -/
def fields : Kind → List Field
  | .designFile => [.designUnits]
  | .designUnit => [.contextItems, .libraryUnit]
  | .entityDeclaration => [.genericChain, .portChain, .declarationChain, .statementChain]
  | .architectureBody => [.entityName, .declarationChain, .statementChain]
  | .packageDeclaration => [.genericChain, .declarationChain]
  | .packageBody => [.declarationChain]
  | .contextDeclaration => [.contextItems]
  | .configurationDeclaration => [.entityName, .declarationChain]
  | .libraryClause => []
  | .useClause | .contextReference => [.nameChain]
  | .functionDeclaration => [.genericChain, .interfaceChain, .returnTypeMark]
  | .procedureDeclaration => [.genericChain, .interfaceChain]
  | .functionBody | .procedureBody =>
    [.subprogramSpecification, .declarationChain, .statementChain]
  | .constantDeclaration | .signalDeclaration | .variableDeclaration | .fileDeclaration =>
    [.subtypeIndication, .defaultValue]
  | .typeDeclaration => [.typeDefinition]
  | .subtypeDeclaration => [.subtypeIndication]
  | .aliasDeclaration => [.subtypeIndication, .name]
  | .componentDeclaration => [.genericChain, .portChain]
  | .attributeDeclaration => [.typeMark]
  | .attributeSpecification => [.name, .expression]
  | .groupDeclaration => [.nameChain]
  | .interfaceConstantDeclaration | .interfaceSignalDeclaration | .interfaceVariableDeclaration
  | .interfaceFileDeclaration => [.subtypeIndication, .defaultValue]
  | .interfaceTypeDeclaration => []
  | .interfacePackageDeclaration => [.name]
  | .enumerationTypeDefinition => [.enumerationLiterals]
  | .integerTypeDefinition | .floatingTypeDefinition | .physicalTypeDefinition =>
    [.rangeConstraint]
  | .arrayTypeDefinition => [.indexSubtypes, .elementSubtype]
  | .recordTypeDefinition => [.elementDeclarations]
  | .accessTypeDefinition | .fileTypeDefinition => [.designatedSubtype]
  | .enumerationLiteral => []
  | .elementDeclaration => [.subtypeIndication]
  | .rangeExpression => [.left, .right]
  | .subtypeDefinition => [.subtypeTypeMark, .rangeConstraint]
  | .arraySubtypeDefinition => [.subtypeTypeMark, .indexConstraints]
  | .simpleName => []
  | .selectedName | .selectedByAllName => [.qualifier]
  | .attributeName => [.qualifier]
  | .indexedName => [.qualifier, .associationChain]
  | .integerLiteral | .floatingPointLiteral | .characterLiteral | .stringLiteral | .nullLiteral =>
    []
  | .physicalLiteral => [.unit]
  | .identityOperator | .negationOperator | .absoluteOperator | .notOperator => [.operand]
  | .andOperator | .orOperator | .nandOperator | .norOperator | .xorOperator | .xnorOperator
  | .equalityOperator | .inequalityOperator | .lessThanOperator | .lessThanOrEqualOperator
  | .greaterThanOperator | .greaterThanOrEqualOperator | .sllOperator | .srlOperator
  | .slaOperator | .sraOperator | .rolOperator | .rorOperator | .additionOperator
  | .subtractionOperator | .concatenationOperator | .multiplicationOperator | .divisionOperator
  | .modulusOperator | .remainderOperator | .exponentiationOperator => [.left, .right]
  | .parenthesis => [.expression]
  | .aggregate => [.associationChain]
  | .functionCall => [.qualifier, .associationChain]
  | .qualifiedExpression | .typeConversion => [.typeMark, .expression]
  | .associationElementPositional => [.actual]
  | .associationElementByExpression => [.formal, .actual]
  | .choiceByNone | .choiceByOthers => [.associatedExpr]
  | .choiceByExpression => [.choiceExpression, .associatedExpr]
  | .choiceByRange => [.choiceRange, .associatedExpr]
  | .processStatement => [.declarationChain, .statementChain]
  | .concurrentSimpleSignalAssignment => [.target, .expression]
  | .componentInstantiationStatement => [.name, .associationChain]
  | .blockStatement => [.declarationChain, .statementChain]
  | .ifGenerateStatement | .forGenerateStatement => [.statementChain]

def defines (k : Kind) (f : Field) : Bool := k.fields.contains f

end Kind

def Field.kinds (f : Field) : List Kind := Kind.all.filter (fun k => k.defines f)

end VhdlDesign
