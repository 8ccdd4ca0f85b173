/-!
Fields: the named edges from a node to its parts. As all enumeration values they have two names,
`EntityName` in messages and `entity_name` in images.
-/
namespace VhdlDesign

/-! ### Names of enumeration values -/

def snakeTail : List Char → List Char
  | [] => []
  | c :: rest =>
    if c.isUpper then '_' :: c.toLower :: snakeTail rest else c :: snakeTail rest

/-- The snake-case form of an ASCII camel-case name. The first letter gets no low line. -/
def snake (s : String) : String :=
  match s.toList with
  | [] => ""
  | c :: rest => String.ofList (c.toLower :: snakeTail rest)

/-! ### Fields -/

/-- A named edge of a node. A chain is reached through the field that holds its first element. -/
inductive Field
  | designUnits | contextItems | libraryUnit | genericChain | portChain | interfaceChain
  | declarationChain | statementChain | entityName | nameChain | returnTypeMark
  | subprogramSpecification | subtypeIndication | defaultValue | typeDefinition | typeMark | name
  | enumerationLiterals | rangeConstraint | indexSubtypes | indexConstraints | elementSubtype
  | elementDeclarations | designatedSubtype | subtypeTypeMark | left | right | operand
  | qualifier | unit | expression | associationChain | actual | formal | associatedExpr
  | choiceExpression | choiceRange | target
  deriving DecidableEq

namespace Field

/-- Every field, in the order in which the links of a record are checked. -/
def all : List Field := [
  .designUnits, .contextItems, .libraryUnit, .genericChain, .portChain, .interfaceChain,
  .declarationChain, .statementChain, .entityName, .nameChain, .returnTypeMark,
  .subprogramSpecification, .subtypeIndication, .defaultValue, .typeDefinition, .typeMark, .name,
  .enumerationLiterals, .rangeConstraint, .indexSubtypes, .indexConstraints, .elementSubtype,
  .elementDeclarations, .designatedSubtype, .subtypeTypeMark, .left, .right, .operand,
  .qualifier, .unit, .expression, .associationChain, .actual, .formal, .associatedExpr,
  .choiceExpression, .choiceRange, .target]

def label : Field → String
  | .designUnits => "DesignUnits"
  | .contextItems => "ContextItems"
  | .libraryUnit => "LibraryUnit"
  | .genericChain => "GenericChain"
  | .portChain => "PortChain"
  | .interfaceChain => "InterfaceChain"
  | .declarationChain => "DeclarationChain"
  | .statementChain => "StatementChain"
  | .entityName => "EntityName"
  | .nameChain => "NameChain"
  | .returnTypeMark => "ReturnTypeMark"
  | .subprogramSpecification => "SubprogramSpecification"
  | .subtypeIndication => "SubtypeIndication"
  | .defaultValue => "DefaultValue"
  | .typeDefinition => "TypeDefinition"
  | .typeMark => "TypeMark"
  | .name => "Name"
  | .enumerationLiterals => "EnumerationLiterals"
  | .rangeConstraint => "RangeConstraint"
  | .indexSubtypes => "IndexSubtypes"
  | .indexConstraints => "IndexConstraints"
  | .elementSubtype => "ElementSubtype"
  | .elementDeclarations => "ElementDeclarations"
  | .designatedSubtype => "DesignatedSubtype"
  | .subtypeTypeMark => "SubtypeTypeMark"
  | .left => "Left"
  | .right => "Right"
  | .operand => "Operand"
  | .qualifier => "Prefix"
  | .unit => "Unit"
  | .expression => "Expression"
  | .associationChain => "AssociationChain"
  | .actual => "Actual"
  | .formal => "Formal"
  | .associatedExpr => "AssociatedExpr"
  | .choiceExpression => "ChoiceExpression"
  | .choiceRange => "ChoiceRange"
  | .target => "Target"

def key (f : Field) : String := snake f.label

def ofKey? (s : String) : Option Field := all.find? (fun f => f.key == s)

theorem mem_all (f : Field) : f ∈ all := by
  cases f <;> decide

end Field

end VhdlDesign
