import VhdlDesign.Design.File

/-! The one table that says what becomes of a node of each kind. -/
namespace VhdlDesign

inductive UnitForm
  | entity | architecture | package | packageBody | context | configuration
  deriving DecidableEq

inductive ClauseForm
  | library | useClause | reference
  deriving DecidableEq

inductive DeclarationForm
  | function | procedure
  | subprogramBody (kind : SubprogramKind)
  | constantDecl | signalDecl | variableDecl | typeDecl | subtypeDecl | aliasDecl | componentDecl
  | attributeDecl
  deriving DecidableEq

inductive ExpressionForm
  | name | literal
  | unary (op : UnaryOperator)
  | binary (op : BinaryOperator)
  | parenthesis | aggregate | call
  deriving DecidableEq

inductive Construction
  | designFile
  | designUnit
  | libraryUnit (form : UnitForm)
  | contextItem (form : ClauseForm)
  | declaration (form : DeclarationForm)
  | expression (form : ExpressionForm)
  deriving DecidableEq

namespace Construction

def label : Construction → String
  | .designFile => "DesignFile"
  | .designUnit => "DesignUnit"
  | .libraryUnit .entity => "Entity"
  | .libraryUnit .architecture => "Architecture"
  | .libraryUnit .package => "Package"
  | .libraryUnit .packageBody => "PackageBody"
  | .libraryUnit .context => "Context"
  | .libraryUnit .configuration => "Configuration"
  | .contextItem .library => "LibraryClause"
  | .contextItem .useClause => "UseClause"
  | .contextItem .reference => "ContextReference"
  | .declaration .function => "Function"
  | .declaration .procedure => "Procedure"
  | .declaration (.subprogramBody kind) => "SubprogramBody(" ++ kind.label ++ ")"
  | .declaration .constantDecl => "Constant"
  | .declaration .signalDecl => "Signal"
  | .declaration .variableDecl => "Variable"
  | .declaration .typeDecl => "Type"
  | .declaration .subtypeDecl => "Subtype"
  | .declaration .aliasDecl => "Alias"
  | .declaration .componentDecl => "Component"
  | .declaration .attributeDecl => "Attribute"
  | .expression .name => "Name"
  | .expression .literal => "Literal"
  | .expression (.unary op) => "Unary(" ++ op.label ++ ")"
  | .expression (.binary op) => "Binary(" ++ op.label ++ ")"
  | .expression .parenthesis => "Parenthesis"
  | .expression .aggregate => "Aggregate"
  | .expression .call => "FunctionCall"

end Construction

def Kind.operator? : Kind → Option ExpressionForm
  | .identityOperator => some (.unary .identity)
  | .negationOperator => some (.unary .negation)
  | .absoluteOperator => some (.unary .absolute)
  | .notOperator => some (.unary .not)
  | .andOperator => some (.binary .and)
  | .orOperator => some (.binary .or)
  | .nandOperator => some (.binary .nand)
  | .norOperator => some (.binary .nor)
  | .xorOperator => some (.binary .xor)
  | .xnorOperator => some (.binary .xnor)
  | .equalityOperator => some (.binary .equal)
  | .inequalityOperator => some (.binary .notEqual)
  | .lessThanOperator => some (.binary .less)
  | .lessThanOrEqualOperator => some (.binary .lessEqual)
  | .greaterThanOperator => some (.binary .greater)
  | .greaterThanOrEqualOperator => some (.binary .greaterEqual)
  | .sllOperator => some (.binary .sll)
  | .srlOperator => some (.binary .srl)
  | .slaOperator => some (.binary .sla)
  | .sraOperator => some (.binary .sra)
  | .rolOperator => some (.binary .rol)
  | .rorOperator => some (.binary .ror)
  | .additionOperator => some (.binary .add)
  | .subtractionOperator => some (.binary .subtract)
  | .concatenationOperator => some (.binary .concatenate)
  | .multiplicationOperator => some (.binary .multiply)
  | .divisionOperator => some (.binary .divide)
  | .modulusOperator => some (.binary .modulus)
  | .remainderOperator => some (.binary .remainder)
  | .exponentiationOperator => some (.binary .exponentiate)
  | _ => none

/-- What a node of a kind becomes when it is built on its own. Interface declarations, type
definitions, associations and the like are built only by the node that owns them; statements and
some other kinds are not built at all. -/
def Kind.construction : Kind → Option Construction
  | .designFile => some .designFile
  | .designUnit => some .designUnit
  | .entityDeclaration => some (.libraryUnit .entity)
  | .architectureBody => some (.libraryUnit .architecture)
  | .packageDeclaration => some (.libraryUnit .package)
  | .packageBody => some (.libraryUnit .packageBody)
  | .contextDeclaration => some (.libraryUnit .context)
  | .configurationDeclaration => some (.libraryUnit .configuration)
  | .libraryClause => some (.contextItem .library)
  | .useClause => some (.contextItem .useClause)
  | .contextReference => some (.contextItem .reference)
  | .functionDeclaration => some (.declaration .function)
  | .procedureDeclaration => some (.declaration .procedure)
  | .functionBody => some (.declaration (.subprogramBody .function))
  | .procedureBody => some (.declaration (.subprogramBody .procedure))
  | .constantDeclaration => some (.declaration .constantDecl)
  | .signalDeclaration => some (.declaration .signalDecl)
  | .variableDeclaration => some (.declaration .variableDecl)
  | .typeDeclaration => some (.declaration .typeDecl)
  | .subtypeDeclaration => some (.declaration .subtypeDecl)
  | .aliasDeclaration => some (.declaration .aliasDecl)
  | .componentDeclaration => some (.declaration .componentDecl)
  | .attributeDeclaration => some (.declaration .attributeDecl)
  | .simpleName | .selectedName | .selectedByAllName => some (.expression .name)
  | .integerLiteral | .floatingPointLiteral | .characterLiteral | .stringLiteral =>
    some (.expression .literal)
  | .parenthesis => some (.expression .parenthesis)
  | .aggregate => some (.expression .aggregate)
  | .functionCall => some (.expression .call)
  | k => k.operator?.map .expression

end VhdlDesign
