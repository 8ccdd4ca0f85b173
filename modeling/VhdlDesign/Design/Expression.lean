import VhdlDesign.Graph.Node
import VhdlDesign.Number.Shortest

/-! Expressions and their VHDL text. -/
namespace VhdlDesign

/-- A reference by name that is not yet bound to what it names. Selected names are dotted. -/
structure Symbol where
  name : String
  deriving DecidableEq

def Symbol.precedes (a b : Symbol) : Bool := decide (a.name ≤ b.name)

inductive UnaryOperator
  | identity | negation | absolute | not
  deriving DecidableEq

inductive BinaryOperator
  | and | or | nand | nor | xor | xnor
  | equal | notEqual | less | lessEqual | greater | greaterEqual
  | sll | srl | sla | sra | rol | ror
  | add | subtract | concatenate | multiply | divide | modulus | remainder | exponentiate
  deriving DecidableEq

def UnaryOperator.label : UnaryOperator → String
  | .identity => "Identity"
  | .negation => "Negation"
  | .absolute => "Absolute"
  | .not => "Not"

/-- A sign stands directly before its operand, a word is set apart from it. -/
def UnaryOperator.text : UnaryOperator → String
  | .identity => "+"
  | .negation => "-"
  | .absolute => "abs "
  | .not => "not "

def BinaryOperator.label : BinaryOperator → String
  | .and => "And"
  | .or => "Or"
  | .nand => "Nand"
  | .nor => "Nor"
  | .xor => "Xor"
  | .xnor => "Xnor"
  | .equal => "Equal"
  | .notEqual => "NotEqual"
  | .less => "Less"
  | .lessEqual => "LessEqual"
  | .greater => "Greater"
  | .greaterEqual => "GreaterEqual"
  | .sll => "Sll"
  | .srl => "Srl"
  | .sla => "Sla"
  | .sra => "Sra"
  | .rol => "Rol"
  | .ror => "Ror"
  | .add => "Add"
  | .subtract => "Subtract"
  | .concatenate => "Concatenate"
  | .multiply => "Multiply"
  | .divide => "Divide"
  | .modulus => "Modulus"
  | .remainder => "Remainder"
  | .exponentiate => "Exponentiate"

def BinaryOperator.text : BinaryOperator → String
  | .and => "and"
  | .or => "or"
  | .nand => "nand"
  | .nor => "nor"
  | .xor => "xor"
  | .xnor => "xnor"
  | .equal => "="
  | .notEqual => "/="
  | .less => "<"
  | .lessEqual => "<="
  | .greater => ">"
  | .greaterEqual => ">="
  | .sll => "sll"
  | .srl => "srl"
  | .sla => "sla"
  | .sra => "sra"
  | .rol => "rol"
  | .ror => "ror"
  | .add => "+"
  | .subtract => "-"
  | .concatenate => "&"
  | .multiply => "*"
  | .divide => "/"
  | .modulus => "mod"
  | .remainder => "rem"
  | .exponentiate => "**"

mutual
/-- An expression. Parentheses are kept where the source has them. -/
inductive Expression
  | integer (value : Int)
  | real (value : Double)
  | character (value : Char)
  | string (value : String)
  | name (symbol : Symbol)
  | unary (op : UnaryOperator) (operand : Expression)
  | binary (op : BinaryOperator) (left right : Expression)
  | parenthesis (inner : Expression)
  | aggregate (elements : List AggregateElement)
  | call (name : Symbol) (arguments : List Argument)

inductive AggregateElement
  | positional (value : Expression)
  | chosen (choice value : Expression)
  | others (value : Expression)

inductive Argument
  | positional (actual : Expression)
  | named (formal : Symbol) (actual : Expression)
end

/-- The characters of a string literal: a quote inside is written twice. -/
def doubleQuotes : List Char → List Char
  | [] => []
  | c :: rest => if c = '\x22' then c :: c :: doubleQuotes rest else c :: doubleQuotes rest

def commaSeparated (texts : List String) : String := ", ".intercalate texts

mutual
def Expression.text : Expression → String
  | .integer value => toString value
  | .real value => value.text
  | .character value => "'" ++ value.toString ++ "'"
  | .string value => "\"" ++ String.ofList (doubleQuotes value.toList) ++ "\""
  | .name symbol => symbol.name
  | .unary op operand => op.text ++ operand.text
  | .binary op left right => left.text ++ " " ++ op.text ++ " " ++ right.text
  | .parenthesis inner => "(" ++ inner.text ++ ")"
  | .aggregate elements => "(" ++ commaSeparated (elementTexts elements) ++ ")"
  | .call name [] => name.name
  | .call name (first :: rest) =>
    name.name ++ "(" ++ commaSeparated (first.text :: argumentTexts rest) ++ ")"

def AggregateElement.text : AggregateElement → String
  | .positional value => value.text
  | .chosen choice value => choice.text ++ " => " ++ value.text
  | .others value => "others => " ++ value.text

def Argument.text : Argument → String
  | .positional actual => actual.text
  | .named formal actual => formal.name ++ " => " ++ actual.text

def elementTexts : List AggregateElement → List String
  | [] => []
  | e :: rest => e.text :: elementTexts rest

def argumentTexts : List Argument → List String
  | [] => []
  | a :: rest => a.text :: argumentTexts rest
end

structure Range where
  left : Expression
  direction : Direction
  right : Expression

def Range.text (r : Range) : String :=
  r.left.text ++ " " ++ r.direction.text ++ " " ++ r.right.text

end VhdlDesign
