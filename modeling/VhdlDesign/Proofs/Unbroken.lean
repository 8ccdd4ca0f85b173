import VhdlDesign.Design.Outline
import VhdlDesign.Proofs.Rendering

/-!
Texts that stay on one line.

A name that was checked has no line feed in it, and neither has a dotted symbol. The texts of a
design are made of such names, of words and signs, and of expressions, so that only an expression
can break a line. It does so if a literal in it has a line feed between its quotes.
-/
namespace VhdlDesign

/-! ### Texts without a line feed -/

theorem oneLine_intercalate (sep : String) (free : '\n' ∉ sep.toList) (ts : List String) :
    '\n' ∉ (sep.intercalate ts).toList ↔ ∀ t ∈ ts, '\n' ∉ t.toList := by
  induction ts with
  | nil => simp
  | cons t ts ih =>
    cases ts with
    | nil => simp
    | cons t' ts =>
      rw [String.intercalate_cons_cons, List.forall_mem_cons, ← ih]
      simp [free]

theorem oneLine_commaSeparated (ts : List String) :
    '\n' ∉ (commaSeparated ts).toList ↔ ∀ t ∈ ts, '\n' ∉ t.toList :=
  oneLine_intercalate ", " (by simp) ts

theorem IsPlain.oneLine {s : String} (plain : IsPlain s) : '\n' ∉ s.toList :=
  fun member => (plain '\n' member).2 rfl

theorem oneLine_toString (z : Int) : '\n' ∉ (toString z).toList := by
  rw [toString_int, String.toList_append, List.mem_append, not_or]
  refine ⟨?_, (isPlain_toString _).oneLine⟩
  split <;> simp

theorem Double.text_oneLine (x : Double) : '\n' ∉ x.text.toList := by
  obtain ⟨magnitude, ⟨mantissa, plain, written⟩, signed⟩ := x.text_eq
  rw [signed, String.toList_append, List.mem_append, not_or]
  refine ⟨by split <;> simp, ?_⟩
  rcases written with rfl | ⟨z, rfl⟩
  · exact plain.oneLine
  · simp only [String.toList_append, List.mem_append, not_or]
    exact ⟨⟨plain.oneLine, by simp⟩, oneLine_toString z⟩

theorem UnaryOperator.text_oneLine (op : UnaryOperator) : '\n' ∉ op.text.toList := by
  cases op <;> simp [text]

theorem BinaryOperator.text_oneLine (op : BinaryOperator) : '\n' ∉ op.text.toList := by
  cases op <;> simp [text]

theorem AggregateElement.oneLine_text (e : AggregateElement) :
    '\n' ∉ e.text.toList ↔ ∀ p ∈ e.operands, '\n' ∉ p.text.toList := by
  cases e <;> simp [text, operands]

theorem Argument.oneLine_text (a : Argument) :
    '\n' ∉ a.text.toList ↔
      (∀ formal, a.formal? = some formal → '\n' ∉ formal.name.toList) ∧
        ∀ p ∈ a.operands, '\n' ∉ p.text.toList := by
  cases a <;> simp [text, operands, formal?]

namespace Expression

theorem oneLine_text (e : Expression) :
    '\n' ∉ e.text.toList ↔
      '\n' ∉ e.spelling ∧ ∀ p ∈ e.operands, '\n' ∉ p.text.toList := by
  unfold spelling
  cases e with
  | integer value => simpa [text, symbols, quoted, operands] using oneLine_toString value
  | real value => simpa [text, symbols, quoted, operands] using value.text_oneLine
  | character value => simp [text, symbols, quoted, operands]
  | string value => simp [text, symbols, quoted, operands, mem_doubleQuotes]
  | name symbol => simp [text, symbols, quoted, operands]
  | unary op operand => simp [text, symbols, quoted, operands, op.text_oneLine]
  | binary op left right => simp [text, symbols, quoted, operands, op.text_oneLine]
  | parenthesis inner => simp [text, symbols, quoted, operands]
  | aggregate elements =>
    have row : (∀ t ∈ elements.map AggregateElement.text, '\n' ∉ t.toList) ↔
        ∀ p ∈ operands (.aggregate elements), '\n' ∉ p.text.toList := by
      simp only [List.forall_mem_map, AggregateElement.oneLine_text, operands,
        List.forall_mem_flatMap]
    rw [text_aggregate, ← row, ← oneLine_commaSeparated]
    simp [symbols, quoted]
  | call called arguments =>
    have row : (∀ t ∈ arguments.map Argument.text, '\n' ∉ t.toList) ↔
        (∀ formal ∈ arguments.filterMap Argument.formal?, '\n' ∉ formal.name.toList) ∧
          ∀ p ∈ operands (.call called arguments), '\n' ∉ p.text.toList := by
      simp only [List.forall_mem_map, Argument.oneLine_text, operands, List.forall_mem_flatMap,
        List.forall_mem_filterMap]
      exact forall₂_and
    have list : '\n' ∉ (if arguments = [] then "" else
        "(" ++ commaSeparated (arguments.map Argument.text) ++ ")").toList ↔
          ∀ t ∈ arguments.map Argument.text, '\n' ∉ t.toList := by
      split
      next none => simp [none]
      next =>
        rw [← oneLine_commaSeparated]
        simp
    rw [text_call, String.toList_append, List.mem_append, not_or, list, row]
    simp [symbols, quoted, and_assoc]

end Expression

/-! ### Names -/

theorem IsIdentifier.oneLine {s : String} (valid : IsIdentifier s) : '\n' ∉ s.toList := by
  intro member
  have control := valid.control '\n' member
  exact absurd control (by decide)

theorem Symbol.IsDotted.oneLine {s : Symbol} (dotted : s.IsDotted) : '\n' ∉ s.name.toList := by
  obtain ⟨first, rest, spelled, start, further⟩ := dotted
  rw [spelled, oneLine_intercalate "." (by simp)]
  intro part member
  rcases List.mem_cons.mp member with rfl | member
  · exact start.oneLine
  · rcases further part member with valid | rfl
    · exact valid.oneLine
    · simp

namespace Piece

def Unbroken (p : Piece) : Prop :=
  (∀ s, .name s ∈ p.everything → '\n' ∉ s.toList) ∧
    ∀ s, .symbol s ∈ p.everything → '\n' ∉ s.name.toList

theorem WellNamed.unbroken {p : Piece} (named : p.WellNamed) : p.Unbroken :=
  ⟨fun s member => (named.1 s member).oneLine, fun s member => (named.2 s member).oneLine⟩

@[simp] theorem unbroken_name {s : String} : (name s).Unbroken ↔ '\n' ∉ s.toList := by
  simp [Unbroken, everything]

@[simp] theorem unbroken_symbol {s : Symbol} : (symbol s).Unbroken ↔ '\n' ∉ s.name.toList := by
  simp [Unbroken, everything]

theorem unbroken_all {ps : List Piece} :
    (∀ p ∈ ps, p.Unbroken) ↔
      (∀ s, .name s ∈ everythingIn ps → '\n' ∉ s.toList) ∧
        ∀ s, .symbol s ∈ everythingIn ps → '\n' ∉ s.name.toList := by
  simp only [mem_everythingIn]
  constructor
  · intro each
    exact ⟨fun s ⟨p, member, held⟩ => (each p member).1 s held,
      fun s ⟨p, member, held⟩ => (each p member).2 s held⟩
  · rintro ⟨names, symbols⟩ p member
    exact ⟨fun s held => names s ⟨p, member, held⟩, fun s held => symbols s ⟨p, member, held⟩⟩

@[simp] theorem unbroken_level {ps : List Piece} :
    (level ps).Unbroken ↔ ∀ p ∈ ps, p.Unbroken := by
  rw [unbroken_all]
  simp [Unbroken, everything]

@[simp] theorem unbroken_sequence {ps : List Piece} :
    (sequence ps).Unbroken ↔ ∀ p ∈ ps, p.Unbroken := by
  rw [unbroken_all]
  simp [Unbroken, everything]

end Piece

theorem AggregateElement.unbroken_iff (e : AggregateElement) :
    e.anatomy.Unbroken ↔ ∀ p ∈ e.operands, p.anatomy.Unbroken := by
  cases e <;> simp [anatomy, operands]

theorem Argument.unbroken_iff (a : Argument) :
    a.anatomy.Unbroken ↔
      (∀ formal, a.formal? = some formal → '\n' ∉ formal.name.toList) ∧
        ∀ p ∈ a.operands, p.anatomy.Unbroken := by
  cases a <;> simp [anatomy, operands, formal?]

namespace Expression

theorem unbroken_iff (e : Expression) :
    e.anatomy.Unbroken ↔
      (∀ s ∈ e.symbols, '\n' ∉ s.name.toList) ∧ ∀ p ∈ e.operands, p.anatomy.Unbroken := by
  cases e with
  | aggregate elements =>
    simp only [anatomy, elementAnatomies_eq, symbols, operands, List.forall_mem_flatMap]
    simp [AggregateElement.unbroken_iff]
  | call called arguments =>
    simp only [anatomy, argumentAnatomies_eq, symbols, operands, List.forall_mem_flatMap,
      List.forall_mem_cons, List.forall_mem_filterMap, Piece.unbroken_level, Piece.unbroken_symbol,
      Piece.unbroken_sequence, List.forall_mem_map, Argument.unbroken_iff, and_assoc, forall₂_and]
    simp
  | _ => simp [anatomy, symbols, operands]

/-- Where the names are unbroken, the text of an expression is one line if no literal in it has a
line feed between its quotes. -/
theorem oneLine_text_iff (e : Expression) : e.anatomy.Unbroken →
    ('\n' ∉ e.text.toList ↔ ∀ p, e.Contains p → '\n' ∉ p.quoted) := by
  induction e using byOperands with
  | step e ih =>
    intro unbroken
    obtain ⟨symbols, parts⟩ := (unbroken_iff e).mp unbroken
    have own : '\n' ∉ e.spelling ↔ '\n' ∉ e.quoted := by
      simpa [spelling] using fun _ => symbols
    rw [oneLine_text, own]
    constructor
    · rintro ⟨own, operands⟩ p contained
      rcases contained.cases with rfl | ⟨q, member, contained⟩
      · exact own
      · exact (ih q member (parts q member)).mp (operands q member) p contained
    · intro free
      refine ⟨free e .refl, fun q member => (ih q member (parts q member)).mpr ?_⟩
      exact fun p contained => free p (contained.of_operand member)

end Expression

/-! ### Interfaces and types -/

def TypeDefinition.bounds : TypeDefinition → List Expression
  | .integer range => [range.left, range.right]
  | .floating range => [range.left, range.right]
  | _ => []

def parameterValues (items : List ParameterItem) : List Expression :=
  items.flatMap fun i => i.defaultValue.toList

theorem oneLine_defaultText (value : Option Expression) :
    '\n' ∉ (defaultText value).toList ↔ ∀ e ∈ value.toList, '\n' ∉ e.text.toList := by
  cases value <;> simp [defaultText]

theorem Mode.text_oneLine (m : Mode) : '\n' ∉ m.text.toList := by
  cases m <;> simp [text]

theorem Direction.text_oneLine (d : Direction) : '\n' ∉ d.text.toList := by
  cases d <;> simp [text]

theorem ParameterClass.text_oneLine (c : ParameterClass) : '\n' ∉ c.text.toList := by
  cases c <;> simp [text]

theorem SubprogramKind.text_oneLine (k : SubprogramKind) : '\n' ∉ k.text.toList := by
  cases k <;> simp [text]

theorem unbroken_object {name : String} {subtype : Symbol} {value : Option Expression} :
    (objectAnatomy name subtype value).Unbroken ↔
      '\n' ∉ name.toList ∧ '\n' ∉ subtype.name.toList ∧
        ∀ e ∈ value.toList, e.anatomy.Unbroken := by
  cases value <;> simp [objectAnatomy]

theorem GenericItem.oneLine_text {i : GenericItem} (unbroken : i.anatomy.Unbroken) :
    '\n' ∉ i.text.toList ↔ ∀ e ∈ i.defaultValue.toList, '\n' ∉ e.text.toList := by
  obtain ⟨name, subtype, _⟩ := unbroken_object.mp unbroken
  rw [← oneLine_defaultText]
  simp [text, name, subtype]

theorem PortItem.oneLine_text {i : PortItem} (unbroken : i.anatomy.Unbroken) :
    '\n' ∉ i.text.toList ↔ ∀ e ∈ i.defaultValue.toList, '\n' ∉ e.text.toList := by
  obtain ⟨name, subtype, _⟩ := unbroken_object.mp unbroken
  rw [← oneLine_defaultText]
  simp [text, name, subtype, i.mode.text_oneLine]

theorem ParameterItem.oneLine_text {i : ParameterItem} (unbroken : i.anatomy.Unbroken) :
    '\n' ∉ i.text.toList ↔ ∀ e ∈ i.defaultValue.toList, '\n' ∉ e.text.toList := by
  obtain ⟨name, subtype, _⟩ := unbroken_object.mp unbroken
  rw [← oneLine_defaultText]
  unfold text
  split <;> simp [name, subtype, i.mode.text_oneLine, i.objectClass.text_oneLine]

theorem oneLine_parametersText {items : List ParameterItem}
    (unbroken : ∀ i ∈ items, i.anatomy.Unbroken) :
    '\n' ∉ (parametersText items).toList ↔
      ∀ e ∈ parameterValues items, '\n' ∉ e.text.toList := by
  have row : (∀ t ∈ items.map ParameterItem.text, '\n' ∉ t.toList) ↔
      ∀ e ∈ parameterValues items, '\n' ∉ e.text.toList := by
    rw [parameterValues, List.forall_mem_flatMap, List.forall_mem_map]
    exact forall₂_congr fun i member => ParameterItem.oneLine_text (unbroken i member)
  rw [← row]
  cases items with
  | nil => simp [parametersText]
  | cons i items =>
    rw [← oneLine_intercalate "; " (by simp)]
    simp [parametersText]

theorem Outline.oneLine_object {keyword : String} {d : ObjectDeclaration}
    (word : '\n' ∉ keyword.toList)
    (unbroken : (objectAnatomy d.name d.subtype d.defaultValue).Unbroken) :
    '\n' ∉ (object keyword d).toList ↔ ∀ e ∈ d.defaultValue.toList, '\n' ∉ e.text.toList := by
  obtain ⟨name, subtype, _⟩ := unbroken_object.mp unbroken
  rw [← oneLine_defaultText]
  simp [object, word, name, subtype]

theorem oneLine_symbolTexts {names : List Symbol} (unbroken : ∀ s ∈ names, '\n' ∉ s.name.toList) :
    '\n' ∉ (symbolTexts names).toList := by
  rw [symbolTexts, oneLine_commaSeparated, List.forall_mem_map]
  exact unbroken

theorem Range.oneLine_text (r : Range) :
    '\n' ∉ r.text.toList ↔ '\n' ∉ r.left.text.toList ∧ '\n' ∉ r.right.text.toList := by
  simp [text, r.direction.text_oneLine]

theorem TypeDefinition.oneLine_text {d : TypeDefinition} (unbroken : d.anatomy.Unbroken) :
    '\n' ∉ d.text.toList ↔ ∀ e ∈ d.bounds, '\n' ∉ e.text.toList := by
  cases d with
  | enumeration literals =>
    have names : '\n' ∉ (commaSeparated literals).toList := by
      rw [oneLine_commaSeparated]
      simpa [anatomy] using unbroken
    simp [text, bounds, names]
  | integer range => simpa [text, bounds] using range.oneLine_text
  | floating range => simpa [text, bounds] using range.oneLine_text
  | array indices element =>
    have both : (∀ s ∈ indices, '\n' ∉ s.name.toList) ∧ '\n' ∉ element.name.toList := by
      simpa [anatomy] using unbroken
    have names : '\n' ∉ (commaSeparated (indices.map Symbol.name)).toList :=
      oneLine_symbolTexts both.1
    simp [text, bounds, names, both.2]
  | record elements =>
    have each : ∀ e ∈ elements, '\n' ∉ e.name.toList ∧ '\n' ∉ e.subtype.name.toList := by
      simpa [anatomy, RecordElement.anatomy] using unbroken
    have parts : ∀ t ∈ elements.map fun e => " " ++ e.name ++ " : " ++ e.subtype.name ++ ";",
        '\n' ∉ t.toList := by
      rw [List.forall_mem_map]
      intro e member
      simp [each e member]
    simpa [text, bounds] using parts
  | access designated =>
    simpa [text, bounds, anatomy] using unbroken

theorem unbroken_parameterValues {items : List ParameterItem}
    (unbroken : ∀ i ∈ items, i.anatomy.Unbroken) :
    ∀ e ∈ parameterValues items, e.anatomy.Unbroken := by
  rw [parameterValues, List.forall_mem_flatMap]
  exact fun i member => (unbroken_object.mp (unbroken i member)).2.2

theorem TypeDefinition.unbroken_bounds {d : TypeDefinition} (unbroken : d.anatomy.Unbroken) :
    ∀ e ∈ d.bounds, e.anatomy.Unbroken := by
  cases d with
  | integer range => simpa [anatomy, Range.anatomy, bounds] using unbroken
  | floating range => simpa [anatomy, Range.anatomy, bounds] using unbroken
  | _ => simp [bounds]

/-! ### Names of declarations -/

namespace Declaration

theorem unbroken_function {f : Function} :
    (function f).anatomy.Unbroken ↔
      '\n' ∉ f.name.toList ∧ (∀ i ∈ f.generics, i.anatomy.Unbroken) ∧
        (∀ i ∈ f.parameters, i.anatomy.Unbroken) ∧ '\n' ∉ f.returnType.name.toList := by
  simp [anatomy]

theorem unbroken_procedure {p : Procedure} :
    (procedure p).anatomy.Unbroken ↔
      '\n' ∉ p.name.toList ∧ (∀ i ∈ p.generics, i.anatomy.Unbroken) ∧
        ∀ i ∈ p.parameters, i.anatomy.Unbroken := by
  simp [anatomy]

theorem unbroken_subprogramBody (kind : SubprogramKind) {name : String} {ds : List Declaration} :
    (subprogramBody kind name ds).anatomy.Unbroken ↔
      '\n' ∉ name.toList ∧ ∀ d ∈ ds, d.anatomy.Unbroken := by
  simp [anatomy, declarationAnatomies_eq]

theorem unbroken_typeDecl {d : TypeDeclaration} :
    (typeDecl d).anatomy.Unbroken ↔ '\n' ∉ d.name.toList ∧ d.definition.anatomy.Unbroken := by
  simp [anatomy]

theorem unbroken_aliasDecl {d : AliasDeclaration} :
    (aliasDecl d).anatomy.Unbroken ↔
      '\n' ∉ d.name.toList ∧ (∀ s, d.subtype = some s → '\n' ∉ s.name.toList) ∧
        '\n' ∉ d.target.name.toList := by
  simp only [anatomy]
  cases d.subtype <;> simp

theorem unbroken_componentDecl {d : ComponentDeclaration} :
    (componentDecl d).anatomy.Unbroken ↔
      '\n' ∉ d.name.toList ∧ (∀ i ∈ d.generics, i.anatomy.Unbroken) ∧
        ∀ i ∈ d.ports, i.anatomy.Unbroken := by
  simp [anatomy]

end Declaration

namespace LibraryUnit

theorem unbroken_entity {u : Entity} :
    (entity u).anatomy.Unbroken ↔
      '\n' ∉ u.name.toList ∧ (∀ i ∈ u.generics, i.anatomy.Unbroken) ∧
        (∀ i ∈ u.ports, i.anatomy.Unbroken) ∧ ∀ d ∈ u.declarations, d.anatomy.Unbroken := by
  simp [anatomy]

theorem unbroken_package {u : Package} :
    (package u).anatomy.Unbroken ↔
      '\n' ∉ u.name.toList ∧ (∀ i ∈ u.generics, i.anatomy.Unbroken) ∧
        ∀ d ∈ u.declarations, d.anatomy.Unbroken := by
  simp [anatomy]

theorem unbroken_context {u : ContextDeclaration} :
    (context u).anatomy.Unbroken ↔
      '\n' ∉ u.name.toList ∧ ∀ i ∈ u.items, i.anatomy.Unbroken := by
  simp [anatomy]

theorem unbroken_architecture {u : Architecture} :
    (architecture u).anatomy.Unbroken ↔
      '\n' ∉ u.name.toList ∧ '\n' ∉ u.entity.name.toList ∧
        ∀ d ∈ u.declarations, d.anatomy.Unbroken := by
  simp [anatomy]

theorem unbroken_packageBody {u : PackageBody} :
    (packageBody u).anatomy.Unbroken ↔
      '\n' ∉ u.name.toList ∧ ∀ d ∈ u.declarations, d.anatomy.Unbroken := by
  simp [anatomy]

theorem unbroken_configuration {u : Configuration} :
    (configuration u).anatomy.Unbroken ↔
      '\n' ∉ u.name.toList ∧ '\n' ∉ u.entity.name.toList := by
  simp [anatomy]

theorem unbroken_declarations {u : LibraryUnit} (unbroken : u.anatomy.Unbroken) :
    ∀ d ∈ u.declarations, d.anatomy.Unbroken := by
  cases u with
  | entity u => exact (unbroken_entity.mp unbroken).2.2.2
  | architecture u => exact (unbroken_architecture.mp unbroken).2.2
  | package u => exact (unbroken_package.mp unbroken).2.2
  | packageBody u => exact (unbroken_packageBody.mp unbroken).2
  | context u => simp [declarations]
  | configuration u => simp [declarations]

end LibraryUnit

theorem UseClause.oneLine_names {c : UseClause} (unbroken : c.anatomy.Unbroken) :
    '\n' ∉ (symbolTexts c.names).toList :=
  oneLine_symbolTexts (by simpa [anatomy] using unbroken)

theorem ContextItem.oneLine_text {i : ContextItem} (unbroken : i.anatomy.Unbroken) :
    '\n' ∉ i.text.toList := by
  cases i with
  | library c => simpa [text, anatomy] using unbroken
  | useClause c => simp [text, UseClause.oneLine_names unbroken]
  | reference c =>
    have names : '\n' ∉ (symbolTexts c.names).toList :=
      oneLine_symbolTexts (by simpa [anatomy] using unbroken)
    simp [text, names]

theorem Outline.oneLine_heading {u : LibraryUnit} (unbroken : u.anatomy.Unbroken) :
    '\n' ∉ (heading u).toList := by
  -- the headings are spelled out, since `heading` treats the units without an entity alike
  open LibraryUnit in
  cases u with
  | entity u =>
    change '\n' ∉ ("entity" ++ " " ++ u.name).toList
    simp [(unbroken_entity.mp unbroken).1]
  | architecture u =>
    obtain ⟨name, entity, _⟩ := unbroken_architecture.mp unbroken
    change '\n' ∉ ("architecture " ++ u.name ++ " of " ++ u.entity.name).toList
    simp [name, entity]
  | package u =>
    change '\n' ∉ ("package" ++ " " ++ u.name).toList
    simp [(unbroken_package.mp unbroken).1]
  | packageBody u =>
    change '\n' ∉ ("package body" ++ " " ++ u.name).toList
    simp [(unbroken_packageBody.mp unbroken).1]
  | context u =>
    change '\n' ∉ ("context" ++ " " ++ u.name).toList
    simp [(unbroken_context.mp unbroken).1]
  | configuration u =>
    obtain ⟨name, entity⟩ := unbroken_configuration.mp unbroken
    change '\n' ∉ ("configuration " ++ u.name ++ " of " ++ u.entity.name).toList
    simp [name, entity]

end VhdlDesign
