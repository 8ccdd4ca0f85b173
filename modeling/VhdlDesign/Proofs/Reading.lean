import VhdlDesign.Proofs.Grammar

/-!
What stands in a value was read.

Every part of a design was the answer to a question about one field of the node that the design was
built from. `Form.readings` lists the parts of a value with their questions, and every recipe comes
only to values whose parts are the answers that it got.
-/
namespace VhdlDesign

/-- A question with an answer to it. -/
structure Reading where
  question : Question
  answer : question.Answer

def Admits (A : (q : Question) → q.Answer → Prop) (rs : List Reading) : Prop :=
  ∀ r ∈ rs, A r.question r.answer

namespace Admits

variable {A : (q : Question) → q.Answer → Prop} {r : Reading} {rs : List Reading}

theorem nil : Admits A [] := by
  intro r member
  cases member

theorem cons (first : A r.question r.answer) (rest : Admits A rs) : Admits A (r :: rs) :=
  List.forall_mem_cons.mpr ⟨first, rest⟩

end Admits

/-! ### The parts of a value -/

def Expression.readings : Expression → List Reading
  | .unary _ operand => [⟨.child .operand .expression, operand⟩]
  | .binary _ left right =>
    [⟨.child .left .expression, left⟩, ⟨.child .right .expression, right⟩]
  | .parenthesis inner => [⟨.child .expression .expression, inner⟩]
  | .aggregate elements => [⟨.chain .associationChain .aggregateElement, elements⟩]
  | .call called arguments =>
    [⟨.child .qualifier .name, called⟩, ⟨.chain .associationChain .argument, arguments⟩]
  | _ => []

def AggregateElement.readings : AggregateElement → List Reading
  | .positional value => [⟨.child .associatedExpr .expression, value⟩]
  | .chosen choice value =>
    [⟨.child .choiceExpression .expression, choice⟩, ⟨.child .associatedExpr .expression, value⟩]
  | .others value => [⟨.child .associatedExpr .expression, value⟩]

def Argument.readings : Argument → List Reading
  | .positional actual => [⟨.child .actual .expression, actual⟩]
  | .named formal actual => [⟨.child .formal .name, formal⟩, ⟨.child .actual .expression, actual⟩]

def TypeDefinition.readings : TypeDefinition → List Reading
  | .enumeration literals => [⟨.labels .enumerationLiterals Grammar.enumerationLiteral, literals⟩]
  | .integer range => [⟨.child .rangeConstraint .range, range⟩]
  | .floating range => [⟨.child .rangeConstraint .range, range⟩]
  | .array indices element =>
    [⟨.chain .indexSubtypes .subtype, indices⟩, ⟨.child .elementSubtype .subtype, element⟩]
  | .record elements => [⟨.chain .elementDeclarations .recordElement, elements⟩]
  | .access designated => [⟨.child .designatedSubtype .subtype, designated⟩]

def objectReadings (subtype : Symbol) (defaultValue : Option Expression) : List Reading :=
  [⟨.child .subtypeIndication .subtype, subtype⟩,
    ⟨.optional .defaultValue .expression, defaultValue⟩]

def Function.readings (f : Function) : List Reading :=
  [⟨.chain .genericChain .generic, f.generics⟩, ⟨.chain .interfaceChain .parameter, f.parameters⟩,
    ⟨.child .returnTypeMark .name, f.returnType⟩]

def Procedure.readings (p : Procedure) : List Reading :=
  [⟨.chain .genericChain .generic, p.generics⟩, ⟨.chain .interfaceChain .parameter, p.parameters⟩]

def declarationReadings (declarations : List Declaration) : List Reading :=
  [⟨.chain .declarationChain .declaration, declarations⟩]

def UseClause.readings (c : UseClause) : List Reading := [⟨.chain .nameChain .name, c.names⟩]

def Declaration.readings : Declaration → List Reading
  | .function f => f.readings
  | .procedure p => p.readings
  | .subprogramBody _ _ declarations => declarationReadings declarations
  | .constantDecl d => objectReadings d.subtype d.defaultValue
  | .signalDecl d => objectReadings d.subtype d.defaultValue
  | .variableDecl d => objectReadings d.subtype d.defaultValue
  | .typeDecl d => [⟨.child .typeDefinition .typeDefinition, d.definition⟩]
  | .subtypeDecl d => [⟨.child .subtypeIndication .subtype, d.subtype⟩]
  | .aliasDecl d =>
    [⟨.optional .subtypeIndication .subtype, d.subtype⟩, ⟨.child .name .name, d.target⟩]
  | .componentDecl d =>
    [⟨.chain .genericChain .generic, d.generics⟩, ⟨.chain .portChain .port, d.ports⟩]
  | .attributeDecl d => [⟨.child .typeMark .name, d.typeMark⟩]
  | .useClause c => c.readings

def ContextItem.readings : ContextItem → List Reading
  | .library _ => []
  | .useClause c => c.readings
  | .reference c => [⟨.chain .nameChain .name, c.names⟩]

def LibraryUnit.readings : LibraryUnit → List Reading
  | .entity u =>
    [⟨.chain .genericChain .generic, u.generics⟩, ⟨.chain .portChain .port, u.ports⟩,
      ⟨.chain .declarationChain .declaration, u.declarations⟩]
  | .architecture u =>
    [⟨.child .entityName .name, u.entity⟩, ⟨.chain .declarationChain .declaration, u.declarations⟩]
  | .package u =>
    [⟨.chain .genericChain .generic, u.generics⟩,
      ⟨.chain .declarationChain .declaration, u.declarations⟩]
  | .packageBody u => declarationReadings u.declarations
  | .context u => [⟨.chain .contextItems .contextItem, u.items⟩]
  | .configuration u => [⟨.child .entityName .name, u.entity⟩]

def DesignUnit.readings (u : DesignUnit) : List Reading :=
  [⟨.chain .contextItems .contextItem, u.context⟩, ⟨.child .libraryUnit .libraryUnit, u.unit⟩]

def DesignFile.readings (f : DesignFile) : List Reading :=
  [⟨.chain .designUnits .designUnit, f.units⟩]

def DesignNode.readings : DesignNode → List Reading
  | .designFile f => f.readings
  | .designUnit u => u.readings
  | .libraryUnit u => u.readings
  | .contextItem i => i.readings
  | .declaration d => d.readings
  | .expression e => e.readings

/-- The parts of a value, each with the question that it answers. A name is one text. -/
def Form.readings : (f : Form) → f.Value → List Reading
  | .designFile, f => f.readings
  | .designUnit, u => u.readings
  | .entity, u => LibraryUnit.readings (.entity u)
  | .architecture, u => LibraryUnit.readings (.architecture u)
  | .package, u => LibraryUnit.readings (.package u)
  | .packageBody, u => LibraryUnit.readings (.packageBody u)
  | .contextDeclaration, u => LibraryUnit.readings (.context u)
  | .configuration, u => LibraryUnit.readings (.configuration u)
  | .libraryClause, c => ContextItem.readings (.library c)
  | .useClause, c => c.readings
  | .contextReference, c => ContextItem.readings (.reference c)
  | .function, f => f.readings
  | .procedure, p => p.readings
  | .subprogramBody, b => declarationReadings b.declarations
  | .constantDecl, d => Declaration.readings (.constantDecl d)
  | .signalDecl, d => Declaration.readings (.signalDecl d)
  | .variableDecl, d => Declaration.readings (.variableDecl d)
  | .typeDecl, d => Declaration.readings (.typeDecl d)
  | .subtypeDecl, d => Declaration.readings (.subtypeDecl d)
  | .aliasDecl, d => Declaration.readings (.aliasDecl d)
  | .componentDecl, d => Declaration.readings (.componentDecl d)
  | .attributeDecl, d => Declaration.readings (.attributeDecl d)
  | .generic, i => objectReadings i.subtype i.defaultValue
  | .parameter, i => objectReadings i.subtype i.defaultValue
  | .port, i => objectReadings i.subtype i.defaultValue
  | .typeDefinition, d => d.readings
  | .range, r => [⟨.child .left .expression, r.left⟩, ⟨.child .right .expression, r.right⟩]
  | .recordElement, e => [⟨.child .subtypeIndication .subtype, e.subtype⟩]
  | .name, _ => []
  | .subtype, _ => []
  | .aggregateElement, e => e.readings
  | .argument, a => a.readings
  | .libraryUnit, u => u.readings
  | .contextItem, i => i.readings
  | .declaration, d => d.readings
  | .expression, e => e.readings
  | .anyNode, d => d.readings

/-! ### What a recipe can come to -/

namespace Recipe

variable {α β : Type} {A : (q : Question) → q.Answer → Prop} {P : α → Prop}

/-- Whatever the attributes of the node are, if every answer is one that `A` admits, the recipe
comes only to values of which `P` holds. -/
def Yields (A : (q : Question) → q.Answer → Prop) (P : α → Prop) : Recipe α → Prop
  | .done value => P value
  | .refuse _ => True
  | .look rest => ∀ a, (rest a).Yields A P
  | .touch field rest => A (.touch field) () → rest.Yields A P
  | .child field form rest => ∀ v, A (.child field form) v → (rest v).Yields A P
  | .optional field form rest => ∀ v, A (.optional field form) v → (rest v).Yields A P
  | .chain field form rest => ∀ v, A (.chain field form) v → (rest v).Yields A P
  | .label field read rest => ∀ v, A (.label field read) v → (rest v).Yields A P
  | .labels field read rest => ∀ v, A (.labels field read) v → (rest v).Yields A P

theorem yields_ask (p : Question) (rest : p.Answer → Recipe α) :
    (ask p rest).Yields A P ↔ ∀ v, A p v → (rest v).Yields A P := by
  cases p with
  | touch field => exact ⟨fun h _ => h, fun h => h ()⟩
  | child field form => exact Iff.rfl
  | optional field form => exact Iff.rfl
  | chain field form => exact Iff.rfl
  | label field read => exact Iff.rfl
  | labels field read => exact Iff.rfl

namespace Yields

theorem always {r : Recipe α} (h : ∀ v, P v) : r.Yields A P := by
  induction r using askInduction with
  | done value => exact h value
  | refuse cause => trivial
  | look rest ih => exact ih
  | ask p rest ih => exact (yields_ask p rest).mpr fun v _ => ih v

theorem imp {Q : α → Prop} {r : Recipe α} (h : r.Yields A P) (weaker : ∀ v, P v → Q v) :
    r.Yields A Q := by
  induction r using askInduction with
  | done value => exact weaker value h
  | refuse cause => trivial
  | look rest ih => exact fun a => ih a (h a)
  | ask p rest ih =>
    exact (yields_ask p rest).mpr fun v admitted => ih v ((yields_ask p rest).mp h v admitted)

theorem bind {r : Recipe β} {k : β → Recipe α} (h : r.Yields A fun v => (k v).Yields A P) :
    (r >>= k).Yields A P := by
  induction r using askInduction with
  | done value => exact h
  | refuse cause => trivial
  | look rest ih => exact fun a => ih a (h a)
  | ask p rest ih =>
    rw [ask_bind]
    exact (yields_ask p _).mpr fun v admitted => ih v ((yields_ask p rest).mp h v admitted)

theorem after {r : Recipe β} {k : β → Recipe α} (h : ∀ v, (k v).Yields A P) :
    (r >>= k).Yields A P := bind (always h)

theorem pure {v : α} (h : P v) : (pure v : Recipe α).Yields A P := h

theorem map {r : Recipe β} {f : β → α} (h : r.Yields A fun v => P (f v)) :
    (f <$> r).Yields A P := by
  rw [map_eq_pure_bind]
  exact bind h

theorem unsupported : (unsupported : Recipe α).Yields A P := fun _ => trivial

variable {field : Field} {form : Form}

theorem part {k : form.Value → Recipe α} (h : ∀ v, A (.child field form) v → (k v).Yields A P) :
    (part field form >>= k).Yields A P := h

theorem part? {k : Option form.Value → Recipe α}
    (h : ∀ v, A (.optional field form) v → (k v).Yields A P) :
    (part? field form >>= k).Yields A P := h

theorem parts {k : List form.Value → Recipe α}
    (h : ∀ vs, A (.chain field form) vs → (k vs).Yields A P) :
    (parts field form >>= k).Yields A P := h

end Yields

end Recipe

namespace Grammar

open Recipe

variable {A : (q : Question) → q.Answer → Prop}

/-! ### Every recipe reads the parts of its value -/

theorem literalOf_readings {a : Attributes} {e : Expression} (made : literalOf a = .ok e) :
    e.readings = [] := by
  unfold literalOf at made
  split at made
  · cases made
  · split at made <;> cases made <;> rfl

theorem literal_yields : literal.Yields A fun e => Admits A e.readings := by
  intro a
  dsimp only
  cases made : literalOf a with
  | error c => trivial
  | ok e =>
    change Admits A e.readings
    rw [literalOf_readings made]
    exact .nil

theorem expressionOf_yields (form : ExpressionForm) :
    (expressionOf form).Yields A fun e => Admits A e.readings := by
  cases form with
  | name => exact .map (.always fun _ => .nil)
  | literal => exact literal_yields
  | unary op => exact .part fun _ operand => .pure (.cons operand .nil)
  | binary op =>
    exact .part fun _ left => .part fun _ right => .pure (.cons left (.cons right .nil))
  | parenthesis => exact .part fun _ inner => .pure (.cons inner .nil)
  | aggregate => exact .parts fun _ elements => .pure (.cons elements .nil)
  | call =>
    exact .part fun _ called => .parts fun _ arguments =>
      .pure (.cons called (.cons arguments .nil))

theorem expression_yields : expression.Yields A fun e => Admits A e.readings := by
  refine .after fun a => ?_
  split
  · exact expressionOf_yields _
  · exact .unsupported

theorem aggregateElement_yields : aggregateElement.Yields A fun e => Admits A e.readings := by
  refine .after fun a => ?_
  split
  · exact .part fun _ value => .pure (.cons value .nil)
  · exact .part fun _ value => .pure (.cons value .nil)
  · exact .part fun _ choice => .part fun _ value =>
      .pure (.cons choice (.cons value .nil))
  · exact .unsupported

theorem argument_yields : argument.Yields A fun x => Admits A x.readings := by
  refine .after fun a => ?_
  split
  · exact .part fun _ actual => .pure (.cons actual .nil)
  · exact .part fun _ formal => .part fun _ actual => .pure (.cons formal (.cons actual .nil))
  · exact .unsupported

theorem range_yields : range.Yields A fun r => Admits A (Form.readings .range r) :=
  .after fun _ => .after fun _ => .part fun _ left => .part fun _ right =>
    .pure (.cons left (.cons right .nil))

theorem recordElement_yields :
    recordElement.Yields A fun e => Admits A (Form.readings .recordElement e) :=
  .after fun _ => .after fun _ => .part fun _ subtype => .pure (.cons subtype .nil)

theorem typeDefinition_yields : typeDefinition.Yields A fun d => Admits A d.readings := by
  refine .after fun a => ?_
  split
  · intro _ literals
    exact Admits.cons literals .nil
  · exact .part fun _ range => .pure (.cons range .nil)
  · exact .part fun _ range => .pure (.cons range .nil)
  · exact .parts fun _ indices => .part fun _ element =>
      .pure (.cons indices (.cons element .nil))
  · exact .parts fun _ elements => .pure (.cons elements .nil)
  · exact .part fun _ designated => .pure (.cons designated .nil)
  · exact .unsupported

theorem generic_yields : generic.Yields A fun i => Admits A (Form.readings .generic i) :=
  .after fun _ => .after fun _ => .part fun _ subtype => .part? fun _ value =>
    .pure (.cons subtype (.cons value .nil))

theorem parameter_yields : parameter.Yields A fun i => Admits A (Form.readings .parameter i) :=
  .after fun _ => .after fun _ => .after fun _ => .part fun _ subtype => .part? fun _ value =>
    .pure (.cons subtype (.cons value .nil))

theorem port_yields : port.Yields A fun i => Admits A (Form.readings .port i) :=
  .after fun _ => .after fun _ => .after fun _ => .part fun _ subtype => .part? fun _ value =>
    .pure (.cons subtype (.cons value .nil))

theorem function_yields : function.Yields A fun f => Admits A f.readings :=
  .after fun _ => .after fun _ => .after fun _ => .parts fun _ generics =>
    .parts fun _ parameters => .part fun _ returnType =>
      .pure (.cons generics (.cons parameters (.cons returnType .nil)))

theorem procedure_yields : procedure.Yields A fun p => Admits A p.readings :=
  .after fun _ => .after fun _ => .parts fun _ generics => .parts fun _ parameters =>
    .pure (.cons generics (.cons parameters .nil))

theorem bodyOf_yields (kind : SubprogramKind) :
    (bodyOf kind).Yields A fun b => Admits A (declarationReadings b.declarations) :=
  .after fun _ => .parts fun _ declarations => .after fun _ =>
    .pure (.cons declarations .nil)

theorem subprogramBody_yields :
    subprogramBody.Yields A fun b => Admits A (declarationReadings b.declarations) := by
  refine .after fun a => ?_
  split
  · exact bodyOf_yields .function
  · exact bodyOf_yields .procedure
  · exact .unsupported

theorem object_yields :
    object.Yields A fun d => Admits A (objectReadings d.subtype d.defaultValue) :=
  .after fun _ => .part fun _ subtype => .part? fun _ value =>
    .pure (.cons subtype (.cons value .nil))

theorem useClause_yields : useClause.Yields A fun c => Admits A c.readings :=
  .after fun _ => .parts fun _ names => .pure (.cons names .nil)

theorem constantDecl_yields :
    constantDecl.Yields A fun d => Admits A (Form.readings .constantDecl d) :=
  .after fun _ => object_yields

theorem signalDecl_yields : signalDecl.Yields A fun d => Admits A (Form.readings .signalDecl d) :=
  .after fun _ => object_yields

theorem variableDecl_yields :
    variableDecl.Yields A fun d => Admits A (Form.readings .variableDecl d) :=
  .after fun _ => .bind (object_yields.imp fun _ hd => .after fun _ => .pure hd)

theorem typeDecl_yields : typeDecl.Yields A fun d => Admits A (Form.readings .typeDecl d) :=
  .after fun _ => .after fun _ => .part fun _ definition =>
    .pure (.cons definition .nil)

theorem subtypeDecl_yields :
    subtypeDecl.Yields A fun d => Admits A (Form.readings .subtypeDecl d) :=
  .after fun _ => .after fun _ => .part fun _ subtype =>
    .pure (.cons subtype .nil)

theorem aliasDecl_yields : aliasDecl.Yields A fun d => Admits A (Form.readings .aliasDecl d) :=
  .after fun _ => .after fun _ => .part? fun _ subtype => .part fun _ target =>
    .pure (.cons subtype (.cons target .nil))

theorem componentDecl_yields :
    componentDecl.Yields A fun d => Admits A (Form.readings .componentDecl d) :=
  .after fun _ => .after fun _ => .parts fun _ generics => .parts fun _ ports =>
    .pure (.cons generics (.cons ports .nil))

theorem attributeDecl_yields :
    attributeDecl.Yields A fun d => Admits A (Form.readings .attributeDecl d) :=
  .after fun _ => .after fun _ => .part fun _ typeMark =>
    .pure (.cons typeMark .nil)

theorem declarationOf_yields (form : DeclarationForm) :
    (declarationOf form).Yields A fun d => Admits A d.readings := by
  cases form with
  | function => exact .map function_yields
  | procedure => exact .map procedure_yields
  | subprogramBody kind => exact .bind ((bodyOf_yields kind).imp fun _ hb => .pure hb)
  | constantDecl => exact .map constantDecl_yields
  | signalDecl => exact .map signalDecl_yields
  | variableDecl => exact .map variableDecl_yields
  | typeDecl => exact .map typeDecl_yields
  | subtypeDecl => exact .map subtypeDecl_yields
  | aliasDecl => exact .map aliasDecl_yields
  | componentDecl => exact .map componentDecl_yields
  | attributeDecl => exact .map attributeDecl_yields

theorem declaration_yields : declaration.Yields A fun d => Admits A d.readings := by
  refine .after fun a => ?_
  split
  · exact declarationOf_yields _
  · exact .map useClause_yields
  · exact .unsupported

theorem contextReference_yields :
    contextReference.Yields A fun c => Admits A (Form.readings .contextReference c) :=
  .after fun _ => .parts fun _ names => .pure (.cons names .nil)

theorem contextItemOf_yields (form : ClauseForm) :
    (contextItemOf form).Yields A fun i => Admits A i.readings := by
  cases form with
  | library => exact .map (.always fun _ => .nil)
  | useClause => exact .map useClause_yields
  | reference => exact .map contextReference_yields

theorem contextItem_yields : contextItem.Yields A fun i => Admits A i.readings := by
  refine .after fun a => ?_
  split
  · exact contextItemOf_yields _
  · exact .unsupported

theorem entity_yields : entity.Yields A fun u => Admits A (Form.readings .entity u) :=
  .after fun _ => .after fun _ => .parts fun _ generics => .parts fun _ ports =>
    .parts fun _ declarations => .after fun _ =>
      .pure (.cons generics (.cons ports (.cons declarations .nil)))

theorem architecture_yields :
    architecture.Yields A fun u => Admits A (Form.readings .architecture u) :=
  .after fun _ => .after fun _ => .part fun _ entity => .parts fun _ declarations =>
    .after fun _ => .pure (.cons entity (.cons declarations .nil))

theorem package_yields : package.Yields A fun u => Admits A (Form.readings .package u) :=
  .after fun _ => .after fun _ => .parts fun _ generics => .parts fun _ declarations =>
    .pure (.cons generics (.cons declarations .nil))

theorem packageBody_yields :
    packageBody.Yields A fun u => Admits A (Form.readings .packageBody u) :=
  .after fun _ => .after fun _ => .parts fun _ declarations =>
    .pure (.cons declarations .nil)

theorem contextDeclaration_yields :
    contextDeclaration.Yields A fun u => Admits A (Form.readings .contextDeclaration u) :=
  .after fun _ => .after fun _ => .parts fun _ items =>
    .pure (.cons items .nil)

theorem configuration_yields :
    configuration.Yields A fun u => Admits A (Form.readings .configuration u) :=
  .after fun _ => .after fun _ => .part fun _ entity =>
    .pure (.cons entity .nil)

theorem libraryUnitOf_yields (form : UnitForm) :
    (libraryUnitOf form).Yields A fun u => Admits A u.readings := by
  cases form with
  | entity => exact .map entity_yields
  | architecture => exact .map architecture_yields
  | package => exact .map package_yields
  | packageBody => exact .map packageBody_yields
  | context => exact .map contextDeclaration_yields
  | configuration => exact .map configuration_yields

theorem libraryUnit_yields : libraryUnit.Yields A fun u => Admits A u.readings := by
  refine .after fun a => ?_
  split
  · exact libraryUnitOf_yields _
  · exact .unsupported

theorem designUnit_yields : designUnit.Yields A fun u => Admits A u.readings :=
  .after fun _ => .parts fun _ context => .part fun _ unit =>
    .pure (.cons context (.cons unit .nil))

theorem designFile_yields : designFile.Yields A fun f => Admits A f.readings :=
  .after fun _ => .parts fun _ units => .pure (.cons units .nil)

theorem anyNode_yields : anyNode.Yields A fun d => Admits A d.readings := by
  refine .after fun a => ?_
  split
  · exact .map designFile_yields
  · exact .map designUnit_yields
  · exact .map (libraryUnitOf_yields _)
  · exact .map (contextItemOf_yields _)
  · exact .map (declarationOf_yields _)
  · exact .map (expressionOf_yields _)
  · exact .unsupported

theorem recipe_yields (f : Form) : (recipe f).Yields A fun v => Admits A (f.readings v) := by
  cases f with
  | designFile => exact designFile_yields
  | designUnit => exact designUnit_yields
  | entity => exact entity_yields
  | architecture => exact architecture_yields
  | package => exact package_yields
  | packageBody => exact packageBody_yields
  | contextDeclaration => exact contextDeclaration_yields
  | configuration => exact configuration_yields
  | libraryClause => exact .always fun _ => .nil
  | useClause => exact useClause_yields
  | contextReference => exact contextReference_yields
  | function => exact function_yields
  | procedure => exact procedure_yields
  | subprogramBody => exact subprogramBody_yields
  | constantDecl => exact constantDecl_yields
  | signalDecl => exact signalDecl_yields
  | variableDecl => exact variableDecl_yields
  | typeDecl => exact typeDecl_yields
  | subtypeDecl => exact subtypeDecl_yields
  | aliasDecl => exact aliasDecl_yields
  | componentDecl => exact componentDecl_yields
  | attributeDecl => exact attributeDecl_yields
  | generic => exact generic_yields
  | parameter => exact parameter_yields
  | port => exact port_yields
  | typeDefinition => exact typeDefinition_yields
  | range => exact range_yields
  | recordElement => exact recordElement_yields
  | name => exact .always fun _ => .nil
  | subtype => exact .always fun _ => .nil
  | aggregateElement => exact aggregateElement_yields
  | argument => exact argument_yields
  | libraryUnit => exact libraryUnit_yields
  | contextItem => exact contextItem_yields
  | declaration => exact declaration_yields
  | expression => exact expression_yields
  | anyNode => exact anyNode_yields

end Grammar

namespace Builder

variable {b : Builder} {n : NodeRef} {x : Node}
variable {enter : (f : Form) → NodeRef → Except Fault f.Value}

theorem carryOut_yields {α : Type} {P : α → Prop} {r : Recipe α} {v : α}
    (yields : r.Yields (fun q w => b.answer n x enter q = .ok w) P)
    (built : b.carryOut n x enter r = .ok v) : P v := by
  induction r using Recipe.askInduction with
  | done value =>
    cases built
    exact yields
  | refuse cause => cases built
  | look rest ih => exact ih x.toAttributes (yields x.toAttributes) built
  | ask q rest ih =>
    rw [carryOut_ask] at built
    obtain ⟨w, answered, built⟩ := bind_eq_ok built
    exact ih w ((Recipe.yields_ask q rest).mp yields w answered) built

/-- Every part of a value is the answer that its question got. -/
theorem answer_of_reading {f : Form} {v : f.Value}
    (built : b.carryOut n x enter (Grammar.recipe f) = .ok v) {r : Reading}
    (part : r ∈ f.readings v) : b.answer n x enter r.question = .ok r.answer :=
  carryOut_yields (Grammar.recipe_yields f) built r part

end Builder

end VhdlDesign
