import VhdlDesign.Proofs.Regularity

/-!
Every value has a node that would become it.

`Gives` runs a recipe backwards: at a node with the attributes `a`, it comes to the value when its
questions are answered, in order, by a list of readings. For every well-named value of every form
there are such attributes and such readings, and the readings take fewer nodes than the value does,
so that they can be found by induction.
-/
namespace VhdlDesign

/-! ### How many nodes a design takes -/

def Symbol.points (s : Symbol) : Nat := s.name.toList.count '.'

namespace Piece

mutual
/-- One node for every level, for every name and for every part of a symbol. -/
def nodes : Piece → Nat
  | .name _ => 1
  | .symbol s => s.points + 1
  | .level inside => nodesIn inside + 1
  | .sequence elements => nodesIn elements

def nodesIn : List Piece → Nat
  | [] => 0
  | p :: rest => p.nodes + nodesIn rest
end

theorem nodesIn_append (ps qs : List Piece) : nodesIn (ps ++ qs) = nodesIn ps + nodesIn qs := by
  induction ps with
  | nil => simp [nodesIn]
  | cons p ps ih =>
    simp only [List.cons_append, nodesIn, ih]
    omega

theorem mem_everything_self (p : Piece) : p ∈ p.everything := by
  cases p <;> simp [everything]

theorem mem_everything_of_contents {p q t : Piece} (inside : q ∈ p.contents)
    (member : t ∈ q.everything) : t ∈ p.everything := by
  cases p with
  | level ps =>
    have deep : t ∈ everythingIn ps := mem_everythingIn.mpr ⟨q, inside, member⟩
    simp [everything, deep]
  | name s => exact List.mem_singleton.mp inside ▸ member
  | symbol s => exact List.mem_singleton.mp inside ▸ member
  | sequence es => exact List.mem_singleton.mp inside ▸ member

namespace WellNamed

variable {p q : Piece}

theorem contents (named : p.WellNamed) (inside : q ∈ p.contents) : q.WellNamed :=
  ⟨fun s member => named.1 s (mem_everything_of_contents inside member),
    fun s member => named.2 s (mem_everything_of_contents inside member)⟩

theorem isIdentifier {s : String} (named : (Piece.name s).WellNamed) : IsIdentifier s :=
  named.1 s (mem_everything_self _)

theorem isDotted {s : Symbol} (named : (Piece.symbol s).WellNamed) : s.IsDotted :=
  named.2 s (mem_everything_self _)

theorem symbol {s : Symbol} (dotted : s.IsDotted) : (Piece.symbol s).WellNamed := by
  constructor <;> simp [everything, dotted]

theorem own {f : Form} {v : f.Value} (named : (f.anatomy v).WellNamed) {s : String}
    (member : .name s ∈ f.own v) : IsIdentifier s := by
  refine (named.contents (q := .name s) ?_).isIdentifier
  rw [Form.contents_eq]
  exact List.mem_append_left _ member

end WellNamed

end Piece

/-- The readings can be had for less than a part takes: each stands in a field of its own, what they
hold is well named, and they need fewer nodes. -/
structure Feeds (rs : List Reading) (p : Piece) : Prop where
  distinct : (rs.map fun r => r.question.field).Nodup
  named : ∀ r ∈ rs, ∀ q ∈ r.parts, q.WellNamed
  smaller : Piece.nodesIn (rs.flatMap Reading.parts) < p.nodes

theorem Feeds.mono {rs : List Reading} {p p' : Piece} (h : Feeds rs p) (more : p.nodes ≤ p'.nodes) :
    Feeds rs p' := ⟨h.distinct, h.named, Nat.lt_of_lt_of_le h.smaller more⟩

theorem Feeds.level {rs : List Reading} (own : List Piece) {inside : List Piece}
    (distinct : (rs.map fun r => r.question.field).Nodup)
    (split : inside = own ++ rs.flatMap Reading.parts) (named : (Piece.level inside).WellNamed) :
    Feeds rs (.level inside) := by
  refine ⟨distinct, ?_, ?_⟩
  · intro r hr q hq
    apply named.contents
    rw [Piece.contents, split]
    exact List.mem_append_right _ (List.mem_flatMap.mpr ⟨r, hr, hq⟩)
  · rw [Piece.nodes, split, Piece.nodesIn_append]
    omega

/-! ### Running a recipe backwards -/

namespace Recipe

variable {α β : Type} {a : Attributes} {rs rs' : List Reading} {v : α}

/-- At a node with the attributes `a`, the recipe comes to the value when the readings answer its
questions in order. Fields that are only touched are passed over. -/
def Gives (a : Attributes) : Recipe α → List Reading → α → Prop
  | .done value, rs, v => rs = [] ∧ value = v
  | .refuse _, _, _ => False
  | .look rest, rs, v => (rest a).Gives a rs v
  | .touch _ rest, rs, v => rest.Gives a rs v
  | .child field form rest, rs, v =>
    ∃ w rs', rs = ⟨.child field form, w⟩ :: rs' ∧ (rest w).Gives a rs' v
  | .optional field form rest, rs, v =>
    ∃ w rs', rs = ⟨.optional field form, w⟩ :: rs' ∧ (rest w).Gives a rs' v
  | .chain field form rest, rs, v =>
    ∃ w rs', rs = ⟨.chain field form, w⟩ :: rs' ∧ (rest w).Gives a rs' v
  | .label field read rest, rs, v =>
    ∃ w rs', rs = ⟨.label field read, w⟩ :: rs' ∧ (rest w).Gives a rs' v
  | .labels field read rest, rs, v =>
    ∃ w rs', rs = ⟨.labels field read, w⟩ :: rs' ∧ (rest w).Gives a rs' v

theorem gives_look {k : Attributes → Recipe α} :
    (attributes >>= k).Gives a rs v ↔ (k a).Gives a rs v := Iff.rfl

theorem gives_ask {q : Question} {rest : q.Answer → Recipe α} (given : (ask q rest).Gives a rs v) :
    (∃ field, q = .touch field ∧ ∀ w, (rest w).Gives a rs v) ∨
      ∃ w rs', rs = ⟨q, w⟩ :: rs' ∧ (rest w).Gives a rs' v := by
  cases q with
  | touch field => exact .inl ⟨field, rfl, fun _ => given⟩
  | child field form => exact .inr given
  | optional field form => exact .inr given
  | chain field form => exact .inr given
  | label field read => exact .inr given
  | labels field read => exact .inr given

namespace Gives

theorem pure : (pure v : Recipe α).Gives a [] v := ⟨rfl, rfl⟩

theorem bind {r : Recipe β} {k : β → Recipe α} {u : β} (first : r.Gives a rs u)
    (rest : (k u).Gives a rs' v) : (r >>= k).Gives a (rs ++ rs') v := by
  induction r generalizing rs with
  | done value =>
    obtain ⟨rfl, rfl⟩ := first
    exact rest
  | refuse cause => exact first.elim
  | look answered ih => exact ih a first
  | touch field answered ih => exact ih first
  | child field form answered ih =>
    obtain ⟨w, taken, rfl, first⟩ := first
    exact ⟨w, taken ++ rs', rfl, ih w first⟩
  | optional field form answered ih =>
    obtain ⟨w, taken, rfl, first⟩ := first
    exact ⟨w, taken ++ rs', rfl, ih w first⟩
  | chain field form answered ih =>
    obtain ⟨w, taken, rfl, first⟩ := first
    exact ⟨w, taken ++ rs', rfl, ih w first⟩
  | label field read answered ih =>
    obtain ⟨w, taken, rfl, first⟩ := first
    exact ⟨w, taken ++ rs', rfl, ih w first⟩
  | labels field read answered ih =>
    obtain ⟨w, taken, rfl, first⟩ := first
    exact ⟨w, taken ++ rs', rfl, ih w first⟩

theorem before {r : Recipe β} {k : β → Recipe α} {u : β} (first : r.Gives a rs u)
    (rest : (k u).Gives a [] v) : (r >>= k).Gives a rs v := by
  rw [← List.append_nil rs]
  exact bind first rest

theorem map {r : Recipe β} {u : β} (f : β → α) (h : r.Gives a rs u) :
    (f <$> r).Gives a rs (f u) := by
  rw [map_eq_pure_bind]
  exact before h pure

variable {field : Field} {form : Form} {k : Unit → Recipe α}

theorem look {k : Attributes → Recipe α} (h : (k a).Gives a rs v) :
    (attributes >>= k).Gives a rs v := gives_look.mpr h

theorem expect {kind : Kind} (same : a.kind = kind) (h : (k ()).Gives a rs v) :
    (expect kind >>= k).Gives a rs v := by
  change ((if a.kind = kind then .done () else .refuse _) >>= k : Recipe α).Gives a rs v
  rw [if_pos same]
  exact h

theorem named {k : String → Recipe α} {s : String} (spelled : a.name = some s)
    (valid : IsIdentifier s) (h : (k s).Gives a rs v) : (identifier >>= k).Gives a rs v := by
  have read : a.identifier = .ok s := Attributes.identifier_eq_ok.mpr ⟨spelled, valid⟩
  change (ofExcept a.identifier >>= k).Gives a rs v
  rw [read]
  exact h

theorem part {k : form.Value → Recipe α} {w : form.Value} (h : (k w).Gives a rs v) :
    (part field form >>= k).Gives a (⟨.child field form, w⟩ :: rs) v := ⟨w, rs, rfl, h⟩

theorem part? {k : Option form.Value → Recipe α} {w : Option form.Value}
    (h : (k w).Gives a rs v) :
    (part? field form >>= k).Gives a (⟨.optional field form, w⟩ :: rs) v := ⟨w, rs, rfl, h⟩

theorem parts {k : List form.Value → Recipe α} {ws : List form.Value} (h : (k ws).Gives a rs v) :
    (parts field form >>= k).Gives a (⟨.chain field form, ws⟩ :: rs) v := ⟨ws, rs, rfl, h⟩

theorem label {read : Attributes → Except Cause String} {k : String → Recipe α} {s : String}
    (h : (k s).Gives a rs v) :
    (Recipe.label field read .done >>= k).Gives a (⟨.label field read, s⟩ :: rs) v :=
  ⟨s, rs, rfl, h⟩

theorem skip (h : (k ()).Gives a rs v) : (skip field >>= k).Gives a rs v := h

theorem asked {r : Recipe α} {C : Cause → Prop} {Q : Question → Prop} (given : r.Gives a rs v)
    (kept : r.Keeps a C Q) : ∀ r ∈ rs, Q r.question := by
  induction r using askInduction generalizing rs with
  | done value =>
    obtain ⟨rfl, _⟩ := given
    simp
  | refuse cause => exact given.elim
  | look rest ih => exact ih a given kept
  | ask q rest ih =>
    obtain ⟨fits, kept⟩ := (keeps_ask q rest).mp kept
    rcases gives_ask given with ⟨field, rfl, later⟩ | ⟨w, taken, rfl, later⟩
    · exact ih () (later ()) (kept ())
    · exact List.forall_mem_cons.mpr ⟨fits, ih w later (kept w)⟩

end Gives

end Recipe

/-! ### The node of a value -/

def Attributes.of (kind : Kind) (name : String) : Attributes := { kind, name := some name }

def UnaryOperator.kind : UnaryOperator → Kind
  | .identity => .identityOperator
  | .negation => .negationOperator
  | .absolute => .absoluteOperator
  | .not => .notOperator

def BinaryOperator.kind : BinaryOperator → Kind
  | .and => .andOperator
  | .or => .orOperator
  | .nand => .nandOperator
  | .nor => .norOperator
  | .xor => .xorOperator
  | .xnor => .xnorOperator
  | .equal => .equalityOperator
  | .notEqual => .inequalityOperator
  | .less => .lessThanOperator
  | .lessEqual => .lessThanOrEqualOperator
  | .greater => .greaterThanOperator
  | .greaterEqual => .greaterThanOrEqualOperator
  | .sll => .sllOperator
  | .srl => .srlOperator
  | .sla => .slaOperator
  | .sra => .sraOperator
  | .rol => .rolOperator
  | .ror => .rorOperator
  | .add => .additionOperator
  | .subtract => .subtractionOperator
  | .concatenate => .concatenationOperator
  | .multiply => .multiplicationOperator
  | .divide => .divisionOperator
  | .modulus => .modulusOperator
  | .remainder => .remainderOperator
  | .exponentiate => .exponentiationOperator

theorem UnaryOperator.construction_kind (op : UnaryOperator) :
    op.kind.construction = some (.expression (.unary op)) := by
  cases op <;> rfl

theorem BinaryOperator.construction_kind (op : BinaryOperator) :
    op.kind.construction = some (.expression (.binary op)) := by
  cases op <;> rfl

def ParameterClass.kind : ParameterClass → Kind
  | .const => .interfaceConstantDeclaration
  | .var => .interfaceVariableDeclaration
  | .signal => .interfaceSignalDeclaration
  | .file => .interfaceFileDeclaration

def SubprogramKind.bodyKind : SubprogramKind → Kind
  | .function => .functionBody
  | .procedure => .procedureBody

namespace Grammar

open Recipe Piece

variable {a : Attributes} {rs : List Reading}

/-! #### Names and expressions -/

theorem points_lt (qualifier : Symbol) (part : String) :
    qualifier.points < Symbol.points ⟨qualifier.name ++ "." ++ part⟩ := by
  simp [Symbol.points]

theorem name_gives {s : Symbol} (dotted : s.IsDotted) :
    ∃ a rs, (a.kind = .simpleName ∨ a.kind = .selectedName) ∧ name.Gives a rs s ∧
      Feeds rs (.symbol s) := by
  rcases dotted.cases with valid | ⟨qualifier, part, shorter, valid, rfl⟩
  · refine ⟨.of .simpleName s.name, [], .inl rfl, .named rfl valid .pure, ?_⟩
    exact ⟨.nil, by simp, by simp [nodesIn, nodes]⟩
  -- a point is cut off at the end, so that the qualifier has one point less
  · refine ⟨.of .selectedName part, [⟨.child .qualifier .name, qualifier⟩], .inr rfl,
      .part (.named rfl valid .pure), ?_⟩
    refine ⟨by simp, ?_, ?_⟩
    · intro r hr p hp
      rw [List.mem_singleton.mp hr] at hp
      rw [List.mem_singleton.mp hp]
      exact .symbol shorter
    · have fewer := points_lt qualifier part
      change qualifier.points + 1 + 0 < Symbol.points _ + 1
      omega

theorem subtype_gives {s : Symbol} (dotted : s.IsDotted) :
    ∃ a rs, subtype.Gives a rs s ∧ Feeds rs (.symbol s) := by
  obtain ⟨a, rs, kind, given, feeds⟩ := name_gives dotted
  refine ⟨a, rs, ?_, feeds⟩
  apply Gives.look
  rcases kind with kind | kind
  · rw [kind]
    exact given
  · rw [kind]
    exact given

theorem expressionOf_gives {e : Expression} (direct : e.own = []) :
    ∃ a form, a.kind.construction = some (.expression form) ∧
      (expressionOf form).Gives a e.readings e := by
  cases e with
  | integer value =>
    exact ⟨{ kind := .integerLiteral, literal := some (.integer value) }, .literal, rfl, rfl, rfl⟩
  | real value =>
    exact ⟨{ kind := .floatingPointLiteral, literal := some (.real value) }, .literal, rfl, rfl,
      rfl⟩
  | character value =>
    exact ⟨{ kind := .characterLiteral, literal := some (.character value) }, .literal, rfl, rfl,
      rfl⟩
  | string value =>
    exact ⟨{ kind := .stringLiteral, literal := some (.string value) }, .literal, rfl, rfl, rfl⟩
  | name symbol => cases direct
  | unary op operand =>
    exact ⟨{ kind := op.kind }, .unary op, op.construction_kind, .part .pure⟩
  | binary op left right =>
    exact ⟨{ kind := op.kind }, .binary op, op.construction_kind, .part (.part .pure)⟩
  | parenthesis inner => exact ⟨{ kind := .parenthesis }, .parenthesis, rfl, .part .pure⟩
  | aggregate elements => exact ⟨{ kind := .aggregate }, .aggregate, rfl, .parts .pure⟩
  | call called arguments =>
    exact ⟨{ kind := .functionCall }, .call, rfl, .part (.parts .pure)⟩

theorem aggregateElement_gives (e : AggregateElement) :
    ∃ a, aggregateElement.Gives a e.readings e := by
  cases e with
  | positional value => exact ⟨{ kind := .choiceByNone }, .look (.part .pure)⟩
  | chosen choice value => exact ⟨{ kind := .choiceByExpression }, .look (.part (.part .pure))⟩
  | others value => exact ⟨{ kind := .choiceByOthers }, .look (.part .pure)⟩

theorem argument_gives (x : Argument) : ∃ a, argument.Gives a x.readings x := by
  cases x with
  | positional actual => exact ⟨{ kind := .associationElementPositional }, .look (.part .pure)⟩
  | named formal actual =>
    exact ⟨{ kind := .associationElementByExpression }, .look (.part (.part .pure))⟩

theorem range_gives (r : Range) : ∃ a, range.Gives a (Form.readings .range r) r :=
  ⟨{ kind := .rangeExpression, direction := some r.direction }, .expect rfl (.part (.part .pure))⟩

/-! #### Types and interfaces -/

theorem recordElement_gives {e : RecordElement} (valid : IsIdentifier e.name) :
    recordElement.Gives (.of .elementDeclaration e.name) (Form.readings .recordElement e) e :=
  .expect rfl (.named rfl valid (.part .pure))

theorem typeDefinition_gives (d : TypeDefinition) :
    ∃ a, typeDefinition.Gives a d.readings d := by
  cases d with
  | enumeration literals =>
    exact ⟨{ kind := .enumerationTypeDefinition }, .look ⟨literals, [], rfl, .pure⟩⟩
  | integer range => exact ⟨{ kind := .integerTypeDefinition }, .look (.part .pure)⟩
  | floating range => exact ⟨{ kind := .floatingTypeDefinition }, .look (.part .pure)⟩
  | array indices element =>
    exact ⟨{ kind := .arrayTypeDefinition }, .look (.parts (.part .pure))⟩
  | record elements => exact ⟨{ kind := .recordTypeDefinition }, .look (.parts .pure)⟩
  | access designated => exact ⟨{ kind := .accessTypeDefinition }, .look (.part .pure)⟩

theorem generic_gives {i : GenericItem} (valid : IsIdentifier i.name) :
    generic.Gives (.of .interfaceConstantDeclaration i.name) (Form.readings .generic i) i :=
  .expect rfl (.named rfl valid (.part (.part? .pure)))

theorem parameter_gives {i : ParameterItem} (valid : IsIdentifier i.name) :
    parameter.Gives { kind := i.objectClass.kind, name := some i.name, mode := some i.mode }
      (Form.readings .parameter i) i := by
  obtain ⟨objectClass, name, mode, subtype, defaultValue⟩ := i
  cases objectClass <;> exact Gives.named rfl valid (.part (.part? .pure))

theorem port_gives {i : PortItem} (valid : IsIdentifier i.name) :
    port.Gives { kind := .interfaceSignalDeclaration, name := some i.name, mode := some i.mode }
      (Form.readings .port i) i :=
  .expect rfl (.named rfl valid (.part (.part? .pure)))

/-! #### Declarations -/

theorem function_gives {f : Function} (valid : IsIdentifier f.name) :
    function.Gives { kind := .functionDeclaration, name := some f.name,
                     flags := if f.isPure then [] else [.impure] } f.readings f := by
  obtain ⟨name, isPure, generics, parameters, returnType⟩ := f
  cases isPure <;> exact .expect rfl (.named rfl valid (.look (.parts (.parts (.part .pure)))))

theorem procedure_gives {p : Procedure} (valid : IsIdentifier p.name) :
    procedure.Gives (.of .procedureDeclaration p.name) p.readings p :=
  .expect rfl (.named rfl valid (.parts (.parts .pure)))

def bodyReadings (b : SubprogramBody) : List Reading :=
  ⟨.label .subprogramSpecification (specification b.kind), b.name⟩ ::
    declarationReadings b.declarations

theorem bodyOf_gives (b : SubprogramBody) : (bodyOf b.kind).Gives a (bodyReadings b) b :=
  .label (.parts (.skip .pure))

theorem subprogramBody_gives (b : SubprogramBody) :
    subprogramBody.Gives { kind := b.kind.bodyKind } (bodyReadings b) b := by
  obtain ⟨kind, name, declarations⟩ := b
  cases kind <;> exact .look (bodyOf_gives _)

theorem object_gives {d : ObjectDeclaration} (spelled : a.name = some d.name)
    (valid : IsIdentifier d.name) :
    object.Gives a (objectReadings d.subtype d.defaultValue) d :=
  .named spelled valid (.part (.part? .pure))

theorem constantDecl_gives {d : ObjectDeclaration} (valid : IsIdentifier d.name) :
    constantDecl.Gives (.of .constantDeclaration d.name) (Form.readings .constantDecl d) d :=
  .expect rfl (object_gives rfl valid)

theorem signalDecl_gives {d : ObjectDeclaration} (valid : IsIdentifier d.name) :
    signalDecl.Gives (.of .signalDeclaration d.name) (Form.readings .signalDecl d) d :=
  .expect rfl (object_gives rfl valid)

theorem variableDecl_gives {d : VariableDeclaration} (valid : IsIdentifier d.name) :
    variableDecl.Gives { kind := .variableDeclaration, name := some d.name,
                         flags := if d.shared then [.shared] else [] }
      (Form.readings .variableDecl d) d := by
  obtain ⟨declared, shared⟩ := d
  cases shared <;> exact .expect rfl (.before (object_gives rfl valid) (.look .pure))

theorem typeDecl_gives {d : TypeDeclaration} (valid : IsIdentifier d.name) :
    typeDecl.Gives (.of .typeDeclaration d.name) (Form.readings .typeDecl d) d :=
  .expect rfl (.named rfl valid (.part .pure))

theorem subtypeDecl_gives {d : SubtypeDeclaration} (valid : IsIdentifier d.name) :
    subtypeDecl.Gives (.of .subtypeDeclaration d.name) (Form.readings .subtypeDecl d) d :=
  .expect rfl (.named rfl valid (.part .pure))

theorem aliasDecl_gives {d : AliasDeclaration} (valid : IsIdentifier d.name) :
    aliasDecl.Gives (.of .aliasDeclaration d.name) (Form.readings .aliasDecl d) d :=
  .expect rfl (.named rfl valid (.part? (.part .pure)))

theorem componentDecl_gives {d : ComponentDeclaration} (valid : IsIdentifier d.name) :
    componentDecl.Gives (.of .componentDeclaration d.name) (Form.readings .componentDecl d) d :=
  .expect rfl (.named rfl valid (.parts (.parts .pure)))

theorem attributeDecl_gives {d : AttributeDeclaration} (valid : IsIdentifier d.name) :
    attributeDecl.Gives (.of .attributeDeclaration d.name) (Form.readings .attributeDecl d) d :=
  .expect rfl (.named rfl valid (.part .pure))

theorem useClause_gives (c : UseClause) :
    useClause.Gives { kind := .useClause } c.readings c :=
  .expect rfl (.parts .pure)

/-! #### Units -/

theorem libraryClause_gives {c : LibraryClause} (valid : IsIdentifier c.name) :
    libraryClause.Gives (.of .libraryClause c.name) [] c :=
  .expect rfl (.named rfl valid .pure)

theorem contextReference_gives (c : ContextReference) :
    contextReference.Gives { kind := .contextReference } (Form.readings .contextReference c) c :=
  .expect rfl (.parts .pure)

theorem contextItemOf_gives {i : ContextItem} (named : (Form.anatomy .contextItem i).WellNamed) :
    ∃ a form, a.kind.construction = some (.contextItem form) ∧
      (contextItemOf form).Gives a i.readings i := by
  cases i with
  | library c =>
    have valid : IsIdentifier c.name := named.own (f := .contextItem) (List.mem_singleton_self _)
    exact ⟨_, .library, rfl, .map _ (libraryClause_gives valid)⟩
  | useClause c => exact ⟨_, .useClause, rfl, .map _ (useClause_gives c)⟩
  | reference c => exact ⟨_, .reference, rfl, .map _ (contextReference_gives c)⟩

theorem entity_gives {u : Entity} (valid : IsIdentifier u.name) :
    entity.Gives (.of .entityDeclaration u.name) (Form.readings .entity u) u :=
  .expect rfl (.named rfl valid (.parts (.parts (.parts (.skip .pure)))))

theorem architecture_gives {u : Architecture} (valid : IsIdentifier u.name) :
    architecture.Gives (.of .architectureBody u.name) (Form.readings .architecture u) u :=
  .expect rfl (.named rfl valid (.part (.parts (.skip .pure))))

theorem package_gives {u : Package} (valid : IsIdentifier u.name) :
    package.Gives (.of .packageDeclaration u.name) (Form.readings .package u) u :=
  .expect rfl (.named rfl valid (.parts (.parts .pure)))

theorem packageBody_gives {u : PackageBody} (valid : IsIdentifier u.name) :
    packageBody.Gives (.of .packageBody u.name) (Form.readings .packageBody u) u :=
  .expect rfl (.named rfl valid (.parts .pure))

theorem contextDeclaration_gives {u : ContextDeclaration} (valid : IsIdentifier u.name) :
    contextDeclaration.Gives (.of .contextDeclaration u.name)
      (Form.readings .contextDeclaration u) u :=
  .expect rfl (.named rfl valid (.parts .pure))

theorem configuration_gives {u : Configuration} (valid : IsIdentifier u.name) :
    configuration.Gives (.of .configurationDeclaration u.name) (Form.readings .configuration u) u :=
  .expect rfl (.named rfl valid (.part .pure))

theorem libraryUnitOf_gives {u : LibraryUnit} (valid : IsIdentifier u.name) :
    ∃ a form, a.kind.construction = some (.libraryUnit form) ∧
      (libraryUnitOf form).Gives a u.readings u := by
  cases u with
  | entity u => exact ⟨_, .entity, rfl, .map _ (entity_gives valid)⟩
  | architecture u => exact ⟨_, .architecture, rfl, .map _ (architecture_gives valid)⟩
  | package u => exact ⟨_, .package, rfl, .map _ (package_gives valid)⟩
  | packageBody u => exact ⟨_, .packageBody, rfl, .map _ (packageBody_gives valid)⟩
  | context u => exact ⟨_, .context, rfl, .map _ (contextDeclaration_gives valid)⟩
  | configuration u => exact ⟨_, .configuration, rfl, .map _ (configuration_gives valid)⟩

theorem designUnit_gives (u : DesignUnit) :
    designUnit.Gives { kind := .designUnit } u.readings u :=
  .expect rfl (.parts (.part .pure))

theorem designFile_gives (f : DesignFile) :
    designFile.Gives { kind := .designFile } f.readings f :=
  .expect rfl (.parts .pure)

end Grammar

/-! ### Every form -/

theorem Form.readings_distinct (f : Form) (v : f.Value) :
    ((f.readings v).map fun r => r.question.field).Nodup := by
  have unit : ∀ u : LibraryUnit, (u.readings.map fun r => r.question.field).Nodup := by
    intro u
    cases u <;> simp [LibraryUnit.readings, declarationReadings, Question.field]
  have item : ∀ i : ContextItem, (i.readings.map fun r => r.question.field).Nodup := by
    intro i
    cases i <;> simp [ContextItem.readings, UseClause.readings]
  have declaration : ∀ d : Declaration, (d.readings.map fun r => r.question.field).Nodup := by
    intro d
    cases d <;> simp [Declaration.readings, Function.readings, Procedure.readings,
      declarationReadings, objectReadings, UseClause.readings, Question.field]
  have expression : ∀ e : Expression, (e.readings.map fun r => r.question.field).Nodup := by
    intro e
    cases e <;> simp [Expression.readings, Question.field]
  cases f with
  | libraryUnit => exact unit v
  | contextItem => exact item v
  | declaration => exact declaration v
  | expression => exact expression v
  | typeDefinition => cases v <;> simp [readings, TypeDefinition.readings, Question.field]
  | aggregateElement => cases v <;> simp [readings, AggregateElement.readings, Question.field]
  | argument => cases v <;> simp [readings, Argument.readings, Question.field]
  | anyNode =>
    cases v with
    | designFile f => simp [readings, DesignNode.readings, DesignFile.readings]
    | designUnit u => simp [readings, DesignNode.readings, DesignUnit.readings, Question.field]
    | libraryUnit u => exact unit u
    | contextItem i => exact item i
    | declaration d => exact declaration d
    | expression e => exact expression e
  | entity => exact unit (.entity v)
  | architecture => exact unit (.architecture v)
  | package => exact unit (.package v)
  | packageBody => exact unit (.packageBody v)
  | contextDeclaration => exact unit (.context v)
  | configuration => exact unit (.configuration v)
  | libraryClause => exact item (.library v)
  | useClause => exact item (.useClause v)
  | contextReference => exact item (.reference v)
  | function => exact declaration (.function v)
  | procedure => exact declaration (.procedure v)
  | subprogramBody => exact declaration (.subprogramBody v.kind v.name v.declarations)
  | constantDecl => exact declaration (.constantDecl v)
  | signalDecl => exact declaration (.signalDecl v)
  | variableDecl => exact declaration (.variableDecl v)
  | typeDecl => exact declaration (.typeDecl v)
  | subtypeDecl => exact declaration (.subtypeDecl v)
  | aliasDecl => exact declaration (.aliasDecl v)
  | componentDecl => exact declaration (.componentDecl v)
  | attributeDecl => exact declaration (.attributeDecl v)
  | designFile => simp [readings, DesignFile.readings]
  | designUnit => simp [readings, DesignUnit.readings, Question.field]
  | generic | parameter | port => simp [readings, objectReadings, Question.field]
  | range => simp [readings, Question.field]
  | recordElement => simp [readings]
  | name | subtype => simp [readings]

theorem Expression.anatomy_level (e : Expression) : ∃ inside, e.anatomy = .level inside := by
  cases e <;> simp [anatomy]

theorem AggregateElement.anatomy_level (e : AggregateElement) :
    ∃ inside, e.anatomy = .level inside := by
  cases e <;> simp [anatomy]

theorem Argument.anatomy_level (x : Argument) : ∃ inside, x.anatomy = .level inside := by
  cases x <;> simp [anatomy]

theorem TypeDefinition.anatomy_level (d : TypeDefinition) :
    ∃ inside, d.anatomy = .level inside := by
  cases d <;> exact ⟨_, rfl⟩

theorem ContextItem.anatomy_level (i : ContextItem) : ∃ inside, i.anatomy = .level inside := by
  cases i <;> exact ⟨_, rfl⟩

theorem LibraryUnit.anatomy_level (u : LibraryUnit) : ∃ inside, u.anatomy = .level inside := by
  cases u <;> exact ⟨_, rfl⟩

theorem Declaration.anatomy_level (d : Declaration) : ∃ inside, d.anatomy = .level inside := by
  cases d <;> simp [anatomy, objectAnatomy, UseClause.anatomy]

theorem Form.readings_feed {f : Form} {v : f.Value} {inside : List Piece}
    (named : (f.anatomy v).WellNamed) (level : f.anatomy v = .level inside) :
    Feeds (f.readings v) (f.anatomy v) := by
  have split := f.contents_eq v
  rw [level] at split named ⊢
  exact .level (f.own v) (f.readings_distinct v) split named

namespace Grammar

open Recipe Piece

theorem bodyReadings_feed {b : SubprogramBody}
    (named : (Declaration.anatomy (.subprogramBody b.kind b.name b.declarations)).WellNamed) :
    Feeds (bodyReadings b)
      (Declaration.anatomy (.subprogramBody b.kind b.name b.declarations)) := by
  simp only [Declaration.anatomy, declarationAnatomies_eq] at named ⊢
  refine .level [] ?_ rfl named
  simp [bodyReadings, declarationReadings, Question.field]

theorem expression_placed {a : Attributes} (form : ExpressionForm) {rs : List Reading}
    {e : Expression} (given : (expressionOf form).Gives a rs e)
    (built : a.kind.construction = some (.expression form)) : expression.Gives a rs e := by
  apply Gives.look
  rw [built]
  exact given

theorem expression_gives {e : Expression} (named : e.anatomy.WellNamed) :
    ∃ a rs, expression.Gives a rs e ∧ Feeds rs e.anatomy := by
  have shape : e.own = [] ∨ ∃ s, e = .name s := by
    cases e <;> simp [Expression.own]
  rcases shape with direct | ⟨s, rfl⟩
  · obtain ⟨a, form, built, given⟩ := expressionOf_gives direct
    obtain ⟨inside, level⟩ := e.anatomy_level
    have feeds := Form.readings_feed (f := .expression) named level
    exact ⟨a, _, expression_placed form given built, feeds⟩
  · have dotted : s.IsDotted := by
      apply (named.contents (q := .symbol s) _).isDotted
      simp [Expression.anatomy, Piece.contents]
    obtain ⟨a, rs, kind, given, feeds⟩ := name_gives dotted
    have built : a.kind.construction = some (.expression .name) := by
      rcases kind with kind | kind <;> rw [kind] <;> rfl
    refine ⟨a, rs, expression_placed .name (.map _ given) built, feeds.mono ?_⟩
    simp [Expression.anatomy, nodes, nodesIn]

theorem declaration_placed {a : Attributes} (form : DeclarationForm) {rs : List Reading}
    {d : Declaration} (given : (declarationOf form).Gives a rs d)
    (built : a.kind.construction = some (.declaration form)) : declaration.Gives a rs d := by
  apply Gives.look
  rw [built]
  exact given

theorem declaration_gives {d : Declaration} (named : d.anatomy.WellNamed) :
    ∃ a rs, declaration.Gives a rs d ∧ Feeds rs d.anatomy := by
  have valid : ∀ s, d.name? = some s → IsIdentifier s := by
    intro s declared
    apply named.own (f := .declaration) (v := d)
    simp [Form.own, Declaration.own, declared]
  obtain ⟨inside, level⟩ := d.anatomy_level
  have feeds := Form.readings_feed (f := .declaration) named level
  cases d with
  | function f =>
    have given := function_gives (valid f.name rfl)
    exact ⟨_, _, declaration_placed .function (.map _ given) rfl, feeds⟩
  | procedure p =>
    have given := procedure_gives (valid p.name rfl)
    exact ⟨_, _, declaration_placed .procedure (.map _ given) rfl, feeds⟩
  | subprogramBody kind name declarations =>
    refine ⟨{ kind := kind.bodyKind }, bodyReadings ⟨kind, name, declarations⟩, ?_,
      bodyReadings_feed (b := ⟨kind, name, declarations⟩) named⟩
    refine declaration_placed (.subprogramBody kind) (.before (bodyOf_gives _) .pure) ?_
    cases kind <;> rfl
  | constantDecl d =>
    have given := constantDecl_gives (valid d.name rfl)
    exact ⟨_, _, declaration_placed .constantDecl (.map _ given) rfl, feeds⟩
  | signalDecl d =>
    have given := signalDecl_gives (valid d.name rfl)
    exact ⟨_, _, declaration_placed .signalDecl (.map _ given) rfl, feeds⟩
  | variableDecl d =>
    have given := variableDecl_gives (valid d.name rfl)
    exact ⟨_, _, declaration_placed .variableDecl (.map _ given) rfl, feeds⟩
  | typeDecl d =>
    have given := typeDecl_gives (valid d.name rfl)
    exact ⟨_, _, declaration_placed .typeDecl (.map _ given) rfl, feeds⟩
  | subtypeDecl d =>
    have given := subtypeDecl_gives (valid d.name rfl)
    exact ⟨_, _, declaration_placed .subtypeDecl (.map _ given) rfl, feeds⟩
  | aliasDecl d =>
    have given := aliasDecl_gives (valid d.name rfl)
    exact ⟨_, _, declaration_placed .aliasDecl (.map _ given) rfl, feeds⟩
  | componentDecl d =>
    have given := componentDecl_gives (valid d.name rfl)
    exact ⟨_, _, declaration_placed .componentDecl (.map _ given) rfl, feeds⟩
  | attributeDecl d =>
    have given := attributeDecl_gives (valid d.name rfl)
    exact ⟨_, _, declaration_placed .attributeDecl (.map _ given) rfl, feeds⟩
  | useClause c =>
    have given : (Declaration.useClause <$> useClause).Gives { kind := .useClause } c.readings
        (.useClause c) := .map _ (useClause_gives c)
    exact ⟨{ kind := .useClause }, _, given, feeds⟩

theorem contextItem_gives {i : ContextItem} (named : i.anatomy.WellNamed) :
    ∃ a, contextItem.Gives a i.readings i := by
  obtain ⟨a, form, built, given⟩ := contextItemOf_gives named
  refine ⟨a, Gives.look ?_⟩
  rw [built]
  exact given

theorem libraryUnit_gives {u : LibraryUnit} (valid : IsIdentifier u.name) :
    ∃ a, libraryUnit.Gives a u.readings u := by
  obtain ⟨a, form, built, given⟩ := libraryUnitOf_gives valid
  refine ⟨a, Gives.look ?_⟩
  rw [built]
  exact given

/-- Every well-named value is what its form makes of some node, and less is needed for the edges of
that node than for the value. A use clause by itself is a context item and never a declaration,
which is why `anyNode` is left out. -/
theorem recipe_gives {f : Form} (placed : f ≠ .anyNode) {v : f.Value}
    (named : (f.anatomy v).WellNamed) :
    ∃ a rs, (recipe f).Gives a rs v ∧ Feeds rs (f.anatomy v) := by
  have valid : ∀ s, [.name s] = f.own v → IsIdentifier s := by
    intro s same
    apply named.own
    rw [← same]
    exact List.mem_singleton_self _
  cases f with
  | designFile => exact ⟨_, _, designFile_gives v, Form.readings_feed named rfl⟩
  | designUnit => exact ⟨_, _, designUnit_gives v, Form.readings_feed named rfl⟩
  | useClause => exact ⟨_, _, useClause_gives v, Form.readings_feed named rfl⟩
  | contextReference => exact ⟨_, _, contextReference_gives v, Form.readings_feed named rfl⟩
  | entity => exact ⟨_, _, entity_gives (valid v.name rfl), Form.readings_feed named rfl⟩
  | architecture =>
    exact ⟨_, _, architecture_gives (valid v.name rfl), Form.readings_feed named rfl⟩
  | package => exact ⟨_, _, package_gives (valid v.name rfl), Form.readings_feed named rfl⟩
  | packageBody => exact ⟨_, _, packageBody_gives (valid v.name rfl), Form.readings_feed named rfl⟩
  | contextDeclaration =>
    exact ⟨_, _, contextDeclaration_gives (valid v.name rfl), Form.readings_feed named rfl⟩
  | configuration =>
    exact ⟨_, _, configuration_gives (valid v.name rfl), Form.readings_feed named rfl⟩
  | libraryClause =>
    exact ⟨_, _, libraryClause_gives (valid v.name rfl), Form.readings_feed named rfl⟩
  | function => exact ⟨_, _, function_gives (valid v.name rfl), Form.readings_feed named rfl⟩
  | procedure => exact ⟨_, _, procedure_gives (valid v.name rfl), Form.readings_feed named rfl⟩
  | constantDecl =>
    exact ⟨_, _, constantDecl_gives (valid v.name rfl), Form.readings_feed named rfl⟩
  | signalDecl => exact ⟨_, _, signalDecl_gives (valid v.name rfl), Form.readings_feed named rfl⟩
  | variableDecl =>
    exact ⟨_, _, variableDecl_gives (valid v.name rfl), Form.readings_feed named rfl⟩
  | typeDecl => exact ⟨_, _, typeDecl_gives (valid v.name rfl), Form.readings_feed named rfl⟩
  | subtypeDecl => exact ⟨_, _, subtypeDecl_gives (valid v.name rfl), Form.readings_feed named rfl⟩
  | aliasDecl => exact ⟨_, _, aliasDecl_gives (valid v.name rfl), Form.readings_feed named rfl⟩
  | componentDecl =>
    exact ⟨_, _, componentDecl_gives (valid v.name rfl), Form.readings_feed named rfl⟩
  | attributeDecl =>
    exact ⟨_, _, attributeDecl_gives (valid v.name rfl), Form.readings_feed named rfl⟩
  | generic => exact ⟨_, _, generic_gives (valid v.name rfl), Form.readings_feed named rfl⟩
  | parameter => exact ⟨_, _, parameter_gives (valid v.name rfl), Form.readings_feed named rfl⟩
  | port => exact ⟨_, _, port_gives (valid v.name rfl), Form.readings_feed named rfl⟩
  | recordElement =>
    exact ⟨_, _, recordElement_gives (valid v.name rfl), Form.readings_feed named rfl⟩
  | subprogramBody => exact ⟨_, _, subprogramBody_gives v, bodyReadings_feed named⟩
  | typeDefinition =>
    obtain ⟨a, given⟩ := typeDefinition_gives v
    obtain ⟨inside, level⟩ := TypeDefinition.anatomy_level v
    exact ⟨a, _, given, Form.readings_feed named level⟩
  | range =>
    obtain ⟨a, given⟩ := range_gives v
    exact ⟨a, _, given, Form.readings_feed named rfl⟩
  | name =>
    obtain ⟨a, rs, _, given, feeds⟩ := name_gives named.isDotted
    exact ⟨a, rs, given, feeds⟩
  | subtype => exact subtype_gives named.isDotted
  | aggregateElement =>
    obtain ⟨a, given⟩ := aggregateElement_gives v
    obtain ⟨inside, level⟩ := AggregateElement.anatomy_level v
    exact ⟨a, _, given, Form.readings_feed named level⟩
  | argument =>
    obtain ⟨a, given⟩ := argument_gives v
    obtain ⟨inside, level⟩ := Argument.anatomy_level v
    exact ⟨a, _, given, Form.readings_feed named level⟩
  | libraryUnit =>
    obtain ⟨a, given⟩ := libraryUnit_gives (valid _ rfl)
    obtain ⟨inside, level⟩ := LibraryUnit.anatomy_level v
    exact ⟨a, _, given, Form.readings_feed named level⟩
  | contextItem =>
    obtain ⟨a, given⟩ := contextItem_gives named
    obtain ⟨inside, level⟩ := ContextItem.anatomy_level v
    exact ⟨a, _, given, Form.readings_feed named level⟩
  | declaration => exact declaration_gives named
  | expression => exact expression_gives named
  | anyNode => exact absurd rfl placed

end Grammar

end VhdlDesign
