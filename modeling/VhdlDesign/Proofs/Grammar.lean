import VhdlDesign.Proofs.Question

/-!
What the grammar asks of a node depends on the kind of the node alone.

A node can be asked for in several forms: a use clause stands in a context and among declarations, a
constant of an interface is a generic or a parameter. `Kind.questions` lists what is asked of a node
of each kind, and every recipe that does not refuse a node asks exactly that.
-/
namespace VhdlDesign

/-- The questions that have to be answered before a node of a kind becomes anything. -/
def Kind.questions (k : Kind) : List Question :=
  match k.construction with
  | some .designFile => [.chain .designUnits .designUnit]
  | some .designUnit => [.chain .contextItems .contextItem, .child .libraryUnit .libraryUnit]
  | some (.libraryUnit .entity) =>
    [.chain .genericChain .generic, .chain .portChain .port, .chain .declarationChain .declaration,
      .touch .statementChain]
  | some (.libraryUnit .architecture) =>
    [.child .entityName .name, .chain .declarationChain .declaration, .touch .statementChain]
  | some (.libraryUnit .package) =>
    [.chain .genericChain .generic, .chain .declarationChain .declaration]
  | some (.libraryUnit .packageBody) => [.chain .declarationChain .declaration]
  | some (.libraryUnit .context) => [.chain .contextItems .contextItem]
  | some (.libraryUnit .configuration) => [.child .entityName .name]
  | some (.contextItem .library) => []
  | some (.contextItem .useClause) => [.chain .nameChain .name]
  | some (.contextItem .reference) => [.chain .nameChain .name]
  | some (.declaration .function) =>
    [.chain .genericChain .generic, .chain .interfaceChain .parameter,
      .child .returnTypeMark .name]
  | some (.declaration .procedure) =>
    [.chain .genericChain .generic, .chain .interfaceChain .parameter]
  | some (.declaration (.subprogramBody kind)) =>
    [.label .subprogramSpecification (Grammar.specification kind),
      .chain .declarationChain .declaration, .touch .statementChain]
  | some (.declaration .constantDecl) | some (.declaration .signalDecl)
  | some (.declaration .variableDecl) =>
    [.child .subtypeIndication .subtype, .optional .defaultValue .expression]
  | some (.declaration .typeDecl) => [.child .typeDefinition .typeDefinition]
  | some (.declaration .subtypeDecl) => [.child .subtypeIndication .subtype]
  | some (.declaration .aliasDecl) => [.optional .subtypeIndication .subtype, .child .name .name]
  | some (.declaration .componentDecl) => [.chain .genericChain .generic, .chain .portChain .port]
  | some (.declaration .attributeDecl) => [.child .typeMark .name]
  | some (.expression .name) => if k = .simpleName then [] else [.child .qualifier .name]
  | some (.expression .literal) => []
  | some (.expression (.unary _)) => [.child .operand .expression]
  | some (.expression (.binary _)) => [.child .left .expression, .child .right .expression]
  | some (.expression .parenthesis) => [.child .expression .expression]
  | some (.expression .aggregate) => [.chain .associationChain .aggregateElement]
  | some (.expression .call) => [.child .qualifier .name, .chain .associationChain .argument]
  | none =>
    match k with
    | .interfaceConstantDeclaration | .interfaceSignalDeclaration | .interfaceVariableDeclaration
    | .interfaceFileDeclaration =>
      [.child .subtypeIndication .subtype, .optional .defaultValue .expression]
    | .enumerationTypeDefinition => [.labels .enumerationLiterals Grammar.enumerationLiteral]
    | .integerTypeDefinition | .floatingTypeDefinition => [.child .rangeConstraint .range]
    | .arrayTypeDefinition => [.chain .indexSubtypes .subtype, .child .elementSubtype .subtype]
    | .recordTypeDefinition => [.chain .elementDeclarations .recordElement]
    | .accessTypeDefinition => [.child .designatedSubtype .subtype]
    | .elementDeclaration => [.child .subtypeIndication .subtype]
    | .rangeExpression => [.child .left .expression, .child .right .expression]
    | .subtypeDefinition | .arraySubtypeDefinition => [.child .subtypeTypeMark .name]
    | .choiceByNone | .choiceByOthers => [.child .associatedExpr .expression]
    | .choiceByExpression =>
      [.child .choiceExpression .expression, .child .associatedExpr .expression]
    | .associationElementPositional => [.child .actual .expression]
    | .associationElementByExpression => [.child .formal .name, .child .actual .expression]
    | _ => []

/-! ### Causes that the attributes of a node bear out -/

def Literal.kind : Literal → Kind
  | .integer _ => .integerLiteral
  | .real _ => .floatingPointLiteral
  | .character _ => .characterLiteral
  | .string _ => .stringLiteral

def Kind.isLiteral (k : Kind) : Prop := k.construction = some (.expression .literal)

/-- The attributes of a node bear a violation out. The other violations are about its edges. -/
def Violation.Fits (a : Attributes) : Violation → Prop
  | .missingAttribute what =>
    (what = "literal" ∧ a.kind.isLiteral ∧ a.literal = none) ∨
      (what = "direction" ∧ a.kind = .rangeExpression ∧ a.direction = none)
  | .literalMismatch => a.kind.isLiteral ∧ ∃ l, a.literal = some l ∧ l.kind ≠ a.kind
  | .unexpectedKind expected =>
    (expected = "a name reference" ∧
        a.kind ∉ [.simpleName, .selectedName, .selectedByAllName]) ∨
      (expected = "a subtype indication" ∧
        a.kind ∉ [.simpleName, .selectedName, .subtypeDefinition, .arraySubtypeDefinition]) ∨
      (expected = "a function declaration" ∧ a.kind ≠ .functionDeclaration) ∨
      (expected = "a procedure declaration" ∧ a.kind ≠ .procedureDeclaration)
  | _ => False

def Cause.Fits (a : Attributes) : Cause → Prop
  | .unsupportedKind kind => kind = a.kind
  | .unresolvableName defect => checkIdentifier a.name = .error defect
  | .contractViolation violation => violation.Fits a
  | .malformedChain _ => False

theorem Attributes.Same.identifier {a a' : Attributes} (same : a.Same a') :
    a'.identifier = a.identifier := by
  unfold Attributes.identifier
  rw [same.name]

theorem Attributes.identifier_fits {a : Attributes} {c : Cause} (h : a.identifier = .error c) :
    c.Fits a := by
  unfold identifier at h
  split at h
  · cases h
  · cases h
    assumption

namespace Recipe

variable {α β : Type} {a : Attributes} {C : Cause → Prop} {Q : Question → Prop}
variable {q : Question} {qs : List Question} {r : Recipe α} {k : α → Recipe β}

/-! ### Recipes in sequence -/

theorem ask_bind (p : Question) (rest : p.Answer → Recipe α) (k : α → Recipe β) :
    ask p rest >>= k = ask p fun v => rest v >>= k := by
  cases p <;> rfl

theorem Keeps.mono {Q' : Question → Prop} (h : r.Keeps a C Q) (weaker : ∀ q, Q q → Q' q) :
    r.Keeps a C Q' := by
  induction r using askInduction with
  | done value => trivial
  | refuse cause => exact h
  | look rest ih => exact ih a h
  | ask p rest ih =>
    obtain ⟨hp, hrest⟩ := (keeps_ask p rest).mp h
    exact (keeps_ask p rest).mpr ⟨weaker p hp, fun v => ih v (hrest v)⟩

theorem Keeps.bind (first : r.Keeps a C Q) (rest : ∀ v, (k v).Keeps a C Q) :
    (r >>= k).Keeps a C Q := by
  induction r using askInduction with
  | done value => exact rest value
  | refuse cause => exact first
  | look answered ih => exact ih a first
  | ask p answered ih =>
    obtain ⟨hp, first⟩ := (keeps_ask p answered).mp first
    rw [ask_bind]
    exact (keeps_ask p _).mpr ⟨hp, fun v => ih v (first v)⟩

theorem Asks.bind_left (first : r.Asks a q) : (r >>= k).Asks a q := by
  induction r using askInduction with
  | done value => exact first.elim
  | refuse cause => trivial
  | look answered ih => exact ih a first
  | ask p answered ih =>
    rw [ask_bind, asks_ask]
    exact ((asks_ask p answered).mp first).imp_right fun later v => ih v (later v)

theorem Asks.bind_right (rest : ∀ v, (k v).Asks a q) : (r >>= k).Asks a q := by
  induction r using askInduction with
  | done value => exact rest value
  | refuse cause => trivial
  | look answered ih => exact ih a
  | ask p answered ih =>
    rw [ask_bind, asks_ask]
    exact .inr ih

theorem Steady.bind (first : r.Steady a) (rest : ∀ v, (k v).Steady a) : (r >>= k).Steady a := by
  induction r using askInduction with
  | done value => exact rest value
  | refuse cause => trivial
  | look answered ih =>
    obtain ⟨alike, first⟩ := first
    exact ⟨fun a' same => congrArg (· >>= k) (alike a' same), ih a first⟩
  | ask p answered ih =>
    rw [ask_bind]
    exact (steady_ask p _).mpr fun v => ih v ((steady_ask p answered).mp first v)

/-- At a node with the attributes `a`, the recipe comes to a value after exactly the questions of
`qs`, and it refuses only with causes that the attributes bear out. -/
structure Puts (a : Attributes) (qs : List Question) (r : Recipe α) : Prop where
  keeps : r.Keeps a (Cause.Fits a) (· ∈ qs)
  asks : ∀ q ∈ qs, r.Asks a q
  steady : r.Steady a

namespace Puts

theorem pure (v : α) : Puts a [] (pure v : Recipe α) := ⟨trivial, by simp, trivial⟩

theorem refuse {c : Cause} (h : c.Fits a) : Puts a qs (.refuse c : Recipe α) :=
  ⟨h, fun _ _ => trivial, trivial⟩

theorem unsupported : Puts a qs (unsupported : Recipe α) := by
  refine ⟨rfl, fun _ _ => trivial, ?_, trivial⟩
  intro a' same
  simp only [same.kind]

theorem part (field : Field) (form : Form) : Puts a [.child field form] (part field form) :=
  ⟨⟨List.mem_singleton.mpr rfl, fun _ => trivial⟩, fun _ hq => .inl (List.mem_singleton.mp hq),
    fun _ => trivial⟩

theorem part? (field : Field) (form : Form) : Puts a [.optional field form] (part? field form) :=
  ⟨⟨List.mem_singleton.mpr rfl, fun _ => trivial⟩, fun _ hq => .inl (List.mem_singleton.mp hq),
    fun _ => trivial⟩

theorem parts (field : Field) (form : Form) : Puts a [.chain field form] (parts field form) :=
  ⟨⟨List.mem_singleton.mpr rfl, fun _ => trivial⟩, fun _ hq => .inl (List.mem_singleton.mp hq),
    fun _ => trivial⟩

theorem skip (field : Field) : Puts a [.touch field] (skip field) :=
  ⟨⟨List.mem_singleton.mpr rfl, trivial⟩, fun _ hq => .inl (List.mem_singleton.mp hq), trivial⟩

theorem label (field : Field) (read : Attributes → Except Cause String) :
    Puts a [.label field read] (Recipe.label field read .done) :=
  ⟨⟨List.mem_singleton.mpr rfl, fun _ => trivial⟩, fun _ hq => .inl (List.mem_singleton.mp hq),
    fun _ => trivial⟩

theorem labels (field : Field) (read : Attributes → Except Cause String) (f : List String → α) :
    Puts a [.labels field read] (Recipe.labels field read fun ss => .done (f ss)) :=
  ⟨⟨List.mem_singleton.mpr rfl, fun _ => trivial⟩, fun _ hq => .inl (List.mem_singleton.mp hq),
    fun _ => trivial⟩

theorem ofExcept {e : Except Cause α} (refused : ∀ c, e = .error c → c.Fits a) :
    Puts a [] (ofExcept e) := by
  cases e with
  | error c => exact refuse (refused c rfl)
  | ok v => exact pure v

theorem look {k : Attributes → Recipe α} (alike : ∀ a', a.Same a' → k a' = k a)
    (h : Puts a qs (k a)) : Puts a qs (attributes >>= k) :=
  ⟨h.keeps, h.asks, alike, h.steady⟩

theorem identifier : Puts a [] identifier := by
  have here := ofExcept (a := a) fun _ => Attributes.identifier_fits
  refine ⟨here.keeps, here.asks, ?_, here.steady⟩
  intro a' same
  simp only [same.identifier]

theorem bind {qs' : List Question} (first : Puts a qs r) (rest : ∀ v, Puts a qs' (k v)) :
    Puts a (qs ++ qs') (r >>= k) := by
  constructor
  · apply Keeps.bind
    · exact first.keeps.mono fun q hq => List.mem_append_left qs' hq
    · exact fun v => (rest v).keeps.mono fun q hq => List.mem_append_right qs hq
  · intro q hq
    rcases List.mem_append.mp hq with hq | hq
    · exact (first.asks q hq).bind_left
    · exact .bind_right fun v => (rest v).asks q hq
  · exact first.steady.bind fun v => (rest v).steady

theorem cons (first : Puts a [q] r) (rest : ∀ v, Puts a qs (k v)) : Puts a (q :: qs) (r >>= k) :=
  first.bind rest

theorem after (first : Puts a [] r) (rest : ∀ v, Puts a qs (k v)) : Puts a qs (r >>= k) :=
  first.bind rest

theorem map (h : Puts a qs r) (f : α → β) : Puts a qs (f <$> r) := by
  rw [map_eq_pure_bind, ← List.append_nil qs]
  exact h.bind fun v => pure (f v)

theorem expect {kind : Kind} {k : Unit → Recipe α} (h : a.kind = kind → Puts a qs (k ())) :
    Puts a qs (expect kind >>= k) := by
  suffices here : Puts a qs ((if a.kind = kind then .done ()
      else .refuse (.unsupportedKind a.kind)) >>= k) by
    refine ⟨here.keeps, here.asks, ?_, here.steady⟩
    intro a' same
    simp only [same.kind]
  split
  · exact h (by assumption)
  · exact .refuse rfl

theorem of_kind {kind : Kind} (same : a.kind = kind) (h : Puts a kind.questions r) :
    Puts a a.kind.questions r := by
  rw [same]
  exact h

end Puts

end Recipe

namespace Grammar

open Recipe

variable {a : Attributes}

/-! ### Names and expressions -/

theorem name_puts : Puts a a.kind.questions name := by
  refine Puts.look (fun a' same => by simp only [same.kind]) ?_
  split
  next kind => exact .of_kind kind (.after .identifier fun _ => .pure _)
  next kind =>
    exact .of_kind kind (.cons (.part _ _) fun _ => .after .identifier fun _ => .pure _)
  next kind => exact .of_kind kind (.cons (.part _ _) fun _ => .pure _)
  next =>
    apply Puts.refuse
    simp_all [Cause.Fits, Violation.Fits]

theorem subtype_puts : Puts a a.kind.questions subtype := by
  refine Puts.look (fun a' same => by simp only [same.kind]) ?_
  split
  · exact name_puts
  · exact name_puts
  next kind => exact .of_kind kind (.part _ _)
  next kind => exact .of_kind kind (.part _ _)
  next =>
    apply Puts.refuse
    simp_all [Cause.Fits, Violation.Fits]

theorem literalOf_fits {c : Cause} (literal : a.kind.isLiteral) (h : literalOf a = .error c) :
    c.Fits a := by
  unfold literalOf at h
  split at h
  next missing =>
    cases h
    exact .inl ⟨rfl, literal, missing⟩
  next l given =>
    have other : l.kind ≠ a.kind := by
      intro same
      rw [← same] at h
      cases l <;> cases h
    have mismatch : c = .contractViolation .literalMismatch := by
      split at h <;> cases h
      rfl
    rw [mismatch]
    exact ⟨literal, l, given, other⟩

theorem literal_puts (literal : a.kind.isLiteral) : Puts a a.kind.questions Grammar.literal := by
  have none : a.kind.questions = [] := by
    unfold Kind.questions
    rw [literal]
  have here := Puts.ofExcept fun _ => literalOf_fits literal
  rw [none]
  refine ⟨here.keeps, here.asks, ?_, here.steady⟩
  intro a' same
  simp only [literalOf, same.kind, same.literal]

theorem expressionOf_puts {form : ExpressionForm}
    (built : a.kind.construction = some (.expression form)) :
    Puts a a.kind.questions (expressionOf form) := by
  cases form with
  | name => exact name_puts.map _
  | literal => exact literal_puts built
  | unary op =>
    unfold Kind.questions
    rw [built]
    exact .cons (.part _ _) fun _ => .pure _
  | binary op =>
    unfold Kind.questions
    rw [built]
    exact .cons (.part _ _) fun _ => .cons (.part _ _) fun _ => .pure _
  | parenthesis =>
    unfold Kind.questions
    rw [built]
    exact .cons (.part _ _) fun _ => .pure _
  | aggregate =>
    unfold Kind.questions
    rw [built]
    exact .cons (.parts _ _) fun _ => .pure _
  | call =>
    unfold Kind.questions
    rw [built]
    exact .cons (.part _ _) fun _ => .cons (.parts _ _) fun _ => .pure _

theorem expression_puts : Puts a a.kind.questions expression := by
  refine Puts.look (fun a' same => by simp only [same.kind]) ?_
  split
  next form built => exact expressionOf_puts built
  · exact .unsupported

theorem aggregateElement_puts : Puts a a.kind.questions aggregateElement := by
  refine Puts.look (fun a' same => by simp only [same.kind]) ?_
  split
  next kind => exact .of_kind kind (.cons (.part _ _) fun _ => .pure _)
  next kind => exact .of_kind kind (.cons (.part _ _) fun _ => .pure _)
  next kind =>
    exact .of_kind kind (.cons (.part _ _) fun _ => .cons (.part _ _) fun _ => .pure _)
  · exact .unsupported

theorem argument_puts : Puts a a.kind.questions argument := by
  refine Puts.look (fun a' same => by simp only [same.kind]) ?_
  split
  next kind => exact .of_kind kind (.cons (.part _ _) fun _ => .pure _)
  next kind =>
    exact .of_kind kind (.cons (.part _ _) fun _ => .cons (.part _ _) fun _ => .pure _)
  · exact .unsupported

theorem direction_puts (kind : a.kind = .rangeExpression) : Puts a [] direction := by
  apply Puts.look
  · intro a' same
    simp only [same.direction]
  · cases missing : a.direction with
    | some d => exact .pure d
    | none => exact .refuse (.inr ⟨rfl, kind, missing⟩)

theorem range_puts : Puts a a.kind.questions range := by
  apply Puts.expect
  intro kind
  apply Puts.of_kind kind
  apply Puts.after (direction_puts kind)
  intro direction
  exact .cons (.part _ _) fun _ => .cons (.part _ _) fun _ => .pure _

/-! ### Types and interfaces -/

theorem recordElement_puts : Puts a a.kind.questions recordElement := by
  apply Puts.expect
  intro kind
  apply Puts.of_kind kind
  apply Puts.after .identifier
  intro name
  exact .cons (.part _ _) fun _ => .pure _

theorem typeDefinition_puts : Puts a a.kind.questions typeDefinition := by
  refine Puts.look (fun a' same => by simp only [same.kind]) ?_
  split
  next kind => exact .of_kind kind (.labels _ _ _)
  next kind => exact .of_kind kind (.cons (.part _ _) fun _ => .pure _)
  next kind => exact .of_kind kind (.cons (.part _ _) fun _ => .pure _)
  next kind =>
    exact .of_kind kind (.cons (.parts _ _) fun _ => .cons (.part _ _) fun _ => .pure _)
  next kind => exact .of_kind kind (.cons (.parts _ _) fun _ => .pure _)
  next kind => exact .of_kind kind (.cons (.part _ _) fun _ => .pure _)
  · exact .unsupported

theorem generic_puts : Puts a a.kind.questions generic := by
  apply Puts.expect
  intro kind
  apply Puts.of_kind kind
  apply Puts.after .identifier
  intro name
  exact .cons (.part _ _) fun _ => .cons (.part? _ _) fun _ => .pure _

theorem mode_puts : Puts a [] mode := by
  refine ⟨trivial, by simp, ?_, trivial⟩
  intro a' same
  simp only [same.mode]

theorem port_puts : Puts a a.kind.questions port := by
  apply Puts.expect
  intro kind
  apply Puts.of_kind kind
  apply Puts.after .identifier
  intro name
  apply Puts.after mode_puts
  intro mode
  exact .cons (.part _ _) fun _ => .cons (.part? _ _) fun _ => .pure _

theorem parameter_puts : Puts a a.kind.questions parameter := by
  unfold parameter parameterClass
  rw [LawfulMonad.bind_assoc]
  refine Puts.look (fun a' same => by simp only [same.kind]) ?_
  split
  case h_5 => exact (Puts.unsupported : Puts a _ (unsupported : Recipe ParameterItem))
  -- the four classes of objects are asked alike
  all_goals
    rename_i kind
    apply Puts.of_kind kind
    apply Puts.after (.pure _)
    intro objectClass
    apply Puts.after .identifier
    intro name
    apply Puts.after mode_puts
    intro mode
    exact .cons (.part _ _) fun _ => .cons (.part? _ _) fun _ => .pure _

/-! ### Declarations -/

theorem function_puts : Puts a a.kind.questions function := by
  apply Puts.expect
  intro kind
  apply Puts.of_kind kind
  apply Puts.after .identifier
  intro name
  apply Puts.look
  · intro a' same
    simp only [same.flags]
  · exact .cons (.parts _ _) fun _ => .cons (.parts _ _) fun _ => .cons (.part _ _) fun _ => .pure _

theorem procedure_puts : Puts a a.kind.questions procedure := by
  apply Puts.expect
  intro kind
  apply Puts.of_kind kind
  apply Puts.after .identifier
  intro name
  exact .cons (.parts _ _) fun _ => .cons (.parts _ _) fun _ => .pure _

theorem bodyOf_puts {kind : SubprogramKind}
    (built : a.kind.construction = some (.declaration (.subprogramBody kind))) :
    Puts a a.kind.questions (bodyOf kind) := by
  unfold Kind.questions
  rw [built]
  exact .cons (.label _ _) fun _ => .cons (.parts _ _) fun _ => .cons (.skip _) fun _ => .pure _

theorem subprogramBody_puts : Puts a a.kind.questions subprogramBody := by
  refine Puts.look (fun a' same => by simp only [same.kind]) ?_
  split
  next kind => exact bodyOf_puts (by rw [kind]; rfl)
  next kind => exact bodyOf_puts (by rw [kind]; rfl)
  · exact .unsupported

theorem object_puts :
    Puts a [.child .subtypeIndication .subtype, .optional .defaultValue .expression] object := by
  apply Puts.after .identifier
  intro name
  exact .cons (.part _ _) fun _ => .cons (.part? _ _) fun _ => .pure _

theorem constantDecl_puts : Puts a a.kind.questions constantDecl := by
  apply Puts.expect
  intro kind
  exact .of_kind kind object_puts

theorem signalDecl_puts : Puts a a.kind.questions signalDecl := by
  apply Puts.expect
  intro kind
  exact .of_kind kind object_puts

theorem variableDecl_puts : Puts a a.kind.questions variableDecl := by
  apply Puts.expect
  intro kind
  apply Puts.of_kind kind
  apply object_puts.bind
  intro declared
  apply Puts.look
  · intro a' same
    simp only [same.flags]
  · exact .pure _

theorem typeDecl_puts : Puts a a.kind.questions typeDecl := by
  apply Puts.expect
  intro kind
  apply Puts.of_kind kind
  apply Puts.after .identifier
  intro name
  exact .cons (.part _ _) fun _ => .pure _

theorem subtypeDecl_puts : Puts a a.kind.questions subtypeDecl := by
  apply Puts.expect
  intro kind
  apply Puts.of_kind kind
  apply Puts.after .identifier
  intro name
  exact .cons (.part _ _) fun _ => .pure _

theorem aliasDecl_puts : Puts a a.kind.questions aliasDecl := by
  apply Puts.expect
  intro kind
  apply Puts.of_kind kind
  apply Puts.after .identifier
  intro name
  exact .cons (.part? _ _) fun _ => .cons (.part _ _) fun _ => .pure _

theorem componentDecl_puts : Puts a a.kind.questions componentDecl := by
  apply Puts.expect
  intro kind
  apply Puts.of_kind kind
  apply Puts.after .identifier
  intro name
  exact .cons (.parts _ _) fun _ => .cons (.parts _ _) fun _ => .pure _

theorem attributeDecl_puts : Puts a a.kind.questions attributeDecl := by
  apply Puts.expect
  intro kind
  apply Puts.of_kind kind
  apply Puts.after .identifier
  intro name
  exact .cons (.part _ _) fun _ => .pure _

theorem useClause_puts : Puts a a.kind.questions useClause := by
  apply Puts.expect
  intro kind
  exact .of_kind kind (.cons (.parts _ _) fun _ => .pure _)

theorem declarationOf_puts {form : DeclarationForm}
    (built : a.kind.construction = some (.declaration form)) :
    Puts a a.kind.questions (declarationOf form) := by
  cases form with
  | function => exact function_puts.map _
  | procedure => exact procedure_puts.map _
  | subprogramBody kind => exact (bodyOf_puts built).map _
  | constantDecl => exact constantDecl_puts.map _
  | signalDecl => exact signalDecl_puts.map _
  | variableDecl => exact variableDecl_puts.map _
  | typeDecl => exact typeDecl_puts.map _
  | subtypeDecl => exact subtypeDecl_puts.map _
  | aliasDecl => exact aliasDecl_puts.map _
  | componentDecl => exact componentDecl_puts.map _
  | attributeDecl => exact attributeDecl_puts.map _

theorem declaration_puts : Puts a a.kind.questions declaration := by
  refine Puts.look (fun a' same => by simp only [same.kind]) ?_
  split
  next form built => exact declarationOf_puts built
  · exact useClause_puts.map _
  · exact .unsupported

/-! ### Units -/

theorem libraryClause_puts : Puts a a.kind.questions libraryClause := by
  apply Puts.expect
  intro kind
  exact .of_kind kind (.after .identifier fun _ => .pure _)

theorem contextReference_puts : Puts a a.kind.questions contextReference := by
  apply Puts.expect
  intro kind
  exact .of_kind kind (.cons (.parts _ _) fun _ => .pure _)

theorem contextItemOf_puts (form : ClauseForm) : Puts a a.kind.questions (contextItemOf form) := by
  cases form with
  | library => exact libraryClause_puts.map _
  | useClause => exact useClause_puts.map _
  | reference => exact contextReference_puts.map _

theorem contextItem_puts : Puts a a.kind.questions contextItem := by
  refine Puts.look (fun a' same => by simp only [same.kind]) ?_
  split
  next form _ => exact contextItemOf_puts form
  · exact .unsupported

theorem entity_puts : Puts a a.kind.questions entity := by
  apply Puts.expect
  intro kind
  apply Puts.of_kind kind
  apply Puts.after .identifier
  intro name
  exact .cons (.parts _ _) fun _ => .cons (.parts _ _) fun _ => .cons (.parts _ _) fun _ =>
    .cons (.skip _) fun _ => .pure _

theorem architecture_puts : Puts a a.kind.questions architecture := by
  apply Puts.expect
  intro kind
  apply Puts.of_kind kind
  apply Puts.after .identifier
  intro name
  exact .cons (.part _ _) fun _ => .cons (.parts _ _) fun _ => .cons (.skip _) fun _ => .pure _

theorem package_puts : Puts a a.kind.questions package := by
  apply Puts.expect
  intro kind
  apply Puts.of_kind kind
  apply Puts.after .identifier
  intro name
  exact .cons (.parts _ _) fun _ => .cons (.parts _ _) fun _ => .pure _

theorem packageBody_puts : Puts a a.kind.questions packageBody := by
  apply Puts.expect
  intro kind
  apply Puts.of_kind kind
  apply Puts.after .identifier
  intro name
  exact .cons (.parts _ _) fun _ => .pure _

theorem contextDeclaration_puts : Puts a a.kind.questions contextDeclaration := by
  apply Puts.expect
  intro kind
  apply Puts.of_kind kind
  apply Puts.after .identifier
  intro name
  exact .cons (.parts _ _) fun _ => .pure _

theorem configuration_puts : Puts a a.kind.questions configuration := by
  apply Puts.expect
  intro kind
  apply Puts.of_kind kind
  apply Puts.after .identifier
  intro name
  exact .cons (.part _ _) fun _ => .pure _

theorem libraryUnitOf_puts (form : UnitForm) : Puts a a.kind.questions (libraryUnitOf form) := by
  cases form with
  | entity => exact entity_puts.map _
  | architecture => exact architecture_puts.map _
  | package => exact package_puts.map _
  | packageBody => exact packageBody_puts.map _
  | context => exact contextDeclaration_puts.map _
  | configuration => exact configuration_puts.map _

theorem libraryUnit_puts : Puts a a.kind.questions libraryUnit := by
  refine Puts.look (fun a' same => by simp only [same.kind]) ?_
  split
  next form _ => exact libraryUnitOf_puts form
  · exact .unsupported

theorem designUnit_puts : Puts a a.kind.questions designUnit := by
  apply Puts.expect
  intro kind
  exact .of_kind kind (.cons (.parts _ _) fun _ => .cons (.part _ _) fun _ => .pure _)

theorem designFile_puts : Puts a a.kind.questions designFile := by
  apply Puts.expect
  intro kind
  exact .of_kind kind (.cons (.parts _ _) fun _ => .pure _)

theorem anyNode_puts : Puts a a.kind.questions anyNode := by
  refine Puts.look (fun a' same => by simp only [same.kind]) ?_
  split
  · exact designFile_puts.map _
  · exact designUnit_puts.map _
  next form _ => exact (libraryUnitOf_puts form).map _
  next form _ => exact (contextItemOf_puts form).map _
  next form built => exact (declarationOf_puts built).map _
  next form built => exact (expressionOf_puts built).map _
  · exact .unsupported

theorem recipe_puts (f : Form) (a : Attributes) : Puts a a.kind.questions (recipe f) := by
  cases f with
  | designFile => exact designFile_puts
  | designUnit => exact designUnit_puts
  | entity => exact entity_puts
  | architecture => exact architecture_puts
  | package => exact package_puts
  | packageBody => exact packageBody_puts
  | contextDeclaration => exact contextDeclaration_puts
  | configuration => exact configuration_puts
  | libraryClause => exact libraryClause_puts
  | useClause => exact useClause_puts
  | contextReference => exact contextReference_puts
  | function => exact function_puts
  | procedure => exact procedure_puts
  | subprogramBody => exact subprogramBody_puts
  | constantDecl => exact constantDecl_puts
  | signalDecl => exact signalDecl_puts
  | variableDecl => exact variableDecl_puts
  | typeDecl => exact typeDecl_puts
  | subtypeDecl => exact subtypeDecl_puts
  | aliasDecl => exact aliasDecl_puts
  | componentDecl => exact componentDecl_puts
  | attributeDecl => exact attributeDecl_puts
  | generic => exact generic_puts
  | parameter => exact parameter_puts
  | port => exact port_puts
  | typeDefinition => exact typeDefinition_puts
  | range => exact range_puts
  | recordElement => exact recordElement_puts
  | name => exact name_puts
  | subtype => exact subtype_puts
  | aggregateElement => exact aggregateElement_puts
  | argument => exact argument_puts
  | libraryUnit => exact libraryUnit_puts
  | contextItem => exact contextItem_puts
  | declaration => exact declaration_puts
  | expression => exact expression_puts
  | anyNode => exact anyNode_puts

end Grammar

/-! ### The questions of a kind -/

theorem Kind.questions_defined (k : Kind) : ∀ q ∈ k.questions, k.defines q.field = true := by
  cases k <;> simp [questions, construction, operator?] <;> decide

theorem Grammar.enumerationLiteral_fits {a : Attributes} {c : Cause}
    (refused : enumerationLiteral a = .error c) : c.Fits a := by
  unfold enumerationLiteral at refused
  split at refused
  · exact Attributes.identifier_fits refused
  · cases refused
    rfl

theorem Grammar.enumerationLiteral_same {a a' : Attributes} (same : a.Same a') :
    enumerationLiteral a' = enumerationLiteral a := by
  simp only [enumerationLiteral, same.kind, same.identifier]

theorem Grammar.specification_same {kind : SubprogramKind} {a a' : Attributes}
    (same : a.Same a') : specification kind a' = specification kind a := by
  simp only [specification, same.kind, same.identifier]

theorem Grammar.specification_fits {kind : SubprogramKind} {a : Attributes} {c : Cause}
    (refused : specification kind a = .error c) : c.Fits a := by
  unfold specification at refused
  split at refused
  · split at refused
    · exact Attributes.identifier_fits refused
    next other =>
      cases refused
      exact .inr (.inr (.inl ⟨rfl, other⟩))
  · split at refused
    · exact Attributes.identifier_fits refused
    next other =>
      cases refused
      exact .inr (.inr (.inr ⟨rfl, other⟩))

def Question.ReadsFit : Question → Prop
  | .label _ read => ∀ a c, read a = .error c → c.Fits a
  | .labels _ read => ∀ a c, read a = .error c → c.Fits a
  | _ => True

theorem Kind.questions_read (k : Kind) : ∀ q ∈ k.questions, q.ReadsFit := by
  cases k <;> simp [questions, construction, operator?, Question.ReadsFit]
  case functionBody => exact fun _ _ => Grammar.specification_fits
  case procedureBody => exact fun _ _ => Grammar.specification_fits
  case enumerationTypeDefinition => exact fun _ _ => Grammar.enumerationLiteral_fits

def Question.ReadsSame : Question → Prop
  | .label _ read => ∀ a a', a.Same a' → read a' = read a
  | .labels _ read => ∀ a a', a.Same a' → read a' = read a
  | _ => True

theorem Kind.questions_same (k : Kind) : ∀ q ∈ k.questions, q.ReadsSame := by
  cases k <;> simp [questions, construction, operator?, Question.ReadsSame]
  case functionBody => exact fun _ _ => Grammar.specification_same
  case procedureBody => exact fun _ _ => Grammar.specification_same
  case enumerationTypeDefinition => exact fun _ _ => Grammar.enumerationLiteral_same

end VhdlDesign
