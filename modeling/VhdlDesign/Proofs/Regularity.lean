import VhdlDesign.Proofs.Anatomy
import VhdlDesign.Proofs.Files

/-!
Every design that is built is regular.

Its names are identifiers and its symbols are dotted, however deep they stand, and it is bounded by
the limits: no sequence in it is longer than a chain may be, and no way in passes more levels than
nodes may be open. One step of the argument is a recipe at a node whose parts are regular already;
the induction is on the room that is left for opening nodes.
-/
namespace VhdlDesign

namespace Piece

/-- Whatever the part holds is well named, no sequence in it is longer than `limit`, and there are
at most `height` levels inside each other. -/
structure Regular (limit height : Nat) (p : Piece) : Prop where
  named : ∀ s, .name s ∈ p.everything → IsIdentifier s
  dotted : ∀ s, .symbol s ∈ p.everything → s.IsDotted
  short : ∀ es, .sequence es ∈ p.everything → es.length ≤ limit
  low : p.height ≤ height

namespace Regular

variable {limit limit' height height' : Nat} {p : Piece} {ps : List Piece}

theorem name {s : String} (valid : IsIdentifier s) : (Piece.name s).Regular limit height := by
  constructor <;> simp [everything, Piece.height, valid]

theorem symbol {s : Symbol} (dotted : s.IsDotted) : (Piece.symbol s).Regular limit height := by
  constructor <;> simp [everything, Piece.height, dotted]

theorem isIdentifier {s : String} (h : (Piece.name s).Regular limit height) : IsIdentifier s :=
  h.named s (by simp [everything])

theorem isDotted {s : Symbol} (h : (Piece.symbol s).Regular limit height) : s.IsDotted :=
  h.dotted s (by simp [everything])

theorem mono (h : p.Regular limit height) (longer : limit ≤ limit') (higher : height ≤ height') :
    p.Regular limit' height' :=
  ⟨h.named, h.dotted, fun es member => Nat.le_trans (h.short es member) longer,
    Nat.le_trans h.low higher⟩

theorem all (each : ∀ p ∈ ps, p.Regular limit height) :
    (∀ s, .name s ∈ everythingIn ps → IsIdentifier s) ∧
      (∀ s, .symbol s ∈ everythingIn ps → s.IsDotted) ∧
      (∀ es, .sequence es ∈ everythingIn ps → es.length ≤ limit) ∧ tallest ps ≤ height := by
  refine ⟨?_, ?_, ?_, tallest_le.mpr fun p hp => (each p hp).low⟩
  · intro s member
    obtain ⟨p, hp, member⟩ := mem_everythingIn.mp member
    exact (each p hp).named s member
  · intro s member
    obtain ⟨p, hp, member⟩ := mem_everythingIn.mp member
    exact (each p hp).dotted s member
  · intro es member
    obtain ⟨p, hp, member⟩ := mem_everythingIn.mp member
    exact (each p hp).short es member

theorem level (inside : ∀ p ∈ ps, p.Regular limit height) :
    (Piece.level ps).Regular limit (height + 1) := by
  obtain ⟨named, dotted, short, low⟩ := all inside
  constructor
  · simpa [everything] using named
  · simpa [everything] using dotted
  · simpa [everything] using short
  · simpa [Piece.height] using low

theorem sequence (fits : ps.length ≤ limit) (elements : ∀ p ∈ ps, p.Regular limit height) :
    (Piece.sequence ps).Regular limit height := by
  obtain ⟨named, dotted, short, low⟩ := all elements
  constructor
  · simpa [everything] using named
  · simpa [everything] using dotted
  · simpa [everything, fits] using short
  · simpa [Piece.height] using low

theorem of_contents (h : ∀ q ∈ p.contents, q.Regular limit height) :
    p.Regular limit (height + 1) := by
  cases p with
  | level inside => exact level h
  | name s => exact name (h _ (List.mem_singleton_self _)).isIdentifier
  | symbol s => exact symbol (h _ (List.mem_singleton_self _)).isDotted
  | sequence es =>
    exact (h _ (List.mem_singleton_self _)).mono (Nat.le_refl limit) (Nat.le_succ height)

end Regular

def Good (ps : List Piece) : Prop := ∀ p ∈ ps, p.Regular 0 0

theorem Good.nil : Good [] := by
  intro p member
  cases member

theorem Good.name {s : String} (valid : IsIdentifier s) : Good [.name s] := by
  intro p member
  rw [List.mem_singleton.mp member]
  exact .name valid

theorem Good.symbol {s : Symbol} (dotted : s.IsDotted) : Good [.symbol s] := by
  intro p member
  rw [List.mem_singleton.mp member]
  exact .symbol dotted

end Piece

def Vouched (limit height : Nat) (A : (q : Question) → q.Answer → Prop) : Prop :=
  ∀ q w, A q w → ∀ p ∈ (Reading.mk q w).parts, p.Regular limit height

namespace Recipe.Yields

variable {α : Type} {A : (q : Question) → q.Answer → Prop} {P : α → Prop} {k : String → Recipe α}

theorem label {field : Field} {read : Attributes → Except Cause String}
    (h : ∀ s, A (.label field read) s → (k s).Yields A P) :
    (Recipe.label field read .done >>= k).Yields A P := h

theorem named (h : ∀ s, IsIdentifier s → (k s).Yields A P) :
    (identifier >>= k).Yields A P := by
  intro a
  cases read : a.identifier with
  | error cause =>
    simp only [read]
    trivial
  | ok s =>
    simp only [read]
    exact h s (Attributes.identifier_eq_ok.mp read).2

end Recipe.Yields

namespace Grammar

open Recipe Piece

variable {A : (q : Question) → q.Answer → Prop} {limit height : Nat}

/-! ### What a value does not owe to an answer -/

theorem name_good (vouched : Vouched limit height A) : name.Yields A Symbol.IsDotted := by
  have qualified : ∀ s, A (.child .qualifier .name) s → s.IsDotted :=
    fun s read => (vouched _ _ read (.symbol s) (List.mem_singleton_self _)).isDotted
  refine .after fun a => ?_
  split
  · exact .named fun _ valid => .pure (.single valid)
  · exact .part fun s read => .named fun _ valid => .pure ((qualified s read).select (.inl valid))
  · exact .part fun s read => .pure (qualified s read).selectAll
  · trivial

theorem subtype_good (vouched : Vouched limit height A) : subtype.Yields A Symbol.IsDotted := by
  have marked : (part .subtypeTypeMark .name).Yields A Symbol.IsDotted :=
    fun s read => (vouched _ _ read (.symbol s) (List.mem_singleton_self _)).isDotted
  refine .after fun a => ?_
  split
  · exact name_good vouched
  · exact name_good vouched
  · exact marked
  · exact marked
  · trivial

theorem literalOf_own {a : Attributes} {e : Expression} (made : literalOf a = .ok e) :
    e.own = [] := by
  unfold literalOf at made
  split at made
  · cases made
  · split at made <;> cases made <;> rfl

theorem literal_good : literal.Yields A fun e => Good e.own := by
  intro a
  dsimp only
  cases made : literalOf a with
  | error c => trivial
  | ok e =>
    change Good e.own
    rw [literalOf_own made]
    exact .nil

theorem expressionOf_good (vouched : Vouched limit height A) (form : ExpressionForm) :
    (expressionOf form).Yields A fun e => Good e.own := by
  cases form with
  | name => exact .map ((name_good vouched).imp fun _ dotted => .symbol dotted)
  | literal => exact literal_good
  | unary op => exact .after fun _ => .pure .nil
  | binary op => exact .after fun _ => .after fun _ => .pure .nil
  | parenthesis => exact .after fun _ => .pure .nil
  | aggregate => exact .after fun _ => .pure .nil
  | call => exact .after fun _ => .after fun _ => .pure .nil

theorem object_good : object.Yields A fun d => Good [.name d.name] :=
  .named fun _ valid => .after fun _ => .after fun _ => .pure (.name valid)

theorem bodyOf_good (vouched : Vouched limit height A) (kind : SubprogramKind) :
    (bodyOf kind).Yields A fun b => Good [.name b.name] := by
  refine .label fun s read => ?_
  have valid := (vouched _ _ read (.name s) (List.mem_singleton_self _)).isIdentifier
  exact .after fun _ => .after fun _ => .pure (.name valid)

theorem function_good : function.Yields A fun f => Good [.name f.name] :=
  .after fun _ => .named fun _ valid => .after fun _ => .after fun _ => .after fun _ =>
    .after fun _ => .pure (.name valid)

theorem procedure_good : procedure.Yields A fun p => Good [.name p.name] :=
  .after fun _ => .named fun _ valid => .after fun _ => .after fun _ => .pure (.name valid)

theorem variableDecl_good : variableDecl.Yields A fun d => Good [.name d.name] :=
  .after fun _ => .bind (object_good.imp fun _ good => .after fun _ => .pure good)

theorem typeDecl_good : typeDecl.Yields A fun d => Good [.name d.name] :=
  .after fun _ => .named fun _ valid => .after fun _ => .pure (.name valid)

theorem subtypeDecl_good : subtypeDecl.Yields A fun d => Good [.name d.name] :=
  .after fun _ => .named fun _ valid => .after fun _ => .pure (.name valid)

theorem aliasDecl_good : aliasDecl.Yields A fun d => Good [.name d.name] :=
  .after fun _ => .named fun _ valid => .after fun _ => .after fun _ => .pure (.name valid)

theorem componentDecl_good : componentDecl.Yields A fun d => Good [.name d.name] :=
  .after fun _ => .named fun _ valid => .after fun _ => .after fun _ => .pure (.name valid)

theorem attributeDecl_good : attributeDecl.Yields A fun d => Good [.name d.name] :=
  .after fun _ => .named fun _ valid => .after fun _ => .pure (.name valid)

theorem declarationOf_good (vouched : Vouched limit height A) (form : DeclarationForm) :
    (declarationOf form).Yields A fun d => Good d.own := by
  cases form with
  | function => exact .map function_good
  | procedure => exact .map procedure_good
  | subprogramBody kind => exact .bind ((bodyOf_good vouched kind).imp fun _ good => .pure good)
  | constantDecl => exact .map (.after fun _ => object_good)
  | signalDecl => exact .map (.after fun _ => object_good)
  | variableDecl => exact .map variableDecl_good
  | typeDecl => exact .map typeDecl_good
  | subtypeDecl => exact .map subtypeDecl_good
  | aliasDecl => exact .map aliasDecl_good
  | componentDecl => exact .map componentDecl_good
  | attributeDecl => exact .map attributeDecl_good

theorem libraryClause_good : libraryClause.Yields A fun c => Good [.name c.name] :=
  .after fun _ => .named fun _ valid => .pure (.name valid)

theorem contextItemOf_good (form : ClauseForm) :
    (contextItemOf form).Yields A fun i => Good i.own := by
  cases form with
  | library => exact .map libraryClause_good
  | useClause => exact .map (.always fun _ => .nil)
  | reference => exact .map (.always fun _ => .nil)

theorem entity_good : entity.Yields A fun u => Good [.name u.name] :=
  .after fun _ => .named fun _ valid => .after fun _ => .after fun _ => .after fun _ =>
    .after fun _ => .pure (.name valid)

theorem architecture_good : architecture.Yields A fun u => Good [.name u.name] :=
  .after fun _ => .named fun _ valid => .after fun _ => .after fun _ => .after fun _ =>
    .pure (.name valid)

theorem package_good : package.Yields A fun u => Good [.name u.name] :=
  .after fun _ => .named fun _ valid => .after fun _ => .after fun _ => .pure (.name valid)

theorem packageBody_good : packageBody.Yields A fun u => Good [.name u.name] :=
  .after fun _ => .named fun _ valid => .after fun _ => .pure (.name valid)

theorem contextDeclaration_good : contextDeclaration.Yields A fun u => Good [.name u.name] :=
  .after fun _ => .named fun _ valid => .after fun _ => .pure (.name valid)

theorem configuration_good : configuration.Yields A fun u => Good [.name u.name] :=
  .after fun _ => .named fun _ valid => .after fun _ => .pure (.name valid)

theorem libraryUnitOf_good (form : UnitForm) :
    (libraryUnitOf form).Yields A fun u => Good [.name u.name] := by
  cases form with
  | entity => exact .map entity_good
  | architecture => exact .map architecture_good
  | package => exact .map package_good
  | packageBody => exact .map packageBody_good
  | context => exact .map contextDeclaration_good
  | configuration => exact .map configuration_good

/-- The names and symbols that are no answer by themselves are good all the same. -/
theorem recipe_good (vouched : Vouched limit height A) (f : Form) :
    (recipe f).Yields A fun v => Good (f.own v) := by
  cases f with
  | entity => exact entity_good
  | architecture => exact architecture_good
  | package => exact package_good
  | packageBody => exact packageBody_good
  | contextDeclaration => exact contextDeclaration_good
  | configuration => exact configuration_good
  | libraryClause => exact libraryClause_good
  | function => exact function_good
  | procedure => exact procedure_good
  | subprogramBody =>
    refine .after fun a => ?_
    split
    · exact bodyOf_good vouched _
    · exact bodyOf_good vouched _
    · exact .unsupported
  | constantDecl => exact .after fun _ => object_good
  | signalDecl => exact .after fun _ => object_good
  | variableDecl => exact variableDecl_good
  | typeDecl => exact typeDecl_good
  | subtypeDecl => exact subtypeDecl_good
  | aliasDecl => exact aliasDecl_good
  | componentDecl => exact componentDecl_good
  | attributeDecl => exact attributeDecl_good
  | generic =>
    exact .after fun _ => .named fun _ valid => .after fun _ => .after fun _ => .pure (.name valid)
  | parameter =>
    exact .after fun _ => .named fun _ valid => .after fun _ => .after fun _ => .after fun _ =>
      .pure (.name valid)
  | port =>
    exact .after fun _ => .named fun _ valid => .after fun _ => .after fun _ => .after fun _ =>
      .pure (.name valid)
  | recordElement =>
    exact .after fun _ => .named fun _ valid => .after fun _ => .pure (.name valid)
  | name => exact (name_good vouched).imp fun _ dotted => .symbol dotted
  | subtype => exact (subtype_good vouched).imp fun _ dotted => .symbol dotted
  | libraryUnit =>
    refine .after fun a => ?_
    split
    · exact libraryUnitOf_good _
    · exact .unsupported
  | contextItem =>
    refine .after fun a => ?_
    split
    · exact contextItemOf_good _
    · exact .unsupported
  | declaration =>
    refine .after fun a => ?_
    split
    · exact declarationOf_good vouched _
    · exact .map (.always fun _ => .nil)
    · exact .unsupported
  | expression =>
    refine .after fun a => ?_
    split
    · exact expressionOf_good vouched _
    · exact .unsupported
  | anyNode =>
    refine .after fun a => ?_
    split
    · exact .map (.always fun _ => .nil)
    · exact .map (.always fun _ => .nil)
    · exact .map (libraryUnitOf_good _)
    · exact .map (contextItemOf_good _)
    · exact .map (declarationOf_good vouched _)
    · exact .map (expressionOf_good vouched _)
    · exact .unsupported
  | _ => exact .always fun _ => .nil

end Grammar

/-! ### Labels are identifiers -/

theorem Grammar.enumerationLiteral_valid {a : Attributes} {s : String}
    (read : enumerationLiteral a = .ok s) : IsIdentifier s := by
  unfold enumerationLiteral at read
  split at read
  · exact (Attributes.identifier_eq_ok.mp read).2
  · cases read

theorem Grammar.specification_valid {kind : SubprogramKind} {a : Attributes} {s : String}
    (read : specification kind a = .ok s) : IsIdentifier s := by
  unfold specification at read
  split at read
  all_goals
    split at read
    · exact (Attributes.identifier_eq_ok.mp read).2
    · cases read

def Question.ReadsNames : Question → Prop
  | .label _ read => ∀ a s, read a = .ok s → IsIdentifier s
  | .labels _ read => ∀ a s, read a = .ok s → IsIdentifier s
  | _ => True

theorem Kind.questions_names (k : Kind) : ∀ q ∈ k.questions, q.ReadsNames := by
  cases k <;> simp [questions, construction, operator?, Question.ReadsNames]
  case functionBody => exact fun _ _ => Grammar.specification_valid
  case procedureBody => exact fun _ _ => Grammar.specification_valid
  case enumerationTypeDefinition => exact fun _ _ => Grammar.enumerationLiteral_valid

/-! ### One node -/

namespace Builder

variable {b : Builder} {n : NodeRef} {x : Node} {height : Nat}
variable {enter : (f : Form) → NodeRef → Except Fault f.Value}

theorem carryOut_yields_asked {α : Type} {P : α → Prop} {C : Cause → Prop} {Q : Question → Prop}
    {r : Recipe α} {v : α} (kept : r.Keeps x.toAttributes C Q)
    (yields : r.Yields (fun q w => Q q ∧ b.answer n x enter q = .ok w) P)
    (built : b.carryOut n x enter r = .ok v) : P v := by
  induction r using Recipe.askInduction with
  | done value =>
    cases built
    exact yields
  | refuse cause => cases built
  | look rest ih => exact ih x.toAttributes kept (yields x.toAttributes) built
  | ask q rest ih =>
    obtain ⟨asked, kept⟩ := (Recipe.keeps_ask q rest).mp kept
    rw [carryOut_ask] at built
    obtain ⟨w, answered, built⟩ := bind_eq_ok built
    exact ih w (kept w) ((Recipe.yields_ask q rest).mp yields w ⟨asked, answered⟩) built

theorem label_valid {read : Attributes → Except Cause String} {m : NodeRef} {s : String}
    (names : ∀ a s, read a = .ok s → IsIdentifier s) (labelled : b.label read m = .ok s) :
    IsIdentifier s := by
  obtain ⟨y, _, labelled⟩ := bind_eq_ok labelled
  cases given : read y.toAttributes with
  | error cause =>
    rw [given] at labelled
    cases labelled
  | ok t =>
    rw [given] at labelled
    cases labelled
    exact names _ _ given

theorem row_regular {β : Type} {make : NodeRef → Except Fault β} {piece : β → Piece}
    {head : Option NodeRef} {ms : List NodeRef} {vs : List β} (gathered : b.elements head = .ok ms)
    (made : ms.mapM make = .ok vs)
    (each : ∀ m v, make m = .ok v → (piece v).Regular b.limits.chainLength height) :
    (Piece.sequence (vs.map piece)).Regular b.limits.chainLength height := by
  have pairs := mapM_eq_ok_iff.mp made
  refine .sequence ?_ ?_
  · rw [List.length_map, ← pairs.length_eq]
    exact elements_length gathered
  · intro p element
    obtain ⟨v, member, rfl⟩ := List.mem_map.mp element
    obtain ⟨m, _, built⟩ := exists_of_forall₂ pairs member
    exact each m v built

theorem answer_regular {q : Question} {w : q.Answer} (names : q.ReadsNames)
    (entered : ∀ f m v, enter f m = .ok v → (f.anatomy v).Regular b.limits.chainLength height)
    (answered : b.answer n x enter q = .ok w) :
    ∀ p ∈ (Reading.mk q w).parts, p.Regular b.limits.chainLength height := by
  intro p member
  cases q with
  | touch field => cases member
  | child field form =>
    obtain ⟨m, _, built⟩ := bind_eq_ok answered
    rw [List.mem_singleton.mp member]
    exact entered form m w built
  | optional field form =>
    obtain ⟨held, _, answered⟩ := bind_eq_ok answered
    cases held with
    | none =>
      cases answered
      cases member
    | some m =>
      obtain ⟨v, built, answered⟩ := bind_eq_ok ((map_eq_pure_bind some _).symm.trans answered)
      cases answered
      rw [List.mem_singleton.mp member]
      exact entered form m v built
  | chain field form =>
    obtain ⟨head, _, answered⟩ := bind_eq_ok answered
    obtain ⟨ms, gathered, made⟩ := bind_eq_ok answered
    rw [List.mem_singleton.mp member]
    exact row_regular gathered made fun m v built => entered form m v built
  | label field read =>
    obtain ⟨m, _, labelled⟩ := bind_eq_ok answered
    rw [List.mem_singleton.mp member]
    exact .name (label_valid names labelled)
  | labels field read =>
    obtain ⟨head, _, answered⟩ := bind_eq_ok answered
    obtain ⟨ms, gathered, made⟩ := bind_eq_ok answered
    rw [List.mem_singleton.mp member]
    exact row_regular gathered made fun m s labelled => .name (label_valid names labelled)

/-- What a recipe makes of regular parts is regular and has at most one level more. -/
theorem carryOut_regular {f : Form} {v : f.Value}
    (entered : ∀ f m v, enter f m = .ok v → (f.anatomy v).Regular b.limits.chainLength height)
    (built : b.carryOut n x enter (Grammar.recipe f) = .ok v) :
    (f.anatomy v).Regular b.limits.chainLength (height + 1) := by
  have vouched : Vouched b.limits.chainLength height
      fun q w => q ∈ x.kind.questions ∧ b.answer n x enter q = .ok w := by
    rintro q w ⟨asked, answered⟩
    exact answer_regular (x.kind.questions_names q asked) entered answered
  have kept := (Grammar.recipe_puts f x.toAttributes).keeps
  have own := carryOut_yields_asked kept (Grammar.recipe_good vouched f) built
  have read := carryOut_yields_asked kept (Grammar.recipe_yields f) built
  refine .of_contents fun p member => ?_
  rw [Form.contents_eq] at member
  rcases List.mem_append.mp member with member | member
  · exact (own p member).mono (Nat.zero_le _) (Nat.zero_le _)
  · obtain ⟨r, hr, member⟩ := List.mem_flatMap.mp member
    exact vouched r.question r.answer (read r hr) p member

/-! ### Whole builds -/

theorem enterUnless_regular {barred : List NodeRef → NodeRef → Bool} {room : Nat} {f : Form}
    {v : f.Value} (built : enterUnless barred room b f n = .ok v) :
    (f.anatomy v).Regular b.limits.chainLength room := by
  -- every node that is opened takes one of the room, and adds at most one level
  induction room generalizing b n f with
  | zero =>
    obtain ⟨r, _, none, _⟩ := enterUnless_eq_ok built
    omega
  | succ room ih =>
    obtain ⟨r, x, some, _, _, built⟩ := enterUnless_eq_ok built
    obtain rfl : room = r := by omega
    exact carryOut_regular (b := b.push n) (fun f m v => ih) built

theorem build_regular {f : Form} {v : f.Value} (built : b.build f n = .ok v) :
    (f.anatomy v).Regular b.limits.chainLength b.room := by
  rw [build_eq_buildUnless] at built
  exact enterUnless_regular built

theorem buildOpen_regular {f : Form} {v : f.Value} (built : b.buildOpen f n = .ok v) :
    (f.anatomy v).Regular b.limits.chainLength (b.room + 1) := by
  obtain ⟨x, _, built⟩ := bind_eq_ok built
  exact carryOut_regular (fun f m v => build_regular) built

theorem build_room {f : Form} {v : f.Value} (built : b.build f n = .ok v) :
    b.path.length < b.limits.depth := by
  rw [build_eq_buildUnless] at built
  obtain ⟨r, _, left, _⟩ := enterUnless_eq_ok built
  simp only [room] at left
  omega

end Builder

theorem openFile_length {g : Graph} {limits : Limits} {root : NodeRef} {units : List NodeRef}
    (opened : openFile g limits root = .ok units) : units.length ≤ limits.chainLength := by
  obtain ⟨x, found, kind, deep, _⟩ := openFile_eq_ok opened
  rw [openFile_eq found, if_pos kind, if_pos deep] at opened
  exact Builder.elements_length opened

/-- The part keeps to the limits where so many nodes are open around it. -/
def Piece.Within (limits : Limits) (outside : Nat) (p : Piece) : Prop :=
  (∀ es, .sequence es ∈ p.everything → es.length ≤ limits.chainLength) ∧
    outside + p.height ≤ limits.depth

theorem Builder.build_within {b : Builder} {n : NodeRef} {f : Form} {v : f.Value}
    (built : b.build f n = .ok v) : (f.anatomy v).Within b.limits b.path.length := by
  have regular := build_regular built
  have room := build_room built
  have low := regular.low
  simp only [Builder.room] at low
  exact ⟨regular.short, by omega⟩

/-- The limits bound what comes out: no sequence anywhere in a design is longer than a chain may
be, and the levels around and in it are never more than nodes may be open. A build that leaves its
first node unopened may have one level more, and a symbol has none. -/
theorem designs_stay_within_limits (g : Graph) (limits : Limits) (n : NodeRef) :
    (∀ path f v, Builder.build ⟨g, limits, path⟩ f n = .ok v →
      (f.anatomy v).Within limits path.length) ∧
    (∀ path f v, Builder.buildOpen ⟨g, limits, path⟩ f n = .ok v →
      (f.anatomy v).Within { limits with depth := limits.depth + 1 } 0 ∧
        (f = .name ∨ f = .subtype → (f.anatomy v).Within limits 0)) ∧
    (∀ file, buildDesignFile g limits n = .ok file → file.anatomy.Within limits 0) ∧
    (∀ node, buildNode g limits n = .ok node → node.anatomy.Within limits 0) ∧
    (∀ results, buildDesignUnits g limits n = .ok results →
      results.length ≤ limits.chainLength ∧
        ∀ unit, .ok unit ∈ results → unit.anatomy.Within limits 1) := by
  refine ⟨fun path f v built => Builder.build_within built, ?_,
    fun file built => Builder.build_within (f := .designFile) built,
    fun node built => Builder.build_within (f := .anyNode) built, ?_⟩
  · intro path f v built
    have regular := Builder.buildOpen_regular built
    have low := regular.low
    simp only [Builder.room] at low
    refine ⟨⟨regular.short, ?_⟩, ?_⟩
    · change 0 + (f.anatomy v).height ≤ limits.depth + 1
      omega
    · rintro (rfl | rfl)
      all_goals
        refine ⟨regular.short, ?_⟩
        simp [Form.anatomy, Piece.height]
  · intro results built
    obtain ⟨units, opened, pairs⟩ := buildDesignUnits_eq_ok built
    refine ⟨?_, fun unit member => ?_⟩
    · rw [← pairs.length_eq]
      exact openFile_length opened
    · obtain ⟨m, _, entered⟩ := exists_of_forall₂ pairs member
      exact Builder.build_within (b := insideFile g limits n) (f := .designUnit) entered

def spacedPackage : Graph
  | ⟨0⟩ => some { kind := .designFile,
                  field := fun f => if f = .designUnits then some ⟨1⟩ else none }
  | ⟨1⟩ => some { kind := .designUnit,
                  field := fun f => if f = .libraryUnit then some ⟨2⟩ else none }
  | ⟨2⟩ => some { kind := .packageBody, name := some "\\a b\\",
                  field := fun f => if f = .declarationChain then some ⟨3⟩ else none }
  | ⟨3⟩ => some { kind := .useClause,
                  field := fun f => if f = .nameChain then some ⟨4⟩ else none }
  | ⟨4⟩ => some { kind := .selectedByAllName, next := some ⟨5⟩,
                  field := fun f => if f = .qualifier then some ⟨5⟩ else none }
  | ⟨5⟩ => some { kind := .simpleName, name := some "x" }
  | _ => none

def spacedDesign : DesignFile :=
  ⟨[⟨[], .packageBody ⟨"\\a b\\", [.useClause ⟨[⟨"x.all"⟩, ⟨"x"⟩]⟩]⟩⟩]⟩

theorem spacedPackage_within :
    buildDesignFile spacedPackage ⟨2, 6⟩ ⟨0⟩ = .ok spacedDesign ∧
      spacedDesign.anatomy.Within ⟨2, 6⟩ 0 :=
  ⟨rfl, (designs_stay_within_limits spacedPackage ⟨2, 6⟩ ⟨0⟩).2.2.1 _ rfl⟩

def Piece.WellNamed (p : Piece) : Prop :=
  (∀ s, .name s ∈ p.everything → IsIdentifier s) ∧ ∀ s, .symbol s ∈ p.everything → s.IsDotted

theorem Piece.Regular.wellNamed {limit height : Nat} {p : Piece} (h : p.Regular limit height) :
    p.WellNamed := ⟨h.named, h.dotted⟩

/-- Only well-formed names come out, at whatever depth they stand and whichever way the design was
built. -/
theorem designs_are_well_named (g : Graph) (limits : Limits) (n : NodeRef) :
    (∀ path f v, Builder.build ⟨g, limits, path⟩ f n = .ok v → (f.anatomy v).WellNamed) ∧
    (∀ path f v, Builder.buildOpen ⟨g, limits, path⟩ f n = .ok v → (f.anatomy v).WellNamed) ∧
    (∀ file, buildDesignFile g limits n = .ok file → file.anatomy.WellNamed) ∧
    (∀ node, buildNode g limits n = .ok node → node.anatomy.WellNamed) ∧
    (∀ results, buildDesignUnits g limits n = .ok results →
      ∀ unit, .ok unit ∈ results → unit.anatomy.WellNamed) := by
  refine ⟨fun path f v built => (Builder.build_regular built).wellNamed,
    fun path f v built => (Builder.buildOpen_regular built).wellNamed,
    fun file built => (Builder.build_regular (f := .designFile) built).wellNamed,
    fun node built => (Builder.build_regular (f := .anyNode) built).wellNamed, ?_⟩
  intro results built unit member
  obtain ⟨units, _, pairs⟩ := buildDesignUnits_eq_ok built
  obtain ⟨m, _, entered⟩ := exists_of_forall₂ pairs member
  exact (Builder.build_regular (f := .designUnit) entered).wellNamed

theorem spacedPackage_wellNamed :
    buildDesignFile spacedPackage {} ⟨0⟩ = .ok spacedDesign ∧ spacedDesign.anatomy.WellNamed :=
  ⟨rfl, (designs_are_well_named spacedPackage {} ⟨0⟩).2.2.1 _ rfl⟩

end VhdlDesign
