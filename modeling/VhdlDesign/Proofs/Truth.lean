import VhdlDesign.Proofs.Files

/-!
Issues say something about the graph, and what they say is so.

`Issue.Holds` spells out what an issue claims without reference to builders. While nodes are being
opened, every open node has the next inner one for a part and no node is open twice; this is what an
issue about open nodes rests on.
-/
namespace VhdlDesign

open Relation

/-! ### What an issue claims -/

section

variable (g : Graph) (limits : Limits)

/-- A field of a node that the start leads to holds a chain that passes the distinct nodes of a list
and comes to `m`. -/
def Graph.ChainTo (start : NodeRef) (ns : List NodeRef) (m : NodeRef) : Prop :=
  ∃ n x f, ReflTransGen g.Edge start n ∧ g n = some x ∧ f ∈ x.kind.fields ∧
    Leads g.next (x.field f) ns (some m) ∧ ns.Nodup

def ChainDefect.Holds (start m : NodeRef) : ChainDefect → Prop
  | .cycle repeated length => repeated = m ∧ TransGen (fun n k => g.next n = some k) m m ∧
    ∃ ns, g.ChainTo start ns m ∧ m ∈ ns ∧ ns.length = length
  | .tooLong limit => limit = limits.chainLength ∧
    ∃ ns, g.ChainTo start ns m ∧ m ∉ ns ∧ ns.length = limit

/-- What a violation claims of the node `x` behind `m`, when a build began at `start`. No builder
asks for a field that the kind of a node does not define. -/
def Violation.Holds (start m : NodeRef) (x : Node) : Violation → Prop
  | .fieldNotApplicable _ => False
  | .missingField f => f ∈ x.kind.fields ∧ x.field f = none
  | .ancestorReference => TransGen g.Edge m m
  | .depthExceeded limit => limit = limits.depth ∧
    ∃ path, Nested g start path m ∧ (m :: path).Nodup ∧ path.length = limit
  | .missingAttribute what => (Violation.missingAttribute what).Fits x.toAttributes
  | .literalMismatch => Violation.literalMismatch.Fits x.toAttributes
  | .unexpectedKind expected => (Violation.unexpectedKind expected).Fits x.toAttributes

def Cause.Holds (start m : NodeRef) (x : Node) : Cause → Prop
  | .malformedChain defect => defect.Holds g limits start m
  | .unresolvableName defect => checkIdentifier x.name = .error defect
  | .unsupportedKind kind => kind = x.kind
  | .contractViolation violation => violation.Holds g limits start m x

/-- The issue is about a node that the start leads to, and is true of it. -/
def Issue.Holds (start : NodeRef) (i : Issue) : Prop :=
  ReflTransGen g.Edge start i.node ∧ ∃ x, g i.node = some x ∧ i.kind = x.kind ∧
    i.position = x.position ∧ i.cause.Holds g limits start i.node x

def Fault.Holds (start : NodeRef) : Fault → Prop
  | .issue i => i.Holds g limits start
  | .absent _ _ => True

end

variable {g : Graph} {limits : Limits} {start : NodeRef}

theorem Cause.Fits.holds {m : NodeRef} {x : Node} {c : Cause} (fits : c.Fits x.toAttributes) :
    c.Holds g limits start m x := by
  cases c with
  | malformedChain defect => exact fits.elim
  | unresolvableName defect => exact fits
  | unsupportedKind kind => exact fits
  | contractViolation violation =>
    cases violation with
    | fieldNotApplicable field => exact fits
    | missingField field => exact fits.elim
    | ancestorReference => exact fits.elim
    | depthExceeded limit => exact fits.elim
    | missingAttribute what => exact fits
    | literalMismatch => exact fits
    | unexpectedKind expected => exact fits

theorem Kind.mem_fields {k : Kind} {f : Field} (defined : k.defines f = true) : f ∈ k.fields := by
  simpa [Kind.defines] using defined

theorem ChainDefect.holds_of_walk {n m : NodeRef} {x : Node} {f : Field} {d : ChainDefect}
    (reached : ReflTransGen g.Edge start n) (found : g n = some x)
    (defined : x.kind.defines f = true)
    (stopped : (walk g.next limits.chainLength (x.field f)).defect = some (m, d)) :
    d.Holds g limits start m := by
  obtain ⟨ns, led, distinct, why⟩ := walk_defect stopped
  have chain : g.ChainTo start ns m :=
    ⟨n, x, f, reached, found, Kind.mem_fields defined, led, distinct⟩
  rcases why with ⟨member, rfl⟩ | ⟨fresh, rfl, full⟩
  · exact ⟨rfl, led.returns member, ns, chain, member, rfl⟩
  · exact ⟨rfl, ns, chain, fresh, full⟩

/-! ### Builds -/

structure Entering (g : Graph) (limits : Limits) (start : NodeRef) (room : Nat) (b : Builder)
    (n : NodeRef) : Prop where
  graph : b.graph = g
  limits : b.limits = limits
  nested : Nested g start b.path n
  distinct : b.path.Nodup
  room : room + b.path.length = b.limits.depth

namespace Entering

variable {room : Nat} {b : Builder} {n m : NodeRef}

theorem outermost (g : Graph) (limits : Limits) (start : NodeRef) :
    Entering g limits start limits.depth { graph := g, limits } start :=
  ⟨rfl, rfl, .outermost, .nil, rfl⟩

theorem push (h : Entering g limits start (room + 1) b n) (fresh : n ∉ b.path)
    (part : g.Child n m) : Entering g limits start room (b.push n) m where
  graph := h.graph
  limits := h.limits
  nested := h.nested.part part
  distinct := List.nodup_cons.mpr ⟨fresh, h.distinct⟩
  room := by
    have total := h.room
    simp only [Builder.push, List.length_cons]
    omega

theorem holds {y : Node} {c : Cause} (h : Entering g limits start room b n)
    (edges : ReflTransGen b.graph.Edge n m) (found : b.graph m = some y)
    (cause : c.Holds g limits start m y) : (y.issue m c).Holds g limits start := by
  rw [h.graph] at edges found
  exact ⟨h.nested.reached.trans edges, y, found, rfl, rfl, cause⟩

end Entering

theorem entering_accounts (g : Graph) (limits : Limits) (start : NodeRef) :
    Builder.Accounts (Fault.Holds g limits start) Builder.openTwice
      (Entering g limits start) where
  absent := by
    intros
    trivial
  fits := by
    intro room b n m y c known edges found fits
    exact known.holds edges found fits.holds
  missing := by
    intro room b n x f known found defined empty
    exact known.holds .refl found ⟨Kind.mem_fields defined, empty⟩
  malformed := by
    intro room b n x f m y d known found defined edges present stopped
    have found' : g n = some x := known.graph ▸ found
    rw [known.graph, known.limits] at stopped
    exact known.holds edges present
      (ChainDefect.holds_of_walk known.nested.reached found' defined stopped)
  ancestor := by
    intro room b n x known found turned
    have around : TransGen g.Edge n n :=
      known.nested.edges_open (Builder.openTwice_eq_true.mp turned)
    exact known.holds .refl found around
  deep := by
    intro b n x known found unbarred
    have fresh : n ∉ b.path := Builder.openTwice_eq_false.mp unbarred
    have full : b.path.length = b.limits.depth := by simpa using known.room
    rw [known.limits] at full ⊢
    exact known.holds .refl found
      ⟨rfl, b.path, known.nested, List.nodup_cons.mpr ⟨fresh, known.distinct⟩, full⟩
  child := by
    intro room b n m known unbarred part
    have fresh : n ∉ b.path := Builder.openTwice_eq_false.mp unbarred
    rw [known.graph] at part
    exact known.push fresh part

theorem build_issue_holds {b : Builder} {n : NodeRef} {f : Form} {i : Issue}
    (known : Entering g limits start b.room b n) (refused : b.build f n = .error (.issue i)) :
    i.Holds g limits start := by
  rw [Builder.build_eq_buildUnless] at refused
  exact (entering_accounts g limits start).enterUnless known f _ refused

theorem openFile_issue_holds {i : Issue} (refused : openFile g limits start = .error (.issue i)) :
    i.Holds g limits start :=
  (entering_accounts g limits start).openFile (.outermost g limits start) rfl _ refused

theorem openFile_entering {units : List NodeRef} {n : NodeRef}
    (opened : openFile g limits start = .ok units) (member : n ∈ units) :
    Entering g limits start (insideFile g limits start).room (insideFile g limits start) n where
  graph := rfl
  limits := rfl
  nested := openFile_nested opened member
  distinct := by simp [insideFile]
  room := by
    obtain ⟨_, _, _, deep, _⟩ := openFile_eq_ok opened
    simp only [insideFile, Builder.room, List.length_singleton]
    omega

/-- Every issue that a build reports is about a node that the start leads to, gives the kind and
position of that node, and is true of it. -/
theorem reported_issues_hold (g : Graph) (limits : Limits) (start : NodeRef) :
    (∀ (f : Form) (i : Issue), Builder.build { graph := g, limits } f start = .error (.issue i) →
      i.Holds g limits start) ∧
    (∀ i, buildDesignFile g limits start = .error (.issue i) → i.Holds g limits start) ∧
    (∀ i, buildNode g limits start = .error (.issue i) → i.Holds g limits start) ∧
    (∀ i, buildDesignUnits g limits start = .error (.issue i) → i.Holds g limits start) ∧
    (∀ results, buildDesignUnits g limits start = .ok results →
      ∀ i, .error i ∈ results → i.Holds g limits start) := by
  have known := Entering.outermost g limits start
  refine ⟨fun f i => build_issue_holds known, fun i => build_issue_holds (f := .designFile) known,
    fun i => build_issue_holds (f := .anyNode) known,
    fun i refused => openFile_issue_holds (openFile_of_issue refused), ?_⟩
  intro results built i reported
  obtain ⟨units, opened, pairs⟩ := buildDesignUnits_eq_ok built
  obtain ⟨n, member, refused⟩ := exists_of_forall₂ pairs reported
  exact build_issue_holds (openFile_entering opened member) refused

def endlessParentheses : Graph
  | ⟨0⟩ => some { kind := .parenthesis, position := some ⟨none, 3, 7⟩,
                  field := fun f => if f = .expression then some ⟨1⟩ else none }
  | ⟨1⟩ => some { kind := .parenthesis, position := some ⟨none, 3, 8⟩,
                  field := fun f => if f = .expression then some ⟨0⟩ else none }
  | _ => none

theorem endlessParentheses_reported :
    Builder.build { graph := endlessParentheses } .expression ⟨0⟩ =
        .error (.issue ⟨.contractViolation .ancestorReference, ⟨0⟩, .parenthesis,
          some ⟨none, 3, 7⟩⟩) ∧
      TransGen endlessParentheses.Edge ⟨0⟩ ⟨0⟩ := by
  have refused : Builder.build { graph := endlessParentheses } .expression ⟨0⟩ =
      .error (.issue ⟨.contractViolation .ancestorReference, ⟨0⟩, .parenthesis,
        some ⟨none, 3, 7⟩⟩) := rfl
  obtain ⟨_, _, _, _, _, around⟩ := (reported_issues_hold _ _ _).1 _ _ refused
  exact ⟨refused, around⟩

end VhdlDesign
