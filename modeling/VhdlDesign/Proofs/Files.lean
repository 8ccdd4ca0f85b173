import VhdlDesign.Proofs.Opening

/-!
Whole files.

Both ways to build a file look at its root and gather its design units first. `openFile` is that
part; what differs is what becomes of a design unit that cannot be built.
-/
namespace VhdlDesign

open Relation

variable {g : Graph} {limits : Limits} {root : NodeRef}

def insideFile (g : Graph) (limits : Limits) (root : NodeRef) : Builder :=
  { graph := g, limits, path := [root] }

def openFile (g : Graph) (limits : Limits) (root : NodeRef) : Except Fault (List NodeRef) := do
  let x ← ({ graph := g, limits } : Builder).node root
  if x.kind = .designFile then
    if 0 < limits.depth then (insideFile g limits root).elements (x.field .designUnits)
    else .error (x.issue root (.contractViolation (.depthExceeded limits.depth)))
  else .error (x.issue root (.unsupportedKind x.kind))

theorem openFile_missing (missing : g root = none) :
    openFile g limits root = .error (.absent root []) := by
  unfold openFile Builder.node
  simp only [missing]
  rfl

theorem openFile_eq {x : Node} (found : g root = some x) :
    openFile g limits root =
      if x.kind = .designFile then
        if 0 < limits.depth then (insideFile g limits root).elements (x.field .designUnits)
        else .error (x.issue root (.contractViolation (.depthExceeded limits.depth)))
      else .error (x.issue root (.unsupportedKind x.kind)) := by
  have node : ({ graph := g, limits } : Builder).node root = .ok x :=
    Builder.node_eq_ok.mpr found
  unfold openFile
  rw [node]
  rfl

theorem openFile_eq_ok {units : List NodeRef} (opened : openFile g limits root = .ok units) :
    ∃ x, g root = some x ∧ x.kind = .designFile ∧ 0 < limits.depth ∧
      Leads g.next (x.field .designUnits) units none := by
  obtain ⟨x, node, _⟩ := bind_eq_ok opened
  have found : g root = some x := Builder.node_eq_ok.mp node
  rw [openFile_eq found] at opened
  split at opened
  next kind =>
    split at opened
    next deep => exact ⟨x, found, kind, deep, Builder.elements_eq_ok opened⟩
    · cases opened
  · cases opened

theorem openFile_nested {units : List NodeRef} {n : NodeRef}
    (opened : openFile g limits root = .ok units) (member : n ∈ units) :
    Nested g root [root] n := by
  obtain ⟨x, found, kind, _, led⟩ := openFile_eq_ok opened
  refine .part .outermost ⟨x, .chain .designUnits .designUnit, .designUnit, found, ?_, rfl, units,
    led, member⟩
  rw [kind]
  exact List.mem_singleton_self _

namespace Builder

theorem expect_eq {b : Builder} {n : NodeRef} {x : Node} (node : b.node n = .ok x)
    (kinds : List Kind) :
    b.expect n kinds =
      if x.kind ∈ kinds then .ok x.kind else .error (x.issue n (.unsupportedKind x.kind)) := by
  unfold expect unsupported
  rw [node]
  rfl

theorem field?_eq {b : Builder} {n : NodeRef} {x : Node} {f : Field} (node : b.node n = .ok x)
    (defined : x.kind.defines f = true) : b.field? n f = .ok (x.field f) := by
  unfold field?
  rw [node]
  exact Node.edge?_eq defined n

theorem Accounts.openFile {P : Fault → Prop} {barred : List NodeRef → NodeRef → Bool}
    {Inv : Nat → Builder → NodeRef → Prop} (h : Accounts P barred Inv)
    (known : Inv limits.depth { graph := g, limits } root) (fresh : barred [] root = false) :
    OnlyRaises P (openFile g limits root) := by
  unfold VhdlDesign.openFile
  refine OnlyRaises.bind (node_onlyRaises (h.absent _ _ root root _ known .refl)) ?_
  intro x node
  have found : g root = some x := node_eq_ok.mp node
  split
  next kind =>
    split
    · have defined : x.kind.defines .designUnits = true := by
        rw [kind]
        rfl
      refine elements_onlyRaises ?_ ?_
      · intro m ns led missing
        have edges := (Graph.edges_of_chain found defined led).to_reflTransGen
        exact h.absent _ _ root m _ known edges missing
      · intro m y d ns led present stopped
        have edges := (Graph.edges_of_chain found defined led).to_reflTransGen
        exact h.malformed _ _ root x _ m y d known found defined edges present stopped
    next shallow =>
      have none : limits.depth = 0 := by omega
      rw [none] at known
      exact .error (h.deep _ root x known found fresh)
  · exact .error (h.fits _ _ root root x _ known .refl found rfl)

def descendUnless (barred : List NodeRef → NodeRef → Bool) (b : Builder) (n : NodeRef) :
    Except Fault Builder :=
  if barred b.path n then b.refuse n (.contractViolation .ancestorReference)
  else if b.path.length < b.limits.depth then .ok (b.push n)
  else b.refuse n (.contractViolation (.depthExceeded b.limits.depth))

end Builder

/-- Builds each design unit of a file by itself, as `buildDesignUnits` does, with another test. -/
def buildDesignUnitsUnless (barred : List NodeRef → NodeRef → Bool) (g : Graph) (limits : Limits)
    (root : NodeRef) : Except Fault (List (Except Issue DesignUnit)) := do
  let start : Builder := { graph := g, limits }
  discard (start.expect root [.designFile])
  let b ← start.descendUnless barred root
  let head ← b.field? root .designUnits
  let units ← b.elements head
  units.mapM fun n => settle (b.buildUnless barred .designUnit n)

theorem buildDesignUnits_eq_unless :
    buildDesignUnits g limits root = buildDesignUnitsUnless Builder.openTwice g limits root := by
  unfold buildDesignUnits buildDesignUnitsUnless
  simp only [Builder.build_eq_buildUnless, Builder.descend, Builder.descendUnless,
    Builder.openTwice_eq_true]

theorem buildDesignUnitsUnless_eq (barred : List NodeRef → NodeRef → Bool)
    (fresh : barred [] root = false) :
    buildDesignUnitsUnless barred g limits root = openFile g limits root >>= fun units =>
      units.mapM fun n => settle ((insideFile g limits root).buildUnless barred .designUnit n) := by
  unfold buildDesignUnitsUnless Builder.descendUnless
  cases found : g root with
  | none =>
    unfold Builder.expect Builder.node
    simp only [openFile_missing found, found]
    rfl
  | some x =>
    have node : ({ graph := g, limits } : Builder).node root = .ok x :=
      Builder.node_eq_ok.mpr found
    simp only [openFile_eq found, Builder.expect_eq node, fresh, List.mem_singleton]
    by_cases kind : x.kind = .designFile
    · have head : (insideFile g limits root).field? root .designUnits =
          .ok (x.field .designUnits) :=
        Builder.field?_eq (Builder.node_eq_ok.mpr found) (by rw [kind]; rfl)
      by_cases deep : 0 < limits.depth
      · simp only [if_pos kind, List.length_nil, if_pos deep]
        change (insideFile g limits root).field? root .designUnits >>= _ = _
        rw [head]
        rfl
      · simp only [if_pos kind, List.length_nil, if_neg deep, Builder.refuse, node]
        rfl
    · simp only [if_neg kind]
      rfl

/-! ### Units one by one -/

theorem settle_eq_ok {α : Type} {r : Except Fault α} {s : Except Issue α} :
    settle r = .ok s ↔ r = s.mapError .issue := by
  unfold settle
  cases s with
  | ok v => split <;> simp [Except.mapError]
  | error i => split <;> simp [Except.mapError]

theorem settle_onlyRaises {α : Type} (r : Except Fault α) :
    OnlyRaises (fun e => ∃ n path, e = .absent n path ∧ r = .error e) (settle r) := by
  cases r using Fault.resultCases with
  | ok v => exact .ok _
  | issue i => exact .ok _
  | absent n path => exact .error ⟨n, path, rfl, rfl⟩

theorem buildDesignUnits_eq :
    buildDesignUnits g limits root = openFile g limits root >>= fun units =>
      units.mapM fun n => settle ((insideFile g limits root).build .designUnit n) := by
  simp only [buildDesignUnits_eq_unless, buildDesignUnitsUnless_eq Builder.openTwice rfl,
    Builder.build_eq_buildUnless]

/-- Once the file is open, only a reference without a node can end the whole. -/
theorem buildDesignUnits_onlyRaises {units : List NodeRef}
    (opened : openFile g limits root = .ok units) :
    OnlyRaises (fun e => ∃ m path, e = .absent m path ∧ ReflTransGen g.Edge root m ∧ g m = none)
      (buildDesignUnits g limits root) := by
  rw [buildDesignUnits_eq, opened]
  refine OnlyRaises.mapM ?_
  intro n member e raised
  obtain ⟨m, path, rfl, absent⟩ := settle_onlyRaises _ e raised
  rw [Builder.build_eq_buildUnless] at absent
  obtain ⟨edges, missing⟩ := Builder.enterUnless_absent absent
  exact ⟨m, path, rfl, (openFile_nested opened member).reached.trans edges, missing⟩

theorem buildDesignUnits_issue (closed : g.Closed) (present : ∃ x, g root = some x) :
    OnlyRaises (fun e => ∃ i, e = .issue i) (buildDesignUnits g limits root) := by
  rw [buildDesignUnits_eq]
  have traced := Builder.traced_accounts g root Builder.openTwice
  refine OnlyRaises.bind
    (Builder.issues_of_traced closed present (traced.openFile ⟨rfl, .refl⟩ rfl)) ?_
  intro units opened
  refine OnlyRaises.mapM ?_
  intro n member e raised
  obtain ⟨m, path, rfl, absent⟩ := settle_onlyRaises _ e raised
  have reached := closed.reach (openFile_nested opened member).reached present
  rw [Builder.build_eq_buildUnless] at absent
  exact Builder.buildUnless_issue (b := insideFile g limits root) closed reached _ _ _ absent

theorem openFile_of_issue {i : Issue}
    (refused : buildDesignUnits g limits root = .error (.issue i)) :
    openFile g limits root = .error (.issue i) := by
  cases opened : openFile g limits root with
  | error e =>
    rw [buildDesignUnits_eq, opened] at refused
    cases refused
    rfl
  | ok units =>
    obtain ⟨m, path, absent, _⟩ := buildDesignUnits_onlyRaises opened _ refused
    cases absent

theorem buildDesignUnits_eq_ok {results : List (Except Issue DesignUnit)}
    (built : buildDesignUnits g limits root = .ok results) :
    ∃ units, openFile g limits root = .ok units ∧ List.Forall₂
      (fun n r => (insideFile g limits root).build .designUnit n = r.mapError .issue)
      units results := by
  rw [buildDesignUnits_eq] at built
  obtain ⟨units, opened, built⟩ := bind_eq_ok built
  refine ⟨units, opened, (mapM_eq_ok_iff.mp built).imp ?_⟩
  intro n r kept
  exact settle_eq_ok.mp kept

end VhdlDesign
