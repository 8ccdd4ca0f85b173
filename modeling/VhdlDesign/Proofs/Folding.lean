import VhdlDesign.Proofs.Mirror
import VhdlDesign.Proofs.Sharing

/-!
Folded graphs.

Nodes that say the same and lead to the same may be merged, and a node with several parents may be
copied for each of them. Merging makes a chain come back to an element, or a node a part of itself,
only where the chain was endless, or the node had no finite tree, before.
-/
namespace VhdlDesign

open Relation

/-- `h` takes every node of `p` to a node of `q` that says the same of itself and has the same edges
up to `h`, where every edge of `p` leads to a node. Several nodes of `p` may become one. -/
structure Graph.Folds (p q : Graph) (h : NodeRef → NodeRef) : Prop where
  closed : p.Closed
  node : ∀ n x, p n = some x → ∃ y, q (h n) = some y ∧ x.toAttributes.Same y.toAttributes ∧
    y.next = x.next.map h ∧ ∀ f, x.kind.defines f = true → y.field f = (x.field f).map h

namespace Graph.Folds

variable {p q : Graph} {h : NodeRef → NodeRef} {limits : Limits} {path path' : List NodeRef}
variable {n : NodeRef} {x : Node}

theorem alike (folds : p.Folds q h) (found : p n = some x) :
    ∃ y, q (h n) = some y ∧ x.Alike h y := by
  obtain ⟨y, found', same, next, field⟩ := folds.node n x found
  exact ⟨y, found', same, next, fun f followed => field f (Kind.defines_of_follows followed)⟩

theorem next (folds : p.Folds q h) (found : ∃ x, p n = some x) :
    q.next (h n) = (p.next n).map h := by
  obtain ⟨x, found⟩ := found
  obtain ⟨y, found', alike⟩ := folds.alike found
  exact alike.graph_next found found'

theorem edge (folds : p.Folds q h) {k : NodeRef} (found : p n = some x)
    (edge : q.Edge (h n) k) : ∃ m, p.Edge n m ∧ k = h m := by
  obtain ⟨y, found', same, _, field⟩ := folds.node n x found
  rcases edge with led | ⟨z, f, again, defined, held⟩
  · rw [folds.next ⟨x, found⟩] at led
    obtain ⟨m, onward, rfl⟩ := Option.map_eq_some_iff.mp led
    exact ⟨m, .inl onward, rfl⟩
  · cases found'.symm.trans again
    rw [same.kind] at defined
    rw [field f defined] at held
    obtain ⟨m, target, rfl⟩ := Option.map_eq_some_iff.mp held
    exact ⟨m, .inr ⟨x, f, found, defined, target⟩, rfl⟩

theorem reach (folds : p.Folds q h) {k : NodeRef} (found : p n = some x)
    (reached : ReflTransGen q.Edge (h n) k) : ∃ m y, p m = some y ∧ k = h m := by
  induction reached with
  | refl => exact ⟨n, x, found, rfl⟩
  | tail _ edge ih =>
    obtain ⟨m, y, present, rfl⟩ := ih
    obtain ⟨l, led, rfl⟩ := folds.edge present edge
    obtain ⟨z, last⟩ := folds.closed m l led
    exact ⟨l, z, last, rfl⟩

/-! ### Chains -/

section

variable {head : Option NodeRef}

theorem present_of_leads (folds : p.Folds q h) (first : ∀ m, head = some m → ∃ x, p m = some x)
    {ms : List NodeRef} {stop : Option NodeRef} (led : Leads p.next head ms stop) :
    ∀ m ∈ ms, ∃ x, p m = some x :=
  (led.all (fun n m _ onward => folds.closed n m (.inl onward)) first).1

theorem elements_of_leads (folds : p.Folds q h) (first : ∀ m, head = some m → ∃ x, p m = some x)
    {ms : List NodeRef} (led : Leads p.next head ms none) (short : ms.length ≤ limits.chainLength) :
    Builder.elements ⟨q, limits, path⟩ (head.map h) = .ok (ms.map h) := by
  have present := folds.present_of_leads first led
  -- the image of a chain that ends is a chain that ends, so merging puts no element in it twice
  have led' : Leads q.next (head.map h) (ms.map h) none :=
    led.map fun m member => folds.next (present m member)
  apply Builder.elements_of_leads led'
  · rw [List.length_map]
    exact short
  · intro k member
    obtain ⟨m, element, rfl⟩ := List.mem_map.mp member
    obtain ⟨x, found⟩ := present m element
    obtain ⟨y, found', _⟩ := folds.node m x found
    exact ⟨y, found'⟩

theorem leads_lift (folds : p.Folds q h) (first : ∀ m, head = some m → ∃ x, p m = some x)
    {ms' : List NodeRef} {stop' : Option NodeRef} (led : Leads q.next (head.map h) ms' stop') :
    ∃ ms stop, Leads p.next head ms stop ∧ ms' = ms.map h ∧ stop' = stop.map h ∧
      ∀ m, stop = some m → ∃ x, p m = some x :=
  led.lift (fun _ found => folds.next found) (fun n m _ led => folds.closed n m (.inl led)) first

theorem elements_lift (folds : p.Folds q h) (first : ∀ m, head = some m → ∃ x, p m = some x)
    {ms' : List NodeRef}
    (gathered : Builder.elements ⟨q, limits, path'⟩ (head.map h) = .ok ms') :
    ∃ ms, ms' = ms.map h ∧ Builder.elements ⟨p, limits, path⟩ head = .ok ms := by
  obtain ⟨ms, stop, led, rfl, ended, _⟩ := folds.leads_lift first (Builder.elements_eq_ok gathered)
  cases stop with
  | some m => cases ended
  | none =>
    have short := Builder.elements_length gathered
    rw [List.length_map] at short
    exact ⟨ms, rfl, Builder.elements_of_leads led short (folds.present_of_leads first led)⟩

theorem elements_issue (folds : p.Folds q h) (first : ∀ m, head = some m → ∃ x, p m = some x) :
    OnlyRaises (fun e => ∃ i, e = .issue i)
      (Builder.elements ⟨q, limits, path'⟩ (head.map h)) := by
  refine Builder.elements_onlyRaises ?_ (fun _ _ _ _ _ _ _ => ⟨_, rfl⟩)
  intro k ns led missing
  obtain ⟨_, stop, _, _, ended, present⟩ := folds.leads_lift first led
  obtain ⟨m, rfl, rfl⟩ := Option.map_eq_some_iff.mp ended.symm
  obtain ⟨x, found⟩ := present m rfl
  obtain ⟨y, found', _⟩ := folds.node m x found
  cases missing.symm.trans found'

/-- Chains end together, although a merged chain that does not end may come back to an element
sooner than the chain that it comes from. -/
theorem gathered (folds : p.Folds q h) (first : ∀ m, head = some m → ∃ x, p m = some x) :
    Mirrors (fun ms ms' => ms' = ms.map h) (fun _ _ => True)
      (Builder.elements ⟨p, limits, path⟩ head)
      (Builder.elements ⟨q, limits, path'⟩ (head.map h)) := by
  cases result : Builder.elements ⟨p, limits, path⟩ head with
  | ok ms =>
    have led := Builder.elements_eq_ok result
    rw [folds.elements_of_leads first led (Builder.elements_length result)]
    exact .ok rfl
  | error e =>
    cases result' : Builder.elements ⟨q, limits, path'⟩ (head.map h) with
    | ok ms' =>
      obtain ⟨ms, _, ended⟩ := folds.elements_lift first result'
      cases ended.symm.trans result
    | error e' =>
      obtain ⟨j, rfl⟩ := folds.elements_issue first e' result'
      cases e with
      | issue i => exact .issue trivial
      | absent m path => exact .absent m path _

end

theorem mirror (folds : p.Folds q h) (limits : Limits) :
    Mirror (fun _ _ => True) limits p q h (fun n => ∃ x, p n = some x) where
  node := fun _ _ _ found => folds.alike found
  inside := fun n m _ followed => folds.closed n m followed.edge
  issue := fun _ _ _ _ _ _ _ _ => trivial
  gathered := fun _ _ _ first => folds.gathered first

/-! ### Builds -/

theorem issue_of_build (folds : p.Folds q h) (found : p n = some x) (f : Form) :
    OnlyRaises (fun e => ∃ i, e = .issue i) (Builder.build ⟨q, limits, path⟩ f (h n)) := by
  intro e raised
  cases e with
  | issue i => exact ⟨i, rfl⟩
  | absent k opened =>
    rw [Builder.build_eq_buildUnless] at raised
    obtain ⟨reached, missing⟩ := Builder.enterUnless_absent raised
    obtain ⟨m, y, present, rfl⟩ := folds.reach found reached
    obtain ⟨z, present', _⟩ := folds.node m y present
    cases missing.symm.trans present'

-- The test for open nodes compares references, which merging changes. It decides nothing about
-- values, so the two builds are compared without it.
theorem build_mirrors (folds : p.Folds q h) {start start' : NodeRef}
    (nested : Nested p start path n) (nested' : Nested q start' path' (h n))
    (long : path'.length = path.length) (found : p n = some x) (f : Form) :
    Mirrors Eq (fun _ _ => True) (Builder.build ⟨p, limits, path⟩ f n)
      (Builder.build ⟨q, limits, path'⟩ f (h n)) := by
  have free := (folds.mirror limits).buildUnless_mirrors .never trivial long ⟨x, found⟩ f
  have issues (barred) := Builder.buildUnless_issue (b := ⟨p, limits, path⟩) folds.closed
    ⟨x, found⟩ barred f
  refine .of_eq_ok_iff ?_ (folds.issue_of_build found f) ?_
  · rw [Builder.build_eq_buildUnless]
    exact issues Builder.openTwice
  · intro v
    rw [Builder.build_eq_ok_iff (b := ⟨p, limits, path⟩) nested,
      Builder.build_eq_ok_iff (b := ⟨q, limits, path'⟩) nested']
    exact free.eq_ok_iff (issues Builder.never) v

theorem fresh_mirrors (folds : p.Folds q h) (found : p n = some x) (f : Form) :
    Mirrors Eq (fun _ _ => True) (Builder.build ⟨p, limits, []⟩ f n)
      (Builder.build ⟨q, limits, []⟩ f (h n)) :=
  folds.build_mirrors .outermost .outermost rfl found f

theorem build_eq_ok_iff (folds : p.Folds q h) (limits : Limits) (found : p n = some x) (f : Form)
    (v : f.Value) :
    Builder.build ⟨p, limits, []⟩ f n = .ok v ↔
      Builder.build ⟨q, limits, []⟩ f (h n) = .ok v := by
  refine (folds.fresh_mirrors found f).eq_ok_iff ?_ v
  rw [Builder.build_eq_buildUnless]
  exact Builder.buildUnless_issue folds.closed ⟨x, found⟩ Builder.openTwice f

theorem buildOpen_eq_ok_iff (folds : p.Folds q h) (limits : Limits) (found : p n = some x)
    (f : Form) (v : f.Value) :
    Builder.buildOpen ⟨p, limits, []⟩ f n = .ok v ↔
      Builder.buildOpen ⟨q, limits, []⟩ f (h n) = .ok v := by
  have parts : ∀ f m, (∃ x, p m = some x) → Mirrors Eq (fun _ _ => True)
      (Builder.build ⟨p, limits, []⟩ f m) (Builder.build ⟨q, limits, []⟩ f (h m)) := by
    rintro f m ⟨x, found⟩
    exact folds.fresh_mirrors found f
  have mirrors := (folds.mirror limits).buildOpen_mirrors ⟨x, found⟩ parts f
  exact mirrors.eq_ok_iff (Builder.buildOpen_issue folds.closed ⟨x, found⟩ f) v

theorem buildDesignUnits_cases (folds : p.Folds q h) (limits : Limits) (found : p n = some x) :
    (∃ results results', buildDesignUnits p limits n = .ok results ∧
        buildDesignUnits q limits (h n) = .ok results' ∧
        List.Forall₂ (fun r r' => ∀ u, r = .ok u ↔ r' = .ok u) results results') ∨
      ∃ i i', buildDesignUnits p limits n = .error (.issue i) ∧
        buildDesignUnits q limits (h n) = .error (.issue i') := by
  have issues : OnlyRaises _ (buildDesignUnits p limits n) :=
    buildDesignUnits_issue folds.closed ⟨x, found⟩
  have mirrors := (folds.mirror limits).buildDesignUnits_mirrors ⟨x, found⟩ (by
    rintro units opened opened' m member ⟨y, present⟩
    have nested := openFile_nested opened member
    have nested' := openFile_nested opened' (List.mem_map_of_mem member)
    exact folds.build_mirrors nested nested' rfl present .designUnit)
  generalize buildDesignUnits p limits n = r at issues mirrors
  generalize buildDesignUnits q limits (h n) = r' at mirrors
  cases mirrors with
  | ok pairs =>
    refine .inl ⟨_, _, rfl, rfl, pairs.imp ?_⟩
    intro s s' same u
    rcases same.of_mapError with ⟨v, _, rfl, rfl, rfl⟩ | ⟨i, j, rfl, rfl, _⟩
    · exact Iff.rfl
    · simp
  | issue _ => exact .inr ⟨_, _, rfl, rfl⟩
  | absent m path =>
    obtain ⟨i, other⟩ := issues _ rfl
    cases other

end Graph.Folds

theorem map_ok_iff {α : Type} {results results' : List (Except Issue α)}
    (same : List.Forall₂ (fun r r' => ∀ u, r = .ok u ↔ r' = .ok u) results results')
    (units : List α) : results = units.map .ok ↔ results' = units.map .ok := by
  induction same generalizing units with
  | nil => rfl
  | cons first _ ih =>
    cases units with
    | nil => simp
    | cons u units => simp only [List.map_cons, List.cons.injEq, first u, ih units]

/-- Sharing cannot be seen in what is built. A node can be built exactly if its image under a fold
can, and the values are the same. Of design units that are built one by one this holds for each. -/
theorem sharing_is_unobservable {p q : Graph} {h : NodeRef → NodeRef} (folds : p.Folds q h)
    (limits : Limits) {n : NodeRef} {x : Node} (found : p n = some x) :
    (∀ (f : Form) (v : f.Value),
      (Builder.build ⟨p, limits, []⟩ f n = .ok v ↔
        Builder.build ⟨q, limits, []⟩ f (h n) = .ok v) ∧
      (Builder.buildOpen ⟨p, limits, []⟩ f n = .ok v ↔
        Builder.buildOpen ⟨q, limits, []⟩ f (h n) = .ok v)) ∧
    (∀ v, buildDesignFile p limits n = .ok v ↔ buildDesignFile q limits (h n) = .ok v) ∧
    (∀ v, buildNode p limits n = .ok v ↔ buildNode q limits (h n) = .ok v) ∧
    (∀ units : List DesignUnit, buildDesignUnits p limits n = .ok (units.map .ok) ↔
      buildDesignUnits q limits (h n) = .ok (units.map .ok)) ∧
    ((∃ results results', buildDesignUnits p limits n = .ok results ∧
        buildDesignUnits q limits (h n) = .ok results' ∧
        List.Forall₂ (fun r r' => ∀ u, r = .ok u ↔ r' = .ok u) results results') ∨
      ∃ i i', buildDesignUnits p limits n = .error (.issue i) ∧
        buildDesignUnits q limits (h n) = .error (.issue i')) := by
  have built := folds.build_eq_ok_iff limits found
  have opened := folds.buildOpen_eq_ok_iff limits found
  have units := folds.buildDesignUnits_cases limits found
  refine ⟨fun f v => ⟨built f v, opened f v⟩, built .designFile, built .anyNode, ?_, units⟩
  intro values
  rcases units with ⟨results, results', all, all', same⟩ | ⟨i, i', refused, refused'⟩
  · rw [all, all', Except.ok.injEq, Except.ok.injEq]
    exact map_ok_iff same values
  · rw [refused, refused']
    constructor
    · intro built
      cases built
    · intro built
      cases built

def copiedOperand : Graph
  | ⟨0⟩ => some { kind := .integerLiteral, literal := some (.integer 1) }
  | ⟨1⟩ => some { kind := .parenthesis,
                  field := fun f => if f = .expression then some ⟨3⟩ else none }
  | ⟨2⟩ => some { kind := .additionOperator,
                  field := fun f =>
                    if f = .left then some ⟨0⟩ else if f = .right then some ⟨1⟩ else none }
  | ⟨3⟩ => some { kind := .integerLiteral, literal := some (.integer 1) }
  | _ => none

def mergeOperands : NodeRef → NodeRef
  | ⟨3⟩ => ⟨0⟩
  | n => n

theorem copiedOperand_closed : copiedOperand.Closed := by
  rintro ⟨n⟩ m (edge | ⟨x, f, found, _, held⟩)
  · match n with
    | 0 | 1 | 2 | 3 | n + 4 => cases edge
  · match n with
    | 0 | 3 =>
      cases found
      cases held
    | 1 =>
      cases found
      dsimp only at held
      split at held
      · cases held
        exact ⟨_, rfl⟩
      · cases held
    | 2 =>
      cases found
      dsimp only at held
      split at held
      · cases held
        exact ⟨_, rfl⟩
      · split at held
        · cases held
          exact ⟨_, rfl⟩
        · cases held
    | n + 4 => cases found

theorem copiedOperand_folds : copiedOperand.Folds sharedOperand mergeOperands where
  closed := copiedOperand_closed
  node := by
    rintro ⟨n⟩ x found
    match n with
    | 0 | 3 =>
      cases found
      exact ⟨_, rfl, .refl _, rfl, fun _ _ => rfl⟩
    | 1 =>
      cases found
      refine ⟨_, rfl, .refl _, rfl, ?_⟩
      intro f _
      dsimp only
      split <;> rfl
    | 2 =>
      cases found
      refine ⟨_, rfl, .refl _, rfl, ?_⟩
      intro f _
      dsimp only
      split
      · rfl
      · split <;> rfl
    | n + 4 => cases found

theorem copiedOperand_built :
    copiedOperand.Folds sharedOperand mergeOperands ∧
      mergeOperands ⟨3⟩ = mergeOperands ⟨0⟩ ∧
      Builder.build ⟨sharedOperand, ⟨0, 3⟩, []⟩ .expression ⟨2⟩ =
        .ok (.binary .add (.integer 1) (.parenthesis (.integer 1))) := by
  refine ⟨copiedOperand_folds, rfl, ?_⟩
  have same := sharing_is_unobservable copiedOperand_folds ⟨0, 3⟩ (n := ⟨2⟩) rfl
  exact (same.1 .expression _).1.mp rfl

end VhdlDesign
