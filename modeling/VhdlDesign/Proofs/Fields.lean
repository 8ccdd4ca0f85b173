import VhdlDesign.Proofs.Files
import VhdlDesign.Proofs.History

/-!
Fields that are asked for.

A node may be asked only for the fields that its kind defines, and it is an issue if it is asked for
another. The recipes keep to that: whatever form is built, of whatever graph, the kind of a node has
been looked at before a field of it is asked for.
-/
namespace VhdlDesign

/-- The fault is not that a node was asked for a field that its kind does not define. -/
def Fault.WellAsked : Fault → Prop
  | .issue i => ∀ f, i.cause ≠ .contractViolation (.fieldNotApplicable f)
  | .absent _ _ => True

theorem Cause.Fits.ne_fieldNotApplicable {a : Attributes} {c : Cause} (fits : c.Fits a)
    (f : Field) : c ≠ .contractViolation (.fieldNotApplicable f) := by
  rintro rfl
  exact fits

theorem Node.edge?_eq_error {x : Node} {n : NodeRef} {f : Field} :
    x.edge? n f = .error (x.issue n (.contractViolation (.fieldNotApplicable f))) ↔
      f ∉ x.kind.fields := by
  unfold edge? Kind.defines
  by_cases defined : f ∈ x.kind.fields
  · simp [defined]
  · simp [defined]

namespace Builder

theorem wellAsked_accounts (barred : List NodeRef → NodeRef → Bool) :
    Accounts Fault.WellAsked barred (fun _ _ _ => True) where
  absent := by
    intros
    trivial
  fits := by
    intro room b n m y c _ _ _ fits
    exact fits.ne_fieldNotApplicable
  missing := by
    intros
    exact nofun
  malformed := by
    intros
    exact nofun
  ancestor := by
    intros
    exact nofun
  deep := by
    intros
    exact nofun
  child := by
    intros
    trivial

variable (b : Builder) (n : NodeRef)

theorem build_wellAsked (f : Form) : OnlyRaises Fault.WellAsked (b.build f n) := by
  rw [build_eq_buildUnless]
  exact (wellAsked_accounts openTwice).enterUnless trivial f

theorem buildOpen_wellAsked (f : Form) : OnlyRaises Fault.WellAsked (b.buildOpen f n) :=
  (wellAsked_accounts openTwice).buildOpen trivial (fun _ _ => trivial) f

theorem refuse_wellAsked {α : Type} {c : Cause}
    (other : ∀ f, c ≠ .contractViolation (.fieldNotApplicable f)) :
    OnlyRaises Fault.WellAsked (b.refuse n c : Except Fault α) :=
  refuse_onlyRaises (fun _ => trivial) fun _ _ => other

theorem make_wellAsked (maker : Maker) : OnlyRaises Fault.WellAsked (b.make n maker) := by
  cases maker with
  | build f => exact b.build_wellAsked n f
  | buildOpen f => exact b.buildOpen_wellAsked n f
  | identifier =>
    refine label_onlyRaises (fun _ => trivial) ?_
    intro x c _ refused
    exact (Attributes.identifier_fits refused).ne_fieldNotApplicable

theorem perform_wellAsked (o : Operation) : OnlyRaises Fault.WellAsked (b.perform o) := by
  induction o generalizing b with
  | make maker n => exact b.make_wellAsked n maker
  | chain maker head =>
    refine .bind (elements_onlyRaises ?_ ?_) fun ms _ => .mapM fun m _ => b.make_wellAsked m maker
    · intros
      trivial
    · intros
      exact nofun
  | inside n inner ih =>
    rw [perform_inside]
    split
    · exact b.refuse_wellAsked n nofun
    split
    · exact ih (b.push n)
    · exact b.refuse_wellAsked n nofun

end Builder

theorem openFile_wellAsked (g : Graph) (limits : Limits) (root : NodeRef) :
    OnlyRaises Fault.WellAsked (openFile g limits root) :=
  (Builder.wellAsked_accounts Builder.never).openFile trivial rfl

theorem buildDesignUnits_wellAsked (g : Graph) (limits : Limits) (root : NodeRef) :
    OnlyRaises Fault.WellAsked (buildDesignUnits g limits root) := by
  rw [buildDesignUnits_eq]
  refine .bind (openFile_wellAsked g limits root) fun units _ => .mapM ?_
  intro n _ e raised
  obtain ⟨m, path, rfl, _⟩ := settle_onlyRaises _ e raised
  trivial

/-- A node that is asked for a field that its kind does not define says so, and no build ever comes
to that: not from any node of any graph, in any form, opened or not, whatever is open already; not
as a whole file or in one of its design units; and not in what a context is told to do. -/
theorem only_defined_fields_are_asked (g : Graph) (limits : Limits) (n : NodeRef) :
    (∀ path f, OnlyRaises Fault.WellAsked (Builder.build ⟨g, limits, path⟩ f n) ∧
      OnlyRaises Fault.WellAsked (Builder.buildOpen ⟨g, limits, path⟩ f n)) ∧
    OnlyRaises Fault.WellAsked (buildNode g limits n) ∧
    OnlyRaises Fault.WellAsked (buildDesignFile g limits n) ∧
    OnlyRaises Fault.WellAsked (buildDesignUnits g limits n) ∧
    (∀ results, buildDesignUnits g limits n = .ok results →
      ∀ i, .error i ∈ results → (Fault.issue i).WellAsked) ∧
    (∀ o path, OnlyRaises Fault.WellAsked ((Setting.run ⟨g, limits⟩ o).run.run path).1) ∧
    ∀ path x f, g n = some x →
      (Builder.field? ⟨g, limits, path⟩ n f =
        .error (.issue ⟨.contractViolation (.fieldNotApplicable f), n, x.kind, x.position⟩) ↔
          f ∉ x.kind.fields) := by
  refine ⟨fun path f => ⟨Builder.build_wellAsked _ n f, Builder.buildOpen_wellAsked _ n f⟩,
    Builder.build_wellAsked _ n .anyNode, Builder.build_wellAsked _ n .designFile,
    buildDesignUnits_wellAsked g limits n, ?_, ?_, ?_⟩
  · intro results built i reported
    obtain ⟨units, _, pairs⟩ := buildDesignUnits_eq_ok built
    obtain ⟨m, _, refused⟩ := exists_of_forall₂ pairs reported
    exact Builder.build_wellAsked _ m .designUnit _ refused
  · intro o path
    rw [Setting.run_eq]
    exact Builder.perform_wellAsked _ o
  · intro path x f found
    have node : Builder.node ⟨g, limits, path⟩ n = .ok x := Builder.node_eq_ok.mpr found
    unfold Builder.field?
    rw [node]
    exact Node.edge?_eq_error

end VhdlDesign
