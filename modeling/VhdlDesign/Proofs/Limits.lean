import VhdlDesign.Proofs.Files

/-!
Looser limits.

A build under looser limits goes the same way as one under tighter limits up to where a limit stops
this one. Ancestors are looked for before the depth is, and a repeated element of a chain before its
length, so that a looser limit never lets another issue come first.
-/
namespace VhdlDesign

open Relation

def Cause.IsLimit : Cause → Prop
  | .contractViolation (.depthExceeded _) => True
  | .malformedChain (.tooLong _) => True
  | _ => False

/-- The second result is the first, unless the first is about a limit. -/
def Outlasts {α : Type} (r r' : Except Fault α) : Prop :=
  (∀ v, r = .ok v → r' = .ok v) ∧
    ∀ i, r = .error (.issue i) → ¬ i.cause.IsLimit → r' = .error (.issue i)

/-- A fault after which looser limits may lead elsewhere: a limit was reached, or there was no node
behind a reference. -/
def Fault.Cut : Fault → Prop
  | .issue i => i.cause.IsLimit
  | .absent _ _ => True

theorem Follows.outlasts {α : Type} {r r' : Except Fault α} (h : Follows Fault.Cut r r') :
    Outlasts r r' :=
  ⟨fun _ built => h.ok built, fun _ refused other => h.error refused other⟩

namespace Builder

variable {b : Builder} {loose : Limits} {f : Form} {n : NodeRef}

theorem elements_follows (longer : b.limits.chainLength ≤ loose.chainLength)
    (head : Option NodeRef) :
    Follows Fault.Cut (b.elements head) ((b.under loose).elements head) := by
  rcases walk_more longer b.graph.next head with ⟨m, stopped⟩ | same
  · have cut : OnlyRaises Fault.Cut (b.elements head) := by
      refine elements_onlyRaises (fun _ _ _ _ => trivial) ?_
      intro k y d _ _ _ found
      rw [stopped] at found
      cases found
      exact trivial
    cases result : b.elements head with
    | ok ms =>
      rw [(elements_sound result).1] at stopped
      cases stopped
    | error e => exact .excuse (cut e result) _
  · have alike : (b.under loose).elements head = b.elements head := by
      unfold elements under
      simp only [same]
      rfl
    exact .inl alike

theorem looser_matches {tight : Limits} (longer : tight.chainLength ≤ loose.chainLength) :
    Matches Fault.Cut openTwice openTwice loose (fun _ b _ => b.limits = tight) where
  turned := fun _ _ _ _ _ differs => absurd rfl differs
  absent := fun _ _ _ _ => trivial
  deep := fun _ _ _ _ _ => trivial
  gathered := by
    intro _ b n head same
    exact elements_follows (b := b.push n) (same ▸ longer) head
  child := fun _ _ _ _ same _ _ => same

theorem build_follows (deeper : b.limits.depth ≤ loose.depth)
    (longer : b.limits.chainLength ≤ loose.chainLength) (f : Form) (n : NodeRef) :
    Follows Fault.Cut (b.build f n) ((b.under loose).build f n) := by
  have wider : b.room ≤ (b.under loose).room := by
    simp only [room, under]
    omega
  rw [build_eq_buildUnless, build_eq_buildUnless]
  exact (looser_matches longer).enterUnless rfl wider f

theorem buildOpen_follows (deeper : b.limits.depth ≤ loose.depth)
    (longer : b.limits.chainLength ≤ loose.chainLength) (f : Form) (n : NodeRef) :
    Follows Fault.Cut (b.buildOpen f n) ((b.under loose).buildOpen f n) := by
  refine Follows.bind (.refl (b.node n)) ?_
  intro x _
  apply carryOut_follows (Grammar.recipe_puts f x.toAttributes).keeps
  intro q _
  exact answer_follows (elements_follows longer) fun f m _ => build_follows deeper longer f m

end Builder

variable {g : Graph} {tight loose : Limits} {root : NodeRef}

theorem openFile_follows (deeper : tight.depth ≤ loose.depth)
    (longer : tight.chainLength ≤ loose.chainLength) :
    Follows Fault.Cut (openFile g tight root) (openFile g loose root) := by
  cases found : g root with
  | none =>
    rw [openFile_missing found, openFile_missing found]
    exact .refl _
  | some x =>
    rw [openFile_eq found, openFile_eq found]
    split
    · by_cases deep : 0 < tight.depth
      · rw [if_pos deep, if_pos (Nat.lt_of_lt_of_le deep deeper)]
        exact Builder.elements_follows (b := insideFile g tight root) longer _
      · rw [if_neg deep]
        exact .excuse trivial _
    · exact .refl _

theorem mapError_follows {α : Type} {r r' : Except Issue α}
    (h : Follows Fault.Cut (r.mapError .issue) (r'.mapError .issue)) :
    r' = r ∨ ∃ i, r = .error i ∧ i.cause.IsLimit := by
  cases r with
  | ok v =>
    have same := h.ok rfl
    cases r' with
    | ok w =>
      cases same
      exact .inl rfl
    | error i => cases same
  | error i =>
    by_cases limit : i.cause.IsLimit
    · exact .inr ⟨i, rfl, limit⟩
    · have same := h.error rfl limit
      cases r' with
      | ok w => cases same
      | error i' =>
        cases same
        exact .inl rfl

theorem buildDesignUnits_looser (deeper : tight.depth ≤ loose.depth)
    (longer : tight.chainLength ≤ loose.chainLength) {results : List (Except Issue DesignUnit)}
    (built : buildDesignUnits g tight root = .ok results) :
    (∃ results', buildDesignUnits g loose root = .ok results' ∧
        List.Forall₂ (fun r r' => r' = r ∨ ∃ i, r = .error i ∧ i.cause.IsLimit)
          results results') ∨
      ∃ m path, buildDesignUnits g loose root = .error (.absent m path) ∧
        ReflTransGen g.Edge root m ∧ g m = none := by
  obtain ⟨units, opened, pairs⟩ := buildDesignUnits_eq_ok built
  have opened' : openFile g loose root = .ok units := (openFile_follows deeper longer).ok opened
  cases built' : buildDesignUnits g loose root with
  | ok results' =>
    obtain ⟨_, again, pairs'⟩ := buildDesignUnits_eq_ok built'
    cases opened'.symm.trans again
    refine .inl ⟨results', rfl, forall₂_join pairs pairs' ?_⟩
    intro n _ r r' first second
    have follows := Builder.build_follows (b := insideFile g tight root) deeper longer .designUnit n
    change Follows _ _ ((insideFile g loose root).build .designUnit n) at follows
    rw [first, second] at follows
    exact mapError_follows follows
  | error e =>
    obtain ⟨m, path, rfl, edges, missing⟩ := buildDesignUnits_onlyRaises opened' e built'
    exact .inr ⟨m, path, rfl, edges, missing⟩

/-- Limits are monotone. A result that is not about a limit is the result under all looser limits,
at every node and whatever is open. Of design units that are built one by one this holds for the
whole and for each, unless past the old limits there is a reference without a node. -/
theorem looser_limits_keep_results (g : Graph) {tight loose : Limits}
    (deeper : tight.depth ≤ loose.depth) (longer : tight.chainLength ≤ loose.chainLength)
    (n : NodeRef) :
    (∀ (path : List NodeRef) (f : Form),
      Outlasts (Builder.build ⟨g, tight, path⟩ f n) (Builder.build ⟨g, loose, path⟩ f n) ∧
      Outlasts (Builder.buildOpen ⟨g, tight, path⟩ f n)
        (Builder.buildOpen ⟨g, loose, path⟩ f n)) ∧
    Outlasts (buildDesignFile g tight n) (buildDesignFile g loose n) ∧
    Outlasts (buildNode g tight n) (buildNode g loose n) ∧
    (∀ i, buildDesignUnits g tight n = .error (.issue i) → ¬ i.cause.IsLimit →
      buildDesignUnits g loose n = .error (.issue i)) ∧
    (∀ results, buildDesignUnits g tight n = .ok results →
      (∃ results', buildDesignUnits g loose n = .ok results' ∧
          List.Forall₂ (fun r r' => r' = r ∨ ∃ i, r = .error i ∧ i.cause.IsLimit)
            results results') ∨
        ∃ m path, buildDesignUnits g loose n = .error (.absent m path) ∧
          ReflTransGen g.Edge n m ∧ g m = none) := by
  have built : ∀ path f,
      Outlasts (Builder.build ⟨g, tight, path⟩ f n) (Builder.build ⟨g, loose, path⟩ f n) := by
    intro path f
    exact (Builder.build_follows (b := ⟨g, tight, path⟩) deeper longer f n).outlasts
  refine ⟨fun path f => ⟨built path f, ?_⟩, built [] .designFile, built [] .anyNode, ?_, ?_⟩
  · exact (Builder.buildOpen_follows (b := ⟨g, tight, path⟩) deeper longer f n).outlasts
  · intro i refused other
    have opened := (openFile_follows deeper longer).error (openFile_of_issue refused) other
    rw [buildDesignUnits_eq, opened]
    rfl
  · exact fun results => buildDesignUnits_looser deeper longer

def unfinishedLiteral : Graph
  | ⟨0⟩ => some { kind := .parenthesis,
                  field := fun f => if f = .expression then some ⟨1⟩ else none }
  | ⟨1⟩ => some { kind := .integerLiteral }
  | _ => none

theorem unfinishedLiteral_outlasts :
    Builder.build ⟨unfinishedLiteral, ⟨0, 2⟩, []⟩ .expression ⟨0⟩ =
        .error (.issue ⟨.contractViolation (.missingAttribute "literal"), ⟨1⟩, .integerLiteral,
          none⟩) ∧
      Builder.build ⟨unfinishedLiteral, {}, []⟩ .expression ⟨0⟩ =
        .error (.issue ⟨.contractViolation (.missingAttribute "literal"), ⟨1⟩, .integerLiteral,
          none⟩) := by
  have refused : Builder.build ⟨unfinishedLiteral, ⟨0, 2⟩, []⟩ .expression ⟨0⟩ =
      .error (.issue ⟨.contractViolation (.missingAttribute "literal"), ⟨1⟩, .integerLiteral,
        none⟩) := rfl
  have deeper : (⟨0, 2⟩ : Limits).depth ≤ ({} : Limits).depth := by decide
  have longer : (⟨0, 2⟩ : Limits).chainLength ≤ ({} : Limits).chainLength := by decide
  have kept := looser_limits_keep_results unfinishedLiteral deeper longer ⟨0⟩
  exact ⟨refused, (kept.1 [] .expression).1.2 _ refused (fun limit => limit)⟩

end VhdlDesign
