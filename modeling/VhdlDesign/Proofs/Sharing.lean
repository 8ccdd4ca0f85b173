import VhdlDesign.Proofs.Files

/-!
Shared nodes.

A builder turns away a node that is open. A node may have several parents all the same: without the
test no node that is part of itself can be built either, since the depth limit ends every attempt.
-/
namespace VhdlDesign

open Relation

namespace Builder

variable {barred barred' : List NodeRef → NodeRef → Bool} {b : Builder} {f : Form}
variable {n start : NodeRef} {room : Nat}

/-- Values carry over to another test if nothing can be built where the tests differ. -/
theorem enterUnless_carries (Inv : Builder → NodeRef → Prop)
    (differ : ∀ room b f n v, Inv b n → barred b.path n ≠ barred' b.path n →
      enterUnless barred room b f n ≠ .ok v)
    (child : ∀ b n m, Inv b n → b.graph.Child n m → Inv (b.push n) m) (known : Inv b n)
    {v : f.Value} (built : enterUnless barred room b f n = .ok v) :
    enterUnless barred' room b f n = .ok v := by
  have matched : Matches (fun _ => True) barred barred' b.limits
      (fun _ b' k => b'.limits = b.limits ∧ Inv b' k) := {
    turned := by
      intro room' b' f' k known differs
      cases result : enterUnless barred room' b' f' k with
      | error e => exact ⟨e, rfl, trivial⟩
      | ok w => exact absurd result (differ room' b' f' k w known.2 differs)
    absent := fun _ _ _ _ => trivial
    deep := fun _ _ _ _ _ => trivial
    gathered := by
      intro _ b' k head known
      rw [← known.1]
      exact .refl _
    child := fun _ b' k m known _ part => ⟨known.1, child b' k m known.2 part⟩ }
  exact (matched.enterUnless ⟨rfl, known⟩ (Nat.le_refl room) f).ok built

theorem never_of_openTwice {v : f.Value} (built : enterUnless openTwice room b f n = .ok v) :
    enterUnless never room b f n = .ok v := by
  refine enterUnless_carries (fun _ _ => True) ?_ (fun _ _ _ _ _ => trivial) trivial built
  intro room b f n v _ differs built
  obtain ⟨_, _, _, unbarred, _⟩ := enterUnless_eq_ok built
  exact differs unbarred

/-- The nodes that the test turns away cannot be built without it. -/
theorem openTwice_of_never (nested : Nested b.graph start b.path n) {v : f.Value}
    (built : enterUnless never room b f n = .ok v) : enterUnless openTwice room b f n = .ok v := by
  refine enterUnless_carries (fun b n => Nested b.graph start b.path n) ?_
    (fun _ _ _ nested part => nested.part part) nested built
  intro room b f n v nested differs built
  have member : n ∈ b.path := by simpa [never, openTwice_eq_true] using differs
  have around : TransGen b.graph.Child n n := nested.below_open member
  have builds : Builds never b.graph room n := ⟨b, f, v, rfl, built⟩
  exact builds.acyclic around

theorem build_eq_ok_iff (nested : Nested b.graph start b.path n) (v : f.Value) :
    b.build f n = .ok v ↔ b.buildUnless never f n = .ok v := by
  rw [build_eq_buildUnless]
  exact ⟨never_of_openTwice, openTwice_of_never nested⟩

theorem buildUnless_issue_of_build (closed : b.graph.Closed)
    (nested : Nested b.graph start b.path n) {i : Issue}
    (refused : b.build f n = .error (.issue i)) :
    ∃ i', b.buildUnless never f n = .error (.issue i') := by
  cases found : b.graph n with
  | none =>
    rw [build_eq_buildUnless] at refused
    obtain ⟨path, absent⟩ := enterUnless_missing found f _ refused
    cases absent
  | some x =>
    cases result : b.buildUnless never f n with
    | ok v =>
      rw [(build_eq_ok_iff nested v).mpr result] at refused
      cases refused
    | error e =>
      obtain ⟨i', rfl⟩ := buildUnless_issue closed ⟨x, found⟩ never f e result
      exact ⟨i', rfl⟩

end Builder

theorem settle_of_issues {α : Type} {r : Except Fault α}
    (issues : OnlyRaises (fun e => ∃ i, e = .issue i) r) :
    ∃ s, settle r = .ok s ∧ ∀ v, s = .ok v ↔ r = .ok v := by
  cases r with
  | ok v => exact ⟨.ok v, rfl, fun w => by simp⟩
  | error e =>
    obtain ⟨i, rfl⟩ := issues e rfl
    exact ⟨.error i, rfl, fun w => by simp⟩

variable {g : Graph}

theorem units_openTwice_never {limits : Limits} {root : NodeRef} {units : List NodeRef}
    (closed : g.Closed) (opened : openFile g limits root = .ok units) :
    ∃ results results',
      (units.mapM fun n =>
        settle ((insideFile g limits root).buildUnless Builder.openTwice .designUnit n)) =
          .ok results ∧
      (units.mapM fun n =>
        settle ((insideFile g limits root).buildUnless Builder.never .designUnit n)) =
          .ok results' ∧
      List.Forall₂ (fun r r' => ∀ u, r = .ok u ↔ r' = .ok u) results results' := by
  obtain ⟨x, found, _⟩ := openFile_eq_ok opened
  apply mapM_both
  intro n member
  have nested := openFile_nested opened member
  have present : ∃ y, g n = some y := closed.reach nested.reached ⟨x, found⟩
  have issues := Builder.buildUnless_issue (b := insideFile g limits root) closed present
  obtain ⟨s, kept, same⟩ := settle_of_issues (issues Builder.openTwice .designUnit)
  obtain ⟨s', kept', same'⟩ := settle_of_issues (issues Builder.never .designUnit)
  refine ⟨s, s', kept, kept', fun u => ?_⟩
  have iff := Builder.build_eq_ok_iff (b := insideFile g limits root) (f := .designUnit) nested u
  rw [Builder.build_eq_buildUnless] at iff
  exact (same u).trans (iff.trans (same' u).symm)

/-- Turning away the nodes that are open refuses only what has no finite tree: whatever is built
without the test is built with it, and is the same. -/
theorem open_nodes_turned_away_are_endless (closed : g.Closed) (limits : Limits) (n : NodeRef) :
    (∀ (f : Form) (v : f.Value), Builder.build { graph := g, limits } f n = .ok v ↔
      Builder.buildUnless Builder.never { graph := g, limits } f n = .ok v) ∧
    (∀ (f : Form) (i : Issue), Builder.build { graph := g, limits } f n = .error (.issue i) →
      ∃ i', Builder.buildUnless Builder.never { graph := g, limits } f n = .error (.issue i')) ∧
    (∀ v, buildDesignFile g limits n = .ok v ↔
      Builder.buildUnless Builder.never { graph := g, limits } .designFile n = .ok v) ∧
    (∀ v, buildNode g limits n = .ok v ↔
      Builder.buildUnless Builder.never { graph := g, limits } .anyNode n = .ok v) ∧
    ((∃ results results', buildDesignUnits g limits n = .ok results ∧
        buildDesignUnitsUnless Builder.never g limits n = .ok results' ∧
        List.Forall₂ (fun r r' => ∀ u, r = .ok u ↔ r' = .ok u) results results') ∨
      ∃ e, buildDesignUnits g limits n = .error e ∧
        buildDesignUnitsUnless Builder.never g limits n = .error e) := by
  have nested : Nested g n [] n := .outermost
  refine ⟨fun f v => Builder.build_eq_ok_iff nested v,
    fun f i refused => Builder.buildUnless_issue_of_build closed nested refused,
    fun v => Builder.build_eq_ok_iff (f := .designFile) nested v,
    fun v => Builder.build_eq_ok_iff (f := .anyNode) nested v, ?_⟩
  rw [buildDesignUnits_eq_unless, buildDesignUnitsUnless_eq Builder.openTwice rfl,
    buildDesignUnitsUnless_eq Builder.never rfl]
  cases opened : openFile g limits n with
  | error e => exact .inr ⟨e, rfl, rfl⟩
  | ok units => exact .inl (units_openTwice_never closed opened)

def sharedOperand : Graph
  | ⟨0⟩ => some { kind := .integerLiteral, literal := some (.integer 1) }
  | ⟨1⟩ => some { kind := .parenthesis,
                  field := fun f => if f = .expression then some ⟨0⟩ else none }
  | ⟨2⟩ => some { kind := .additionOperator,
                  field := fun f =>
                    if f = .left then some ⟨0⟩ else if f = .right then some ⟨1⟩ else none }
  | _ => none

theorem sharedOperand_closed : sharedOperand.Closed := by
  rintro ⟨n⟩ m (edge | ⟨x, f, found, _, held⟩)
  · match n with
    | 0 | 1 | 2 | n + 3 => cases edge
  · match n with
    | 0 =>
      cases found
      cases held
    | 1 =>
      cases found
      dsimp only at held
      split at held
      · cases held
        exact ⟨_, rfl⟩
      · cases held
    | 2 =>
      cases found
      dsimp only at held
      split at held
      · cases held
        exact ⟨_, rfl⟩
      · split at held
        · cases held
          exact ⟨_, rfl⟩
        · cases held
    | n + 3 => cases found

theorem sharedOperand_built :
    sharedOperand.Closed ∧
      Builder.build { graph := sharedOperand, limits := ⟨0, 3⟩ } .expression ⟨2⟩ =
        .ok (.binary .add (.integer 1) (.parenthesis (.integer 1))) := by
  refine ⟨sharedOperand_closed, ?_⟩
  have agrees := open_nodes_turned_away_are_endless sharedOperand_closed ⟨0, 3⟩ ⟨2⟩
  exact (agrees.1 .expression _).mpr rfl

end VhdlDesign
