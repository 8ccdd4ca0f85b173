import VhdlDesign.Proofs.Files

/-!
A file built at once, and unit by unit.

Both begin by opening the file. After that one stops at the first unit that cannot be built, and the
other keeps its issue and goes on.
-/
namespace VhdlDesign

variable {g : Graph} {limits : Limits} {root : NodeRef}

def Fault.node : Fault → NodeRef
  | .issue i => i.node
  | .absent n _ => n

theorem Builder.carryOut_designFile (b : Builder) (n : NodeRef) (x : Node)
    (enter : (f : Form) → NodeRef → Except Fault f.Value) :
    b.carryOut n x enter Grammar.designFile =
      if x.kind = .designFile then
        b.elements (x.field .designUnits) >>= fun units =>
          units.mapM (enter .designUnit) >>= fun us => .ok { units := us }
      else .error (x.issue n (.unsupportedKind x.kind)) := by
  change b.carryOut n x enter (Recipe.bind (if x.kind = .designFile then _ else _) _) = _
  by_cases kind : x.kind = .designFile
  · have defined : x.kind.defines .designUnits = true := by
      rw [kind]
      rfl
    rw [if_pos kind, if_pos kind]
    change x.edge? n .designUnits >>= _ = _
    rw [Node.edge?_eq defined]
    rfl
  · rw [if_neg kind, if_neg kind]
    rfl

theorem buildDesignFile_eq {x : Node} (found : g root = some x) (deep : 0 < limits.depth) :
    buildDesignFile g limits root = openFile g limits root >>= fun units =>
      units.mapM ((insideFile g limits root).build .designUnit) >>= fun us =>
        .ok { units := us } := by
  obtain ⟨chainLength, depth⟩ := limits
  obtain ⟨d, rfl⟩ : ∃ d, depth = d + 1 := ⟨depth - 1, by simp only at deep; omega⟩
  have node : (insideFile g ⟨chainLength, d + 1⟩ root).node root = .ok x :=
    Builder.node_eq_ok.mpr found
  have entered : buildDesignFile g ⟨chainLength, d + 1⟩ root =
      (insideFile g ⟨chainLength, d + 1⟩ root).node root >>= fun x =>
        (insideFile g ⟨chainLength, d + 1⟩ root).carryOut root x
          (insideFile g ⟨chainLength, d + 1⟩ root).build Grammar.designFile := rfl
  rw [openFile_eq found, if_pos deep, entered, node]
  change Builder.carryOut _ root x _ _ = _
  rw [Builder.carryOut_designFile]
  split
  · rfl
  · rfl

theorem buildDesignFile_of_opened {units : List NodeRef}
    (opened : openFile g limits root = .ok units) :
    buildDesignFile g limits root =
      units.mapM ((insideFile g limits root).build .designUnit) >>= fun us =>
        .ok { units := us } := by
  obtain ⟨x, found, _, deep, _⟩ := openFile_eq_ok opened
  rw [buildDesignFile_eq found deep, opened]
  rfl

theorem mapM_first_issue {α : Type} {make : NodeRef → Except Fault α} {ms : List NodeRef}
    {results : List (Except Issue α)}
    (pairs : List.Forall₂ (fun m r => make m = r.mapError .issue) ms results) :
    (∃ vs : List α, results = vs.map .ok ∧ ms.mapM make = .ok vs) ∨
      ∃ (vs : List α) (i : Issue) (rest : List (Except Issue α)),
        results = vs.map .ok ++ .error i :: rest ∧ ms.mapM make = .error (.issue i) := by
  induction pairs with
  | nil => exact .inl ⟨[], rfl, rfl⟩
  | @cons m r ms results made _ ih =>
    rw [List.mapM_cons, made]
    cases r with
    | error i => exact .inr ⟨[], i, results, rfl, rfl⟩
    | ok v =>
      rcases ih with ⟨vs, rfl, rest⟩ | ⟨vs, i, after, rfl, rest⟩
      · refine .inl ⟨v :: vs, rfl, ?_⟩
        rw [rest]
        rfl
      · refine .inr ⟨v :: vs, i, after, rfl, ?_⟩
        rw [rest]
        rfl

theorem buildDesignFile_of_refused {i : Issue} (deep : 0 < limits.depth)
    (refused : buildDesignUnits g limits root = .error (.issue i)) :
    buildDesignFile g limits root = .error (.issue i) := by
  have opened := openFile_of_issue refused
  cases found : g root with
  | none =>
    rw [openFile_missing found] at opened
    cases opened
  | some x =>
    rw [buildDesignFile_eq found deep, opened]
    rfl

theorem file_fails_at_root (shallow : limits.depth = 0) :
    (∃ e, buildDesignFile g limits root = .error e ∧ e.node = root) ∧
      ∃ e, buildDesignUnits g limits root = .error e ∧ e.node = root := by
  obtain ⟨chainLength, depth⟩ := limits
  cases shallow
  have refused : buildDesignFile g ⟨chainLength, 0⟩ root =
      Builder.refuse { graph := g, limits := ⟨chainLength, 0⟩ } root
        (.contractViolation (.depthExceeded 0)) := rfl
  rw [refused, buildDesignUnits_eq]
  cases found : g root with
  | none =>
    unfold Builder.refuse Builder.node
    simp only [openFile_missing found, found]
    exact ⟨⟨_, rfl, rfl⟩, _, rfl, rfl⟩
  | some x =>
    unfold Builder.refuse Builder.node
    rw [openFile_eq found]
    simp only [found]
    refine ⟨⟨_, rfl, rfl⟩, ?_⟩
    split
    · exact ⟨_, rfl, rfl⟩
    · exact ⟨_, rfl, rfl⟩

/-- Building a file at once and building it unit by unit agree. An issue of the whole is the same in
both. Otherwise the file consists of the values of all units, or fails with the first issue of a
unit, and each unit is built as if it were the only one. -/
theorem file_agrees_with_units (g : Graph) (limits : Limits) (root : NodeRef) :
    (1 ≤ limits.depth →
      (∀ i, buildDesignUnits g limits root = .error (.issue i) →
        buildDesignFile g limits root = .error (.issue i)) ∧
      ∀ results, buildDesignUnits g limits root = .ok results →
        ((∃ us : List DesignUnit, results = us.map .ok ∧
            buildDesignFile g limits root = .ok { units := us }) ∨
          ∃ (us : List DesignUnit) (i : Issue) (rest : List (Except Issue DesignUnit)),
            results = us.map .ok ++ .error i :: rest ∧
              buildDesignFile g limits root = .error (.issue i)) ∧
        ∃ x units, g root = some x ∧ Leads g.next (x.field .designUnits) units none ∧
          List.Forall₂ (fun n r =>
            Builder.build { graph := g, limits, path := [root] } .designUnit n =
              r.mapError .issue) units results) ∧
    (limits.depth = 0 →
      (∃ e, buildDesignFile g limits root = .error e ∧ e.node = root) ∧
        ∃ e, buildDesignUnits g limits root = .error e ∧ e.node = root) := by
  refine ⟨fun deep => ⟨fun i => buildDesignFile_of_refused deep, ?_⟩, file_fails_at_root⟩
  intro results built
  obtain ⟨units, opened, pairs⟩ := buildDesignUnits_eq_ok built
  obtain ⟨x, found, _, _, led⟩ := openFile_eq_ok opened
  refine ⟨?_, x, units, found, led, pairs⟩
  rw [buildDesignFile_of_opened opened]
  rcases mapM_first_issue pairs with ⟨us, same, all⟩ | ⟨us, i, rest, same, first⟩
  · refine .inl ⟨us, same, ?_⟩
    rw [all]
    rfl
  · refine .inr ⟨us, i, rest, same, ?_⟩
    rw [first]
    rfl

def brokenSecondUnit : Graph
  | ⟨0⟩ => some { kind := .designFile,
                  field := fun f => if f = .designUnits then some ⟨1⟩ else none }
  | ⟨1⟩ => some { kind := .designUnit, next := some ⟨3⟩,
                  field := fun f => if f = .libraryUnit then some ⟨2⟩ else none }
  | ⟨2⟩ => some { kind := .packageBody, name := some "p" }
  | ⟨3⟩ => some { kind := .designUnit }
  | _ => none

theorem brokenSecondUnit_agrees :
    buildDesignUnits brokenSecondUnit {} ⟨0⟩ = .ok [.ok ⟨[], .packageBody ⟨"p", []⟩⟩,
        .error ⟨.contractViolation (.missingField .libraryUnit), ⟨3⟩, .designUnit, none⟩] ∧
      buildDesignFile brokenSecondUnit {} ⟨0⟩ =
        .error (.issue
          ⟨.contractViolation (.missingField .libraryUnit), ⟨3⟩, .designUnit, none⟩) := by
  have built : buildDesignUnits brokenSecondUnit {} ⟨0⟩ = .ok [.ok ⟨[], .packageBody ⟨"p", []⟩⟩,
      .error ⟨.contractViolation (.missingField .libraryUnit), ⟨3⟩, .designUnit, none⟩] := rfl
  refine ⟨built, ?_⟩
  have agrees := (file_agrees_with_units brokenSecondUnit {} ⟨0⟩).1 (by decide)
  obtain ⟨⟨us, same, _⟩ | ⟨us, i, rest, same, refused⟩, _⟩ := agrees.2 _ built
  · match us with
    | [] | [u] | u :: v :: us => cases same
  · match us with
    | [] => cases same
    | [u] =>
      cases same
      exact refused
    | u :: v :: us => cases same

end VhdlDesign
