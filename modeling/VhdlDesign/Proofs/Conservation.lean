import VhdlDesign.Proofs.Loading
import VhdlDesign.Report.Report

/-!
Reports give account of every design unit.

The units that were built and the diagnostics are two lists taken from the same results. Each keeps
the order of the file, and together they are as long as its chain of design units.
-/
namespace VhdlDesign

/-- The diagnostic is an error that says of an issue what it is and where. -/
structure Diagnostic.Conveys (d : Diagnostic) (i : Issue) : Prop where
  severity : d.severity = .error
  phase : d.phase = .construction
  kind : d.kind = some i.kind
  position : d.position = i.position
  message : d.message = i.kind.label ++ " " ++ i.node.text ++ ": " ++ i.cause.text

theorem Diagnostic.ofIssue_conveys (i : Issue) : (ofIssue i).Conveys i := ⟨rfl, rfl, rfl, rfl, rfl⟩

/-- The report shows what came of each design unit: the units among the results in their order, an
error for each issue among them in their order, and a warning after that if there is no unit. -/
structure Report.Conserves (r : Report) (results : List (Except Issue DesignUnit))
    (units : List DesignUnit) (issues : List Issue) : Prop where
  design : r.design = some ⟨units⟩
  built : units.map Except.ok = results.filter Except.isOk
  failed : issues.map Except.error = results.filter fun s => !s.isOk
  diagnostics : ∃ errors, List.Forall₂ Diagnostic.Conveys errors issues ∧
    (units ≠ [] ∧ r.diagnostics = errors ∨
      units = [] ∧ ∃ w, w.severity = .warning ∧ w.position = none ∧ r.diagnostics = errors ++ [w])

namespace Report

variable (results : List (Except Issue DesignUnit))

theorem built_map_ok : (built results).map Except.ok = results.filter Except.isOk := by
  induction results with
  | nil => rfl
  | cons r rest ih =>
    cases r with
    | ok u => exact congrArg (Except.ok u :: ·) ih
    | error i => exact ih

theorem issues_map_error :
    (issues results).map Except.error = results.filter fun r => !r.isOk := by
  induction results with
  | nil => rfl
  | cons r rest ih =>
    cases r with
    | ok u => exact ih
    | error i => exact congrArg (Except.error i :: ·) ih

theorem length_built_add_issues :
    (built results).length + (issues results).length = results.length := by
  have values := congrArg List.length (built_map_ok results)
  have others := congrArg List.length (issues_map_error results)
  have total := List.length_eq_countP_add_countP Except.isOk (l := results)
  simp only [List.length_map, ← List.countP_eq_length_filter] at values others
  simp only [Bool.not_eq_true, Bool.decide_eq_false] at total
  omega

theorem ofUnits_errors :
    (ofUnits results).diagnostics.filter Diagnostic.isError =
      (issues results).map Diagnostic.ofIssue := by
  have warning : (if (built results).isEmpty then [Diagnostic.noUnit] else []).filter
      Diagnostic.isError = [] := by
    split
    · rfl
    · rfl
  have errors : ((issues results).map Diagnostic.ofIssue).filter Diagnostic.isError =
      (issues results).map Diagnostic.ofIssue := by
    rw [List.filter_eq_self]
    intro d member
    obtain ⟨i, _, rfl⟩ := List.mem_map.mp member
    rfl
  simp only [ofUnits, List.filter_append, errors, warning, List.append_nil]

theorem ofUnits_conserves :
    (ofUnits results).Conserves results (built results) (issues results) where
  design := rfl
  built := built_map_ok results
  failed := issues_map_error results
  diagnostics := by
    refine ⟨(issues results).map .ofIssue, ?_, ?_⟩
    · rw [List.forall₂_map_left_iff, List.forall₂_same]
      exact fun i _ => Diagnostic.ofIssue_conveys i
    · cases none : built results with
      | nil =>
        refine .inr ⟨rfl, .noUnit, rfl, rfl, ?_⟩
        simp only [ofUnits, none, List.isEmpty_nil, if_true]
      | cons u us =>
        refine .inl ⟨List.cons_ne_nil u us, ?_⟩
        simp only [ofUnits, none, List.isEmpty_cons, Bool.false_eq_true, if_false, List.append_nil]

end Report

section

variable {text : String} {limits : Limits} {image : LoadedImage}

theorem Report.ofText_refused {e : LoadError} (refused : Image.load text = .error e) :
    Report.ofText text limits = { design := none, diagnostics := [.ofLoadError e] } := by
  simp only [ofText, refused]

theorem Report.ofText_failed {e : Fault} (loaded : Image.load text = .ok image)
    (failed : buildDesignUnits image.arena.graph limits image.root = .error e) :
    ∃ i, e = .issue i ∧
      Report.ofText text limits = { design := none, diagnostics := [.ofIssue i] } := by
  obtain ⟨enclosed, root⟩ := Image.load_enclosed loaded
  obtain ⟨i, rfl⟩ :=
    buildDesignUnits_issue enclosed.closed (Arena.has_iff_graph.mp root) e failed
  refine ⟨i, rfl, ?_⟩
  simp only [ofText, loaded, failed]
  rfl

theorem Report.ofText_built {results : List (Except Issue DesignUnit)}
    (loaded : Image.load text = .ok image)
    (built : buildDesignUnits image.arena.graph limits image.root = .ok results) :
    Report.ofText text limits = ofUnits results := by
  simp only [ofText, loaded, built]

end

/-- A report has no design exactly if the image or its file cannot be read, and then it is one error
that says so. Otherwise it shows what came of every design unit, so that the units that were built
and the errors are as many as the file has design units. -/
theorem report_conserves_units (text : String) (limits : Limits) :
    ((Report.ofText text limits).design = none ↔
      (∃ e, Image.load text = .error e) ∨
        ∃ image e, Image.load text = .ok image ∧
          buildDesignUnits image.arena.graph limits image.root = .error e) ∧
    (∀ e, Image.load text = .error e →
      ∃ d, (Report.ofText text limits).diagnostics = [d] ∧ d.severity = .error ∧
        d.phase = .loading ∧ d.message = e.text) ∧
    ∀ image, Image.load text = .ok image →
      (∀ e, buildDesignUnits image.arena.graph limits image.root = .error e →
        ∃ i d, e = .issue i ∧ (Report.ofText text limits).diagnostics = [d] ∧ d.Conveys i) ∧
      ∀ results, buildDesignUnits image.arena.graph limits image.root = .ok results →
        ∃ units issues x chain, (Report.ofText text limits).Conserves results units issues ∧
          image.arena.graph image.root = some x ∧
          Leads image.arena.graph.next (x.field .designUnits) chain none ∧
          units.length + ((Report.ofText text limits).diagnostics.filter
            Diagnostic.isError).length = chain.length := by
  refine ⟨⟨?_, ?_⟩, ?_, ?_⟩
  · intro nothing
    cases loaded : Image.load text with
    | error e => exact .inl ⟨e, rfl⟩
    | ok image =>
      cases built : buildDesignUnits image.arena.graph limits image.root with
      | error e => exact .inr ⟨image, e, rfl, built⟩
      | ok results =>
        rw [Report.ofText_built loaded built] at nothing
        cases nothing
  · rintro (⟨e, refused⟩ | ⟨image, e, loaded, failed⟩)
    · rw [Report.ofText_refused refused]
    · obtain ⟨i, _, report⟩ := Report.ofText_failed loaded failed
      rw [report]
  · intro e refused
    rw [Report.ofText_refused refused]
    exact ⟨_, rfl, rfl, rfl, rfl⟩
  · intro image loaded
    constructor
    · intro e failed
      obtain ⟨i, same, report⟩ := Report.ofText_failed loaded failed
      rw [report]
      exact ⟨i, .ofIssue i, same, rfl, Diagnostic.ofIssue_conveys i⟩
    · intro results built
      obtain ⟨chain, opened, pairs⟩ := buildDesignUnits_eq_ok built
      obtain ⟨x, found, _, _, led⟩ := openFile_eq_ok opened
      rw [Report.ofText_built loaded built]
      refine ⟨_, _, x, chain, Report.ofUnits_conserves results, found, led, ?_⟩
      rw [Report.ofUnits_errors, List.length_map, Report.length_built_add_issues, pairs.length_eq]

def halfBuiltImage : String :=
  "[1,[[1,\"design_file\",null,null,null,\x7b\"design_units\":2\x7d,null,null,null]," ++
    "[2,\"design_unit\",null,null,3,\x7b\"library_unit\":4\x7d,null,null,null]," ++
    "[3,\"design_unit\",null,null,null,\x7b\x7d,null,null,null]," ++
    "[4,\"entity_declaration\",\"e\",null,null,\x7b\x7d,null,null,null]]]"

theorem halfBuiltImage_conserved :
    ∃ image x chain, Image.load halfBuiltImage = .ok image ∧
      image.arena.graph image.root = some x ∧
      Leads image.arena.graph.next (x.field .designUnits) chain none ∧ chain.length = 2 := by
  obtain ⟨design, errors⟩ :
      (Report.ofText halfBuiltImage {}).design.map (fun file => file.units.length) = some 1 ∧
        ((Report.ofText halfBuiltImage {}).diagnostics.filter Diagnostic.isError).length = 1 := by
    decide +kernel
  obtain ⟨nothing, _, accounts⟩ := report_conserves_units halfBuiltImage {}
  cases loaded : Image.load halfBuiltImage with
  | error e =>
    rw [nothing.mpr (.inl ⟨e, loaded⟩)] at design
    cases design
  | ok image =>
    cases built : buildDesignUnits image.arena.graph {} image.root with
    | error e =>
      rw [nothing.mpr (.inr ⟨image, e, loaded, built⟩)] at design
      cases design
    | ok results =>
      obtain ⟨units, issues, x, chain, conserves, found, led, total⟩ :=
        (accounts image loaded).2 results built
      rw [conserves.design, Option.map_some] at design
      rw [errors, Option.some.inj design] at total
      exact ⟨image, x, chain, rfl, found, led, total.symm⟩

end VhdlDesign
