import VhdlDesign.Command
import VhdlDesign.Proofs.Batch
import VhdlDesign.Proofs.Conservation

/-!
What the success of a command says.

A command builds a file unit by unit and judges by the diagnostics. It succeeds exactly on the files
that can be built at once, and shows what that gives.
-/
namespace VhdlDesign

variable {text : String} {limits : Limits} {image : LoadedImage}

namespace Report

theorem built_of_values (us : List DesignUnit) : built (us.map .ok) = us := by
  induction us with
  | nil => rfl
  | cons u us ih => exact congrArg (u :: ·) ih

theorem issues_of_values (us : List DesignUnit) : issues (us.map .ok) = [] := by
  induction us with
  | nil => rfl
  | cons u us ih => exact ih

theorem mem_issues {results : List (Except Issue DesignUnit)} {i : Issue}
    (member : .error i ∈ results) : i ∈ issues results := by
  have kept : Except.error i ∈ results.filter fun r => !r.isOk :=
    List.mem_filter.mpr ⟨member, rfl⟩
  rw [← issues_map_error] at kept
  obtain ⟨j, hj, same⟩ := List.mem_map.mp kept
  cases same
  exact hj

def ofFile (file : DesignFile) : Report :=
  { design := some file, diagnostics := if file.units.isEmpty then [.noUnit] else [] }

theorem ofUnits_values (us : List DesignUnit) : ofUnits (us.map .ok) = ofFile ⟨us⟩ := by
  simp only [ofUnits, ofFile, built_of_values, issues_of_values, List.map_nil, List.nil_append]

theorem hasErrors_ofFile (file : DesignFile) : (ofFile file).hasErrors = false := by
  unfold hasErrors ofFile
  split
  · rfl
  · rfl

theorem hasErrors_of_mem {r : Report} {d : Diagnostic} (member : d ∈ r.diagnostics)
    (error : d.isError = true) : r.hasErrors = true := List.any_eq_true.mpr ⟨d, member, error⟩

end Report

theorem buildDesignFile_of_failed {g : Graph} {root : NodeRef} {i : Issue}
    (failed : buildDesignUnits g limits root = .error (.issue i)) :
    ∃ e, buildDesignFile g limits root = .error e := by
  by_cases deep : 0 < limits.depth
  · exact ⟨_, buildDesignFile_of_refused deep failed⟩
  · have shallow : limits.depth = 0 := Nat.eq_zero_of_not_pos deep
    exact (file_fails_at_root shallow).1.imp fun e refused => refused.1

/-- The report on a loaded image is the one on its file, or it has an error and the file cannot be
built at once. -/
theorem Report.ofText_loaded (loaded : Image.load text = .ok image) (limits : Limits) :
    (∃ file, buildDesignFile image.arena.graph limits image.root = .ok file ∧
        Report.ofText text limits = ofFile file) ∨
      ∃ e d, buildDesignFile image.arena.graph limits image.root = .error e ∧
        d ∈ (Report.ofText text limits).diagnostics ∧ d.isError = true := by
  cases built : buildDesignUnits image.arena.graph limits image.root with
  | error e =>
    obtain ⟨i, rfl, report⟩ := ofText_failed loaded built
    obtain ⟨e, refused⟩ := buildDesignFile_of_failed built
    rw [report]
    exact .inr ⟨e, .ofIssue i, refused, List.mem_singleton_self _, rfl⟩
  | ok results =>
    obtain ⟨units, opened, pairs⟩ := buildDesignUnits_eq_ok built
    rw [ofText_built loaded built, buildDesignFile_of_opened opened]
    rcases mapM_first_issue pairs with ⟨us, rfl, all⟩ | ⟨us, i, rest, rfl, first⟩
    · rw [all]
      exact .inl ⟨⟨us⟩, rfl, ofUnits_values us⟩
    · rw [first]
      have failed : i ∈ issues (us.map .ok ++ .error i :: rest) := mem_issues (by simp)
      refine .inr ⟨.issue i, .ofIssue i, rfl, ?_, rfl⟩
      exact List.mem_append_left _ (List.mem_map_of_mem failed)

namespace Command

theorem report_prints (c : Command) {r : Report} {d : Diagnostic} (member : d ∈ r.diagnostics) :
    ∃ before after, (c.report r).errors = before ++ (d.text ++ "\n") ++ after := by
  obtain ⟨before, after, split⟩ := List.append_of_mem member
  simp only [report, split, List.map_append, List.map_cons, String.join_append, String.join_cons]
  exact ⟨_, _, (String.append_assoc ..).symm⟩

theorem report_ofFile (c : Command) (file : DesignFile) :
    c.report (.ofFile file) =
      { success := true, output := display c.task file
        errors := if file.units.isEmpty then Diagnostic.noUnit.text ++ "\n" else "" } := by
  have errors : String.join ((Report.ofFile file).diagnostics.map fun d => d.text ++ "\n") =
      if file.units.isEmpty then Diagnostic.noUnit.text ++ "\n" else "" := by
    unfold Report.ofFile
    split
    · simp only [List.map_cons, List.map_nil, String.join_cons, String.join_nil,
        String.append_empty]
    · rfl
  simp only [report, Report.hasErrors_ofFile, errors]
  rfl

theorem report_of_error (c : Command) {r : Report} {d : Diagnostic} (member : d ∈ r.diagnostics)
    (error : d.isError = true) : (c.report r).success = false := by
  simp only [report, Report.hasErrors_of_mem member error, Bool.not_true]

end Command

theorem Report.ofText_cases (text : String) (limits : Limits) :
    (∃ image file, Image.load text = .ok image ∧
        buildDesignFile image.arena.graph limits image.root = .ok file ∧
        Report.ofText text limits = ofFile file) ∨
      (¬ ∃ image file, Image.load text = .ok image ∧
        buildDesignFile image.arena.graph limits image.root = .ok file) ∧
        ∃ d ∈ (Report.ofText text limits).diagnostics, d.isError = true := by
  cases loaded : Image.load text with
  | error e =>
    refine .inr ⟨?_, ?_⟩
    · rintro ⟨image, file, accepted, _⟩
      cases accepted
    · rw [ofText_refused loaded]
      exact ⟨.ofLoadError e, List.mem_singleton_self _, rfl⟩
  | ok image =>
    rcases ofText_loaded loaded limits with ⟨file, built, report⟩ | ⟨e, d, refused, told⟩
    · exact .inl ⟨image, file, rfl, built, report⟩
    · refine .inr ⟨?_, d, told⟩
      rintro ⟨_, file, accepted, built⟩
      cases accepted
      rw [refused] at built
      cases built

/-- A command on a text succeeds exactly if the text is an image whose file can be built at once. It
then shows the design that this gives, and warns only of an empty file. Otherwise it has printed an
error. -/
theorem success_means_built_at_once (c : Command) (text : String) :
    ((c.run (.ok text)).success = true ↔ ∃ image file, Image.load text = .ok image ∧
      buildDesignFile image.arena.graph c.limits image.root = .ok file) ∧
    (∀ image file, Image.load text = .ok image →
      buildDesignFile image.arena.graph c.limits image.root = .ok file →
        (Report.ofText text c.limits).design = some file ∧
        (c.run (.ok text)).output = Command.display c.task file ∧
        (c.run (.ok text)).errors =
          if file.units.isEmpty then Diagnostic.noUnit.text ++ "\n" else "") ∧
    ((c.run (.ok text)).success = false →
      ∃ d before after, d ∈ (Report.ofText text c.limits).diagnostics ∧ d.isError = true ∧
        (c.run (.ok text)).errors = before ++ (d.text ++ "\n") ++ after) := by
  have outcome : c.run (.ok text) = c.report (Report.ofText text c.limits) := rfl
  rw [outcome]
  rcases Report.ofText_cases text c.limits with
    ⟨image, file, loaded, built, report⟩ | ⟨unbuilt, d, member, error⟩
  · rw [report, c.report_ofFile]
    refine ⟨⟨fun _ => ⟨image, file, loaded, built⟩, fun _ => rfl⟩, ?_, fun failed => ?_⟩
    · intro image' file' loaded' built'
      cases loaded.symm.trans loaded'
      cases built.symm.trans built'
      exact ⟨rfl, rfl, rfl⟩
    · cases failed
  · have failed := c.report_of_error member error
    refine ⟨⟨fun success => ?_, fun given => absurd given unbuilt⟩, ?_, fun _ => ?_⟩
    · rw [failed] at success
      cases success
    · intro image file loaded built
      exact absurd ⟨image, file, loaded, built⟩ unbuilt
    · obtain ⟨before, after, printed⟩ := c.report_prints member
      exact ⟨d, before, after, member, error, printed⟩

def emptyFileImage : String :=
  "[1,[[1,\"design_file\",null,null,null,\x7b\x7d,null,null,null]]]"

theorem emptyFileImage_succeeds :
    ∃ image file, Image.load emptyFileImage = .ok image ∧
      buildDesignFile image.arena.graph {} image.root = .ok file ∧
      (Report.ofText emptyFileImage {}).design = some file := by
  have success : ((⟨.outline, "empty", {}⟩ : Command).run (.ok emptyFileImage)).success = true := by
    decide +kernel
  obtain ⟨verdict, shown, _⟩ := success_means_built_at_once ⟨.outline, "empty", {}⟩ emptyFileImage
  obtain ⟨image, file, loaded, built⟩ := verdict.mp success
  exact ⟨image, file, loaded, built, (shown image file loaded built).1⟩

end VhdlDesign
