import Mathlib
import VhdlDesign.Proofs.Result
import VhdlDesign.Workspace.Documents

/-!
Documents over a session.

A workspace is asked for documents, and its documents are changed, in any order. What it keeps a
document under does not change with the document: the place stays true of it, the limits only until
they are set to others.
-/
namespace VhdlDesign

inductive Request
  | input (files : FileTree) (path : String) (limits : Limits)
  | add (document : Document)
  | setText (d : DocumentRef) (text : String)
  | setLimits (d : DocumentRef) (limits : Limits)

/-- The limits that a document was last set to, by requests of which the latest comes first. -/
def latestLimits (d : DocumentRef) : List Request → Option Limits
  | [] => none
  | .setLimits e limits :: past => if e = d then some limits else latestLimits d past
  | _ :: past => latestLimits d past

namespace Workspace

def serve (w : Workspace) : Request → Workspace
  | .input files path limits =>
    match w.input files path limits with
    | .ok (served, _) => served
    | .error _ => w
  | .add document => (w.add document).1
  | .setText d text => w.setText d text
  | .setLimits d limits => w.setLimits d limits

def Allows (w : Workspace) : Request → Prop
  | .setText d _ => (w.get? d).isSome
  | .setLimits d _ => (w.get? d).isSome
  | _ => True

/-- Requests, the latest first, that lead from one workspace to another. -/
inductive Session (first : Workspace) : List Request → Workspace → Prop
  | start : Session first [] first
  | serve {past : List Request} {w : Workspace} (led : Session first past w) (r : Request)
      (allowed : w.Allows r) : Session first (r :: past) (w.serve r)

variable {w w' : Workspace} {d e : DocumentRef} {past : List Request}

/-! ### What the operations do to the documents -/

theorem get?_fresh (document : Document) : w.get? (w.add document).2 = none :=
  Array.getElem?_eq_none (Nat.le_refl _)

theorem get?_add (document : Document) :
    (w.add document).1.get? d = if d = (w.add document).2 then some document else w.get? d := by
  cases d
  simp [add, get?, Array.getElem?_push]

theorem get?_setText (text : String) :
    (w.setText e text).get? d =
      if d = e then (w.get? d).map fun x => { x with text } else w.get? d := by
  cases d
  cases e
  simp [setText, get?, Array.getElem?_modify, eq_comm]

theorem get?_setLimits (limits : Limits) :
    (w.setLimits e limits).get? d =
      if d = e then (w.get? d).map fun x => { x with limits } else w.get? d := by
  cases d
  cases e
  simp [setLimits, get?, Array.getElem?_modify, eq_comm]

theorem input_cases {files : FileTree} {path : String} {limits : Limits}
    (asked : w.input files path limits = .ok (w', d)) :
    ∃ place, files.canonical path = .ok place ∧
      (w.cache.lookup (place, limits) = some d ∧ w' = w ∨
        w.cache.lookup (place, limits) = none ∧ ∃ text,
          d = (w.add { path := absolutePath place, text, limits }).2 ∧
          w' = { (w.add { path := absolutePath place, text, limits }).1 with
              cache := ((place, limits), d) :: w.cache }) := by
  obtain ⟨place, led, asked⟩ := bind_eq_ok asked
  refine ⟨place, led, ?_⟩
  cases cached : w.cache.lookup (place, limits) with
  | some d' =>
    rw [cached] at asked
    cases asked
    exact .inl ⟨rfl, rfl⟩
  | none =>
    rw [cached] at asked
    obtain ⟨text, _, asked⟩ := bind_eq_ok asked
    cases asked
    exact .inr ⟨rfl, text, rfl, rfl⟩

/-! ### What is kept -/

/-- What the cache says of its documents. Each is at the place that it is kept under, and under the
limits that it was last set to or, if there are none, those that it is kept under. No document is
kept twice, and only documents that there are have been set. -/
structure Keeps (w : Workspace) (latest : DocumentRef → Option Limits) : Prop where
  held : ∀ place limits d, w.cache.lookup (place, limits) = some d →
    ∃ document, w.get? d = some document ∧ document.path = absolutePath place ∧
      document.limits = (latest d).getD limits
  once : ∀ key key' d, w.cache.lookup key = some d → w.cache.lookup key' = some d → key = key'
  unset : ∀ d, w.get? d = none → latest d = none

namespace Keeps

variable {latest : DocumentRef → Option Limits}

theorem add (keeps : w.Keeps latest) (document : Document) :
    (w.add document).1.Keeps latest := by
  refine ⟨?_, keeps.once, ?_⟩
  · intro place limits d kept
    obtain ⟨x, found, rest⟩ := keeps.held place limits d kept
    refine ⟨x, ?_, rest⟩
    rw [get?_add, if_neg, found]
    rintro rfl
    cases (get?_fresh document).symm.trans found
  · intro d missing
    rw [get?_add] at missing
    split at missing
    · cases missing
    · exact keeps.unset d missing

theorem keep (keeps : w.Keeps latest) {document : Document} {place : Location}
    (path : document.path = absolutePath place) :
    { (w.add document).1 with
      cache := ((place, document.limits), (w.add document).2) :: w.cache : Workspace }.Keeps
        latest := by
  have unset := keeps.unset _ (get?_fresh document)
  have found : (w.add document).1.get? (w.add document).2 = some document := by
    rw [get?_add, if_pos rfl]
  have others : ∀ key, w.cache.lookup key ≠ some (w.add document).2 := by
    rintro ⟨place, limits⟩ kept
    obtain ⟨x, found, _⟩ := keeps.held place limits _ kept
    cases (get?_fresh document).symm.trans found
  have added := keeps.add document
  refine ⟨?_, ?_, added.unset⟩
  · intro place' limits d kept
    rw [List.lookup_cons] at kept
    split at kept
    · next same =>
      cases kept
      cases eq_of_beq same
      exact ⟨document, found, path, by rw [unset]; rfl⟩
    · exact added.held place' limits d kept
  · intro key key' d kept kept'
    rw [List.lookup_cons] at kept kept'
    split at kept <;> split at kept'
    · next same _ same' => exact (eq_of_beq same).trans (eq_of_beq same').symm
    · cases kept
      exact absurd kept' (others key')
    · cases kept'
      exact absurd kept (others key)
    · exact keeps.once key key' d kept kept'

theorem setText (keeps : w.Keeps latest) (e : DocumentRef) (text : String) :
    (w.setText e text).Keeps latest := by
  refine ⟨?_, keeps.once, ?_⟩
  · intro place limits d kept
    obtain ⟨x, found, path, under⟩ := keeps.held place limits d kept
    rw [get?_setText, found]
    split
    · exact ⟨_, rfl, path, under⟩
    · exact ⟨x, rfl, path, under⟩
  · intro d missing
    rw [get?_setText] at missing
    refine keeps.unset d ?_
    split at missing
    · exact Option.map_eq_none_iff.mp missing
    · exact missing

theorem setLimits (keeps : w.Keeps latest) {e : DocumentRef} (there : (w.get? e).isSome)
    (set : Limits) :
    (w.setLimits e set).Keeps fun d => if e = d then some set else latest d := by
  refine ⟨?_, keeps.once, ?_⟩
  · intro place limits d kept
    obtain ⟨x, found, path, under⟩ := keeps.held place limits d kept
    rw [get?_setLimits, found]
    by_cases same : d = e
    · rw [if_pos same]
      exact ⟨_, rfl, path, by rw [if_pos same.symm]; rfl⟩
    · rw [if_neg same]
      exact ⟨x, rfl, path, by rwa [if_neg (Ne.symm same)]⟩
  · intro d missing
    rw [get?_setLimits] at missing
    by_cases same : d = e
    · rw [if_pos same, same, Option.map_eq_none_iff] at missing
      rw [missing] at there
      cases there
    · rw [if_neg same] at missing
      rw [if_neg (Ne.symm same)]
      exact keeps.unset d missing

theorem serve (keeps : w.Keeps (latestLimits · past)) {r : Request} (allowed : w.Allows r) :
    (w.serve r).Keeps (latestLimits · (r :: past)) := by
  cases r with
  | add document => exact keeps.add document
  | setText e text => exact keeps.setText e text
  | setLimits e limits => exact keeps.setLimits allowed limits
  | input files path limits =>
    change Keeps _ (latestLimits · past)
    cases asked : w.input files path limits with
    | error failure => simpa only [Workspace.serve, asked] using keeps
    | ok answer =>
      simp only [Workspace.serve, asked]
      obtain ⟨place, _, ⟨_, same⟩ | ⟨_, text, given, made⟩⟩ := input_cases asked
      · rw [same]
        exact keeps
      · rw [made, given]
        exact keeps.keep rfl

end Keeps

/-! ### Sessions -/

theorem Session.keeps (led : Session {} past w) : w.Keeps (latestLimits · past) := by
  induction led with
  | start => exact ⟨nofun, nofun, fun _ _ => rfl⟩
  | serve led r allowed ih => exact ih.serve allowed

theorem Session.trans {first : Workspace} {between : List Request} (led : Session first past w)
    (onward : Session w between w') : Session first (between ++ past) w' := by
  induction onward with
  | start => exact led
  | serve onward r allowed ih => exact ih.serve r allowed

theorem lookup_serve {key : Location × Limits} (kept : w.cache.lookup key = some d) (r : Request) :
    (w.serve r).cache.lookup key = some d := by
  cases r with
  | add document => exact kept
  | setText e text => exact kept
  | setLimits e limits => exact kept
  | input files path limits =>
    cases asked : w.input files path limits with
    | error failure => simpa only [serve, asked] using kept
    | ok answer =>
      simp only [serve, asked]
      obtain ⟨place, _, ⟨_, same⟩ | ⟨unkept, text, _, made⟩⟩ := input_cases asked
      · rw [same]
        exact kept
      · rw [made, List.lookup_cons]
        split
        · next same =>
          rw [eq_of_beq same, unkept] at kept
          cases kept
        · exact kept

theorem Session.lookup {key : Location × Limits} {between : List Request}
    (onward : Session w between w') (kept : w.cache.lookup key = some d) :
    w'.cache.lookup key = some d := by
  induction onward with
  | start => exact kept
  | serve onward r allowed ih => exact lookup_serve ih r

theorem lookup_input {files : FileTree} {path : String} {limits : Limits}
    (asked : w.input files path limits = .ok (w', d)) :
    ∃ place, files.canonical path = .ok place ∧ w'.cache.lookup (place, limits) = some d := by
  obtain ⟨place, led, ⟨kept, rfl⟩ | ⟨_, text, _, rfl⟩⟩ := input_cases asked
  · exact ⟨place, led, kept⟩
  · exact ⟨place, led, List.lookup_cons_self⟩

theorem Session.input {first : Workspace} {files : FileTree} {path : String} {limits : Limits}
    (led : Session first past w) (asked : w.input files path limits = .ok (w', d)) :
    Session first (.input files path limits :: past) w' := by
  have served : w.serve (.input files path limits) = w' := by rw [Workspace.serve, asked]
  exact served ▸ led.serve _ trivial

end Workspace

open Workspace in
/-- What a document is kept under. In every session, a document that is asked for is at the place
that its path leads to, and two of them are the same exactly if they were asked for by the same
place and limits. Its limits, under which it is built, are those that it was asked for by if it was
not set to others: they stay what they were last set to, although it is still found by the first. -/
theorem documents_are_found_by_first_limits {past : List Request} {w w₁ : Workspace}
    {files : FileTree} {path : String} {limits : Limits} {d : DocumentRef}
    (led : Session {} past w) (asked : w.input files path limits = .ok (w₁, d)) :
    ∃ place document, files.canonical path = .ok place ∧ w₁.get? d = some document ∧
      document.path = absolutePath place ∧
      document.report = Report.ofText document.text ((latestLimits d past).getD limits) ∧
      (document.limits = limits ↔ ∀ set, latestLimits d past = some set → set = limits) ∧
      ∀ between w₂ w₃ files' path' limits' d', Session w₁ between w₂ →
        w₂.input files' path' limits' = .ok (w₃, d') →
          (d' = d ↔ files'.canonical path' = files.canonical path ∧ limits' = limits) := by
  obtain ⟨place, reached, kept⟩ := lookup_input asked
  have session := led.input asked
  obtain ⟨document, found, atPlace, under⟩ := session.keeps.held place limits d kept
  change document.limits = (latestLimits d past).getD limits at under
  refine ⟨place, document, reached, found, atPlace, ?_, ?_, ?_⟩
  · rw [Document.report, under]
  · rw [under]
    cases latestLimits d past <;> simp
  · intro between w₂ w₃ files' path' limits' d' onward askedAgain
    obtain ⟨place', reached', kept'⟩ := lookup_input askedAgain
    have later := (session.trans onward).input askedAgain
    have still : w₃.cache.lookup (place, limits) = some d :=
      (onward.input askedAgain).lookup kept
    rw [reached, reached']
    constructor
    · rintro rfl
      cases later.keeps.once _ _ _ kept' still
      exact ⟨rfl, rfl⟩
    · rintro ⟨same, rfl⟩
      cases same
      exact Option.some.inj (kept'.symm.trans still)

def emptyFile : FileTree where
  entries := [(["a"], .file .empty)]

/-- The document was read under the usual limits and then set to others. -/
def tightened : Workspace where
  documents := #[⟨"/a", "", ⟨0, 0⟩⟩]
  cache := [((["a"], {}), ⟨0⟩)]

theorem tightened_session :
    Workspace.Session {} [.setLimits ⟨0⟩ ⟨0, 0⟩, .input emptyFile "a" {}] tightened := by
  have read : ({} : Workspace).input emptyFile "a" {} =
      .ok (⟨#[⟨"/a", "", {}⟩], [((["a"], {}), ⟨0⟩)]⟩, ⟨0⟩) := by cbv
  exact (Workspace.Session.start.input read).serve (.setLimits ⟨0⟩ ⟨0, 0⟩) rfl

theorem tightened_input : tightened.input emptyFile "a" {} = .ok (tightened, ⟨0⟩) := by cbv

theorem tightened_found :
    Workspace.Session {} [.setLimits ⟨0⟩ ⟨0, 0⟩, .input emptyFile "a" {}] tightened ∧
      ∃ document, tightened.get? ⟨0⟩ = some document ∧ document.path = "/a" ∧
        document.report = Report.ofText "" ⟨0, 0⟩ := by
  obtain ⟨place, document, led, found, path, built, _⟩ :=
    documents_are_found_by_first_limits tightened_session tightened_input
  have there : emptyFile.canonical "a" = .ok ["a"] := by cbv
  cases there.symm.trans led
  cases found
  exact ⟨tightened_session, _, rfl, path, built⟩

theorem tightened_not_as_asked :
    Workspace.Session {} [.setLimits ⟨0⟩ ⟨0, 0⟩, .input emptyFile "a" {}] tightened ∧
      tightened.input emptyFile "a" {} = .ok (tightened, ⟨0⟩) ∧
      ∃ document, tightened.get? ⟨0⟩ = some document ∧ document.limits ≠ {} :=
  ⟨tightened_session, tightened_input, _, rfl, by decide⟩

end VhdlDesign
