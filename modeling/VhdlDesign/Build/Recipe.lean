import VhdlDesign.Build.Form
import VhdlDesign.Build.Issue

/-!
Recipes: what is read at a node, in which order, to build a value.

A recipe is data. It sees the attributes of its node, and it reaches other nodes only through the
fields that it names, so that what a build depends on can be read off and every property of all
builds is one induction on recipes.
-/
namespace VhdlDesign

/-- Steps at one node that end in a value or in a refusal. -/
inductive Recipe (α : Type)
  | done (value : α)
  | refuse (cause : Cause)
  | look (rest : Attributes → Recipe α)
  /-- The field has to be defined for the kind of the node. What it holds is not used. -/
  | touch (field : Field) (rest : Recipe α)
  | child (field : Field) (form : Form) (rest : form.Value → Recipe α)
  | optional (field : Field) (form : Form) (rest : Option form.Value → Recipe α)
  | chain (field : Field) (form : Form) (rest : List form.Value → Recipe α)
  /-- Read a text off the attributes of the node that the field holds, without entering it. -/
  | label (field : Field) (read : Attributes → Except Cause String) (rest : String → Recipe α)
  | labels (field : Field) (read : Attributes → Except Cause String)
      (rest : List String → Recipe α)

def Attributes.identifier (a : Attributes) : Except Cause String :=
  match checkIdentifier a.name with
  | .ok name => .ok name
  | .error defect => .error (.unresolvableName defect)

namespace Recipe

def bind {α β : Type} : Recipe α → (α → Recipe β) → Recipe β
  | .done value, f => f value
  | .refuse cause, _ => .refuse cause
  | .look rest, f => .look fun a => (rest a).bind f
  | .touch field rest, f => .touch field (rest.bind f)
  | .child field form rest, f => .child field form fun v => (rest v).bind f
  | .optional field form rest, f => .optional field form fun v => (rest v).bind f
  | .chain field form rest, f => .chain field form fun vs => (rest vs).bind f
  | .label field read rest, f => .label field read fun s => (rest s).bind f
  | .labels field read rest, f => .labels field read fun ss => (rest ss).bind f

instance : Monad Recipe where
  pure := .done
  bind := bind

theorem bind_done {α : Type} (r : Recipe α) : r.bind .done = r := by
  induction r with
  | done value => rfl
  | refuse cause => rfl
  | look rest ih => simp [bind, ih]
  | touch field rest ih => simp [bind, ih]
  | child field form rest ih => simp [bind, ih]
  | optional field form rest ih => simp [bind, ih]
  | chain field form rest ih => simp [bind, ih]
  | label field read rest ih => simp [bind, ih]
  | labels field read rest ih => simp [bind, ih]

theorem bind_assoc {α β γ : Type} (r : Recipe α) (f : α → Recipe β) (g : β → Recipe γ) :
    (r.bind f).bind g = r.bind fun a => (f a).bind g := by
  induction r with
  | done value => rfl
  | refuse cause => rfl
  | look rest ih => simp [bind, ih]
  | touch field rest ih => simp [bind, ih]
  | child field form rest ih => simp [bind, ih]
  | optional field form rest ih => simp [bind, ih]
  | chain field form rest ih => simp [bind, ih]
  | label field read rest ih => simp [bind, ih]
  | labels field read rest ih => simp [bind, ih]

instance : LawfulMonad Recipe :=
  LawfulMonad.mk' Recipe (fun r => bind_done r) (fun _ _ => rfl) bind_assoc

def attributes : Recipe Attributes := .look .done

def violate {α : Type} (v : Violation) : Recipe α := .refuse (.contractViolation v)

def unsupported {α : Type} : Recipe α := .look fun a => .refuse (.unsupportedKind a.kind)

def expect (kind : Kind) : Recipe Unit :=
  .look fun a => if a.kind = kind then .done () else .refuse (.unsupportedKind a.kind)

def ofExcept {α : Type} : Except Cause α → Recipe α
  | .ok value => .done value
  | .error cause => .refuse cause

def identifier : Recipe String := .look fun a => ofExcept a.identifier

def part (field : Field) (form : Form) : Recipe form.Value := .child field form .done

def part? (field : Field) (form : Form) : Recipe (Option form.Value) := .optional field form .done

def parts (field : Field) (form : Form) : Recipe (List form.Value) := .chain field form .done

def skip (field : Field) : Recipe Unit := .touch field (.done ())

end Recipe

end VhdlDesign
