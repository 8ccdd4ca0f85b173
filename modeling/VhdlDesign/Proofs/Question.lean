import VhdlDesign.Proofs.Result

/-!
Recipes seen as questions.

Six of the steps of a recipe put a question to the graph and go on with the answer. Taken together
they make one case of an induction on recipes, and carrying a recipe out is answering its questions
in order.
-/
namespace VhdlDesign

/-- A step of a recipe that looks beyond the attributes of its node. -/
inductive Question
  | touch (field : Field)
  | child (field : Field) (form : Form)
  | optional (field : Field) (form : Form)
  | chain (field : Field) (form : Form)
  | label (field : Field) (read : Attributes → Except Cause String)
  | labels (field : Field) (read : Attributes → Except Cause String)

namespace Question

abbrev Answer : Question → Type
  | .touch _ => Unit
  | .child _ form => form.Value
  | .optional _ form => Option form.Value
  | .chain _ form => List form.Value
  | .label _ _ => String
  | .labels _ _ => List String

def field : Question → Field
  | .touch field => field
  | .child field _ => field
  | .optional field _ => field
  | .chain field _ => field
  | .label field _ => field
  | .labels field _ => field

end Question

/-- Two nodes say the same of themselves. Flags count as a set. -/
structure Attributes.Same (a a' : Attributes) : Prop where
  kind : a'.kind = a.kind
  name : a'.name = a.name
  literal : a'.literal = a.literal
  mode : a'.mode = a.mode
  direction : a'.direction = a.direction
  flags : ∀ f, a'.has f = a.has f

theorem Attributes.Same.refl (a : Attributes) : a.Same a :=
  ⟨rfl, rfl, rfl, rfl, rfl, fun _ => rfl⟩

namespace Recipe

variable {α β : Type}

def ask : (q : Question) → (q.Answer → Recipe α) → Recipe α
  | .touch field, rest => .touch field (rest ())
  | .child field form, rest => .child field form rest
  | .optional field form, rest => .optional field form rest
  | .chain field form, rest => .chain field form rest
  | .label field read, rest => .label field read rest
  | .labels field read, rest => .labels field read rest

@[elab_as_elim]
theorem askInduction {motive : Recipe α → Prop} (done : ∀ value, motive (.done value))
    (refuse : ∀ cause, motive (.refuse cause))
    (look : ∀ rest, (∀ a, motive (rest a)) → motive (.look rest))
    (ask : ∀ (q : Question) rest, (∀ v, motive (rest v)) → motive (Recipe.ask q rest))
    (r : Recipe α) : motive r := by
  induction r with
  | done value => exact done value
  | refuse cause => exact refuse cause
  | look rest ih => exact look rest ih
  | touch field rest ih => exact ask (.touch field) (fun _ => rest) fun _ => ih
  | child field form rest ih => exact ask (.child field form) rest ih
  | optional field form rest ih => exact ask (.optional field form) rest ih
  | chain field form rest ih => exact ask (.chain field form) rest ih
  | label field read rest ih => exact ask (.label field read) rest ih
  | labels field read rest ih => exact ask (.labels field read) rest ih

/-! ### What a recipe may do, and what it cannot leave out -/

/-- At a node with the attributes `a`, whatever the answers are, the recipe refuses only with causes
of `C` and asks only questions of `Q`. -/
def Keeps (a : Attributes) (C : Cause → Prop) (Q : Question → Prop) : Recipe α → Prop
  | .done _ => True
  | .refuse cause => C cause
  | .look rest => (rest a).Keeps a C Q
  | .touch field rest => Q (.touch field) ∧ rest.Keeps a C Q
  | .child field form rest => Q (.child field form) ∧ ∀ v, (rest v).Keeps a C Q
  | .optional field form rest => Q (.optional field form) ∧ ∀ v, (rest v).Keeps a C Q
  | .chain field form rest => Q (.chain field form) ∧ ∀ v, (rest v).Keeps a C Q
  | .label field read rest => Q (.label field read) ∧ ∀ v, (rest v).Keeps a C Q
  | .labels field read rest => Q (.labels field read) ∧ ∀ v, (rest v).Keeps a C Q

def Asks (a : Attributes) (q : Question) : Recipe α → Prop
  | .done _ => False
  | .refuse _ => True
  | .look rest => (rest a).Asks a q
  | .touch field rest => q = .touch field ∨ rest.Asks a q
  | .child field form rest => q = .child field form ∨ ∀ v, (rest v).Asks a q
  | .optional field form rest => q = .optional field form ∨ ∀ v, (rest v).Asks a q
  | .chain field form rest => q = .chain field form ∨ ∀ v, (rest v).Asks a q
  | .label field read rest => q = .label field read ∨ ∀ v, (rest v).Asks a q
  | .labels field read rest => q = .labels field read ∨ ∀ v, (rest v).Asks a q

/-- A recipe at a node with the attributes `a` goes on alike at every node that says the same of
itself. -/
def Steady (a : Attributes) : Recipe α → Prop
  | .done _ => True
  | .refuse _ => True
  | .look rest => (∀ a', a.Same a' → rest a' = rest a) ∧ (rest a).Steady a
  | .touch _ rest => rest.Steady a
  | .child _ _ rest => ∀ v, (rest v).Steady a
  | .optional _ _ rest => ∀ v, (rest v).Steady a
  | .chain _ _ rest => ∀ v, (rest v).Steady a
  | .label _ _ rest => ∀ v, (rest v).Steady a
  | .labels _ _ rest => ∀ v, (rest v).Steady a

variable {a : Attributes} {C : Cause → Prop} {Q : Question → Prop} {q : Question}

theorem keeps_ask (p : Question) (rest : p.Answer → Recipe α) :
    (ask p rest).Keeps a C Q ↔ Q p ∧ ∀ v, (rest v).Keeps a C Q := by
  cases p with
  | touch field => exact and_congr_right fun _ => ⟨fun h _ => h, fun h => h ()⟩
  | child field form => exact Iff.rfl
  | optional field form => exact Iff.rfl
  | chain field form => exact Iff.rfl
  | label field read => exact Iff.rfl
  | labels field read => exact Iff.rfl

theorem asks_ask (p : Question) (rest : p.Answer → Recipe α) :
    (ask p rest).Asks a q ↔ q = p ∨ ∀ v, (rest v).Asks a q := by
  cases p with
  | touch field => exact or_congr_right ⟨fun h _ => h, fun h => h ()⟩
  | child field form => exact Iff.rfl
  | optional field form => exact Iff.rfl
  | chain field form => exact Iff.rfl
  | label field read => exact Iff.rfl
  | labels field read => exact Iff.rfl

theorem steady_ask (p : Question) (rest : p.Answer → Recipe α) :
    (ask p rest).Steady a ↔ ∀ v, (rest v).Steady a := by
  cases p with
  | touch field => exact ⟨fun h _ => h, fun h => h ()⟩
  | child field form => exact Iff.rfl
  | optional field form => exact Iff.rfl
  | chain field form => exact Iff.rfl
  | label field read => exact Iff.rfl
  | labels field read => exact Iff.rfl

end Recipe

namespace Builder

variable {α : Type}

def answer (b : Builder) (n : NodeRef) (x : Node)
    (enter : (f : Form) → NodeRef → Except Fault f.Value) :
    (q : Question) → Except Fault q.Answer
  | .touch field => discard (x.edge? n field)
  | .child field form => do
    let m ← x.edge n field
    enter form m
  | .optional field form => do
    match ← x.edge? n field with
    | none => .ok none
    | some m => some <$> enter form m
  | .chain field form => do
    let head ← x.edge? n field
    let ms ← b.elements head
    ms.mapM (enter form)
  | .label field read => do
    let m ← x.edge n field
    b.label read m
  | .labels field read => do
    let head ← x.edge? n field
    let ms ← b.elements head
    ms.mapM (b.label read)

theorem carryOut_ask (b : Builder) (n : NodeRef) (x : Node)
    (enter : (f : Form) → NodeRef → Except Fault f.Value) (q : Question)
    (rest : q.Answer → Recipe α) :
    b.carryOut n x enter (.ask q rest) =
      b.answer n x enter q >>= fun v => b.carryOut n x enter (rest v) := by
  cases q with
  | touch field => rfl
  | child field form => simp only [Recipe.ask, carryOut, answer, bind_assoc]
  | optional field form =>
    simp only [Recipe.ask, carryOut, answer, bind_assoc]
    congr 1
    funext held
    cases held with
    | none => rfl
    | some m => simp only [map_eq_pure_bind, bind_assoc, pure_bind]
  | chain field form => simp only [Recipe.ask, carryOut, answer, bind_assoc]
  | label field read => simp only [Recipe.ask, carryOut, answer, bind_assoc]
  | labels field read => simp only [Recipe.ask, carryOut, answer, bind_assoc]

section

variable {b b' : Builder} {n : NodeRef} {x : Node}
variable {enter enter' : (f : Form) → NodeRef → Except Fault f.Value}
variable {C : Cause → Prop} {Q : Question → Prop}

theorem carryOut_onlyRaises {P : Fault → Prop} {r : Recipe α}
    (kept : r.Keeps x.toAttributes C Q) (refusals : ∀ c, C c → P (x.issue n c))
    (answers : ∀ q, Q q → OnlyRaises P (b.answer n x enter q)) :
    OnlyRaises P (b.carryOut n x enter r) := by
  induction r using Recipe.askInduction with
  | done value => exact .ok value
  | refuse cause => exact .error (refusals cause kept)
  | look rest ih => exact ih x.toAttributes kept
  | ask q rest ih =>
    obtain ⟨hq, hrest⟩ := (Recipe.keeps_ask q rest).mp kept
    rw [carryOut_ask]
    exact .bind (answers q hq) fun v _ => ih v (hrest v)

theorem carryOut_follows {excused : Fault → Prop} {r : Recipe α}
    (kept : r.Keeps x.toAttributes C Q)
    (answers : ∀ q, Q q → Follows excused (b.answer n x enter q) (b'.answer n x enter' q)) :
    Follows excused (b.carryOut n x enter r) (b'.carryOut n x enter' r) := by
  induction r using Recipe.askInduction with
  | done value => exact .refl _
  | refuse cause => exact .refl _
  | look rest ih => exact ih x.toAttributes kept
  | ask q rest ih =>
    obtain ⟨hq, hrest⟩ := (Recipe.keeps_ask q rest).mp kept
    rw [carryOut_ask, carryOut_ask]
    exact .bind (answers q hq) fun v _ => ih v (hrest v)

theorem answer_of_carryOut {q : Question} {r : Recipe α} {v : α}
    (asked : r.Asks x.toAttributes q) (built : b.carryOut n x enter r = .ok v) :
    ∃ w, b.answer n x enter q = .ok w := by
  induction r using Recipe.askInduction with
  | done value => exact asked.elim
  | refuse cause => cases built
  | look rest ih => exact ih x.toAttributes asked built
  | ask p rest ih =>
    rw [carryOut_ask] at built
    obtain ⟨w, hw, built⟩ := bind_eq_ok built
    rcases (Recipe.asks_ask p rest).mp asked with rfl | later
    · exact ⟨w, hw⟩
    · exact ih w (later w) built

end

end Builder

end VhdlDesign
