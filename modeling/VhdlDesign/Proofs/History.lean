import VhdlDesign.Build.Context
import VhdlDesign.Proofs.Files

/-!
Contexts carry no history.

A visit comes to what a builder comes to whose open nodes are those on the stack, and it leaves the
stack as it was. This is shown for asking, for doing one thing after the other and for doing
something inside a node; recipes, builds and chains are made of these.
-/
namespace VhdlDesign

/-- The nodes that are open after something came to a result: those that were open before, unless a
reference without a node ended it inside of others. -/
def openAfter {α : Type} (path : List NodeRef) : Except Fault α → List NodeRef
  | .error (.absent _ left) => left
  | _ => path

theorem openAfter_eq {α : Type} {path : List NodeRef} {r : Except Fault α}
    (regular : endsAbruptly r = false) : openAfter path r = path := by
  cases r using Fault.resultCases with
  | ok v => rfl
  | issue i => rfl
  | absent m left => cases regular

theorem endsAbruptly_of_issues {α : Type} {r : Except Fault α}
    (issues : OnlyRaises (fun e => ∃ i, e = .issue i) r) : endsAbruptly r = false := by
  cases r with
  | ok v => rfl
  | error e =>
    obtain ⟨i, rfl⟩ := issues e rfl
    rfl

/-- A reference without a node was met while exactly these nodes were open. -/
def Fault.MetIn (path : List NodeRef) : Fault → Prop
  | .issue _ => True
  | .absent _ left => left = path

namespace Visit

variable {α β : Type} {path : List NodeRef}

/-- Where the nodes of a list are open, the visit comes to a result and leaves them open. -/
def Comes (act : Visit α) (path : List NodeRef) (r : Except Fault α) : Prop :=
  act.run.run path = (r, openAfter path r)

namespace Comes

theorem pure (v : α) : (pure v : Visit α).Comes path (.ok v) := rfl

theorem bind {act : Visit α} {k : α → Visit β} {r : Except Fault α} {k' : α → Except Fault β}
    (first : act.Comes path r) (rest : ∀ v, r = .ok v → (k v).Comes path (k' v)) :
    (act >>= k).Comes path (r >>= k') := by
  unfold Comes at first ⊢
  simp only [ExceptT.run_bind, StateT.run_bind, first]
  cases r using Fault.resultCases with
  | ok v => exact rest v rfl
  | issue i => rfl
  | absent m left => rfl

theorem map {act : Visit α} {r : Except Fault α} (f : α → β) (h : act.Comes path r) :
    (f <$> act).Comes path (f <$> r) := by
  rw [map_eq_pure_bind, map_eq_pure_bind]
  exact bind h fun v _ => pure (f v)

theorem mapM {make : NodeRef → Visit β} {make' : NodeRef → Except Fault β} {ms : List NodeRef}
    (each : ∀ m, (make m).Comes path (make' m)) : (ms.mapM make).Comes path (ms.mapM make') := by
  induction ms with
  | nil => exact pure []
  | cons m ms ih =>
    rw [List.mapM_cons, List.mapM_cons]
    exact bind (each m) fun v _ => bind ih fun vs _ => pure (v :: vs)

end Comes

end Visit

/-! ### Asking -/

namespace Node

variable {x : Node} {n : NodeRef} {f : Field} {path : List NodeRef}

theorem edge?_met : OnlyRaises (Fault.MetIn path) (x.edge? n f) := by
  unfold edge?
  split
  · exact .ok _
  · exact .error trivial

theorem edge_met : OnlyRaises (Fault.MetIn path) (x.edge n f) := by
  refine .bind edge?_met fun held _ => ?_
  split
  · exact .ok _
  · exact .error trivial

end Node

namespace Builder

variable {b : Builder} {n : NodeRef}

theorem node_met : OnlyRaises (Fault.MetIn b.path) (b.node n) := node_onlyRaises fun _ => rfl

theorem refuse_met {α : Type} {c : Cause} :
    OnlyRaises (Fault.MetIn b.path) (b.refuse n c : Except Fault α) :=
  refuse_onlyRaises (fun _ => rfl) fun _ _ => trivial

theorem elements_met {head : Option NodeRef} :
    OnlyRaises (Fault.MetIn b.path) (b.elements head) :=
  elements_onlyRaises (fun _ _ _ _ => rfl) fun _ _ _ _ _ _ _ => trivial

theorem label_met {read : Attributes → Except Cause String} :
    OnlyRaises (Fault.MetIn b.path) (b.label read n) :=
  label_onlyRaises (fun _ => rfl) fun _ _ _ _ => trivial

theorem expect_met {kinds : List Kind} :
    OnlyRaises (Fault.MetIn b.path) (b.expect n kinds) := by
  refine .bind node_met fun x _ => ?_
  split
  · exact .ok _
  · exact .bind node_met fun _ _ => .error trivial

theorem field?_met {f : Field} : OnlyRaises (Fault.MetIn b.path) (b.field? n f) :=
  .bind node_met fun _ _ => Node.edge?_met

theorem screen_met {f : Form} : OnlyRaises (Fault.MetIn b.path) (b.screen f n) :=
  screen_onlyRaises (fun _ => rfl) fun _ _ => trivial

end Builder

namespace Setting

open Visit

variable {α : Type} {s : Setting} {path : List NodeRef} {n : NodeRef}

theorem ask_comes {question : Builder → Except Fault α}
    (met : OnlyRaises (Fault.MetIn path) (question (s.builder path))) :
    (s.ask question).Comes path (question (s.builder path)) := by
  have same : openAfter path (question (s.builder path)) = path := by
    cases asked : question (s.builder path) using Fault.resultCases with
    | ok v => rfl
    | issue i => rfl
    | absent m left => exact met _ asked
  change (question (s.builder path), path) = _
  rw [same]

/-! ### Inside a node -/

theorem descend_comes {act : Visit α} {r : Except Fault α}
    (inner : n ∉ path → path.length < s.limits.depth → act.Comes (n :: path) r) :
    (s.descend n act).Comes path
      (if n ∈ path then (s.builder path).refuse n (.contractViolation .ancestorReference)
      else if path.length < s.limits.depth then r
      else (s.builder path).refuse n (.contractViolation (.depthExceeded s.limits.depth))) := by
  unfold descend Comes
  simp only [ExceptT.run_mk, StateT.run_bind, StateT.run_get, pure_bind]
  by_cases opened : n ∈ path
  · simp only [if_pos opened]
    exact ask_comes Builder.refuse_met
  simp only [if_neg opened]
  by_cases room : path.length < s.limits.depth
  · simp only [if_pos room, StateT.run_bind, StateT.run_set, pure_bind]
    -- success and an issue pop the node; a missing node leaves the stack as it was found
    rw [inner opened room]
    cases r using Fault.resultCases with
    | ok v => rfl
    | issue i => rfl
    | absent m left => rfl
  · simp only [if_neg room]
    exact ask_comes Builder.refuse_met

/-! ### Recipes -/

theorem carryOut_comes {x : Node} {enter : (f : Form) → NodeRef → Visit f.Value}
    {enter' : (f : Form) → NodeRef → Except Fault f.Value}
    (parts : ∀ f m, (enter f m).Comes path (enter' f m)) (r : Recipe α) :
    (s.carryOut n x enter r).Comes path ((s.builder path).carryOut n x enter' r) := by
  have edge? : ∀ field, (s.ask fun _ => x.edge? n field).Comes path (x.edge? n field) :=
    fun field => ask_comes Node.edge?_met
  have edge : ∀ field, (s.ask fun _ => x.edge n field).Comes path (x.edge n field) :=
    fun field => ask_comes Node.edge_met
  induction r with
  | done value => exact .pure value
  | refuse cause => exact ask_comes (.error trivial)
  | look rest ih => exact ih x.toAttributes
  | touch field rest ih => exact .bind (.map _ (edge? field)) fun _ _ => ih
  | child field form rest ih =>
    exact .bind (edge field) fun m _ => .bind (parts form m) fun v _ => ih v
  | optional field form rest ih =>
    simp only [carryOut, Builder.carryOut]
    refine .bind (edge? field) fun held _ => ?_
    cases held with
    | none => exact ih none
    | some m => exact .bind (parts form m) fun v _ => ih (some v)
  | chain field form rest ih =>
    refine .bind (edge? field) fun head _ => .bind (ask_comes Builder.elements_met) fun ms _ => ?_
    exact .bind (.mapM (parts form)) fun vs _ => ih vs
  | label field read rest ih =>
    exact .bind (edge field) fun m _ => .bind (ask_comes Builder.label_met) fun text _ => ih text
  | labels field read rest ih =>
    refine .bind (edge? field) fun head _ => .bind (ask_comes Builder.elements_met) fun ms _ => ?_
    exact .bind (.mapM fun m => ask_comes Builder.label_met) fun texts _ => ih texts

end Setting

/-- One step of a build: the tests, in their order, and the recipe inside the node. -/
theorem Builder.build_eq (b : Builder) (f : Form) (n : NodeRef) :
    b.build f n = b.screen f n >>= fun _ =>
      if n ∈ b.path then b.refuse n (.contractViolation .ancestorReference)
      else if b.path.length < b.limits.depth then
        (b.push n).node n >>= fun x =>
          (b.push n).carryOut n x (b.push n).build (Grammar.recipe f)
      else b.refuse n (.contractViolation (.depthExceeded b.limits.depth)) := by
  change enter b.room b f n = _
  cases left : b.room with
  | zero =>
    have full : ¬ b.path.length < b.limits.depth := by
      simp only [room] at left
      omega
    rw [if_neg full, enter]
  | succ room =>
    have free : b.path.length < b.limits.depth := by
      simp only [Builder.room] at left
      omega
    have inner : (b.push n).build = enter room (b.push n) := by
      have fewer : (b.push n).room = room := by
        simp only [Builder.room, push, List.length_cons] at left ⊢
        omega
      funext f m
      rw [build, fewer]
    rw [if_pos free, inner, enter]

namespace Setting

open Visit

variable {α : Type} {s : Setting} {path : List NodeRef} {n : NodeRef}

/-- With as many turns as nodes may still be opened, the limit on the stack is what ends the
recursion. -/
theorem enter_comes {turns : Nat} (enough : s.limits.depth ≤ turns + path.length) (f : Form) :
    (s.enter turns f n).Comes path ((s.builder path).build f n) := by
  induction turns generalizing path n f with
  | zero =>
    -- no node can be opened: the stack is full, and this is found out before a turn is needed
    rw [Builder.build_eq, enter]
    refine .bind (ask_comes Builder.screen_met) fun _ _ => descend_comes fun _ room => ?_
    omega
  | succ turns ih =>
    rw [Builder.build_eq, enter]
    refine .bind (ask_comes Builder.screen_met) fun _ _ => descend_comes fun _ _ => ?_
    refine .bind (ask_comes Builder.node_met) fun x _ => carryOut_comes (fun f m => ih ?_ f) _
    simp only [List.length_cons]
    omega

theorem build_comes (f : Form) : (s.build f n).Comes path ((s.builder path).build f n) :=
  enter_comes (Nat.le_add_right _ _) f

theorem buildOpen_comes (f : Form) :
    (s.buildOpen f n).Comes path ((s.builder path).buildOpen f n) :=
  .bind (ask_comes Builder.node_met) fun _ _ => carryOut_comes (fun f _ => build_comes f) _

end Setting

/-! ### Whole files -/

namespace Builder

theorem refuse_bind {α β : Type} (b : Builder) (n : NodeRef) (c : Cause) (k : α → Except Fault β) :
    (b.refuse n c >>= k) = b.refuse n c := by
  unfold refuse
  cases b.node n <;> rfl

theorem descend_bind {α : Type} (b : Builder) (n : NodeRef) (k : Builder → Except Fault α) :
    b.descend n >>= k =
      if n ∈ b.path then b.refuse n (.contractViolation .ancestorReference)
      else if b.path.length < b.limits.depth then k (b.push n)
      else b.refuse n (.contractViolation (.depthExceeded b.limits.depth)) := by
  unfold descend
  split
  · exact b.refuse_bind n _ _
  split
  · rfl
  · exact b.refuse_bind n _ _

end Builder

namespace Setting

open Visit

variable {α : Type} {s : Setting} {path : List NodeRef} {n root : NodeRef}

theorem keep_comes {act : Visit α} {r : Except Fault α} (done : act.Comes path r) :
    (keep act).Comes path (settle r) := by
  unfold keep
  unfold Comes at done ⊢
  simp only [ExceptT.run_mk, StateT.run_bind, done]
  cases r using Fault.resultCases with
  | ok v => rfl
  | issue i => rfl
  | absent m left => rfl

/-- One context for all design units of a file comes to what a builder for each of them comes to. -/
theorem buildDesignUnits_comes :
    (s.buildDesignUnits root).Comes [] (VhdlDesign.buildDesignUnits s.graph s.limits root) := by
  unfold VhdlDesign.buildDesignUnits
  refine .bind (.map _ (ask_comes Builder.expect_met)) fun _ _ => ?_
  rw [Builder.descend_bind]
  refine descend_comes fun _ _ => ?_
  refine .bind (ask_comes Builder.field?_met) fun head _ => ?_
  refine .bind (ask_comes Builder.elements_met) fun units _ => ?_
  exact .mapM fun n => keep_comes (build_comes .designUnit)

/-- However its units end, the build of a file leaves nothing open, provided that every reference
there has a node behind it. -/
theorem buildDesignUnits_run (closed : s.graph.Closed) (present : ∃ x, s.graph root = some x) :
    (s.buildDesignUnits root).run.run [] =
      (VhdlDesign.buildDesignUnits s.graph s.limits root, []) := by
  have done : (s.buildDesignUnits root).run.run [] = _ := buildDesignUnits_comes
  rw [done, openAfter_eq]
  exact endsAbruptly_of_issues (VhdlDesign.buildDesignUnits_issue closed present)

end Setting

/-! ### Operations -/

namespace Builder

def make (b : Builder) (n : NodeRef) : (maker : Maker) → Except Fault maker.Value
  | .build f => b.build f n
  | .buildOpen f => b.buildOpen f n
  | .identifier => b.identifier n

def perform (b : Builder) : (o : Operation) → Except Fault o.Answer
  | .make maker n => b.make n maker
  | .chain maker head => do
    let ms ← b.elements head
    ms.mapM fun n => b.make n maker
  | .inside n inner => do
    let inside ← b.descend n
    inside.perform inner

theorem perform_inside (b : Builder) (n : NodeRef) (inner : Operation) :
    b.perform (.inside n inner) =
      if n ∈ b.path then b.refuse n (.contractViolation .ancestorReference)
      else if b.path.length < b.limits.depth then (b.push n).perform inner
      else b.refuse n (.contractViolation (.depthExceeded b.limits.depth)) :=
  b.descend_bind n (·.perform inner)

theorem make_issue {b : Builder} (total : ∀ n, ∃ x, b.graph n = some x) (n : NodeRef)
    (maker : Maker) : OnlyRaises (fun e => ∃ i, e = .issue i) (b.make n maker) := by
  have closed : b.graph.Closed := fun _ m _ => total m
  cases maker with
  | build f =>
    change OnlyRaises _ (b.build f n)
    rw [build_eq_buildUnless]
    exact buildUnless_issue closed (total n) openTwice f
  | buildOpen f => exact buildOpen_issue closed (total n) f
  | identifier =>
    refine label_onlyRaises (fun missing => ?_) fun _ _ _ _ => ⟨_, rfl⟩
    obtain ⟨x, found⟩ := total n
    rw [missing] at found
    cases found

theorem perform_issue {b : Builder} (total : ∀ n, ∃ x, b.graph n = some x) (o : Operation) :
    OnlyRaises (fun e => ∃ i, e = .issue i) (b.perform o) := by
  have nowhere : ∀ {m path}, b.graph m = none → ∃ i, Fault.absent m path = .issue i := by
    intro m path missing
    obtain ⟨x, found⟩ := total m
    rw [missing] at found
    cases found
  induction o generalizing b with
  | make maker n => exact make_issue total n maker
  | chain maker head =>
    refine .bind (elements_onlyRaises (fun m _ _ => nowhere) fun _ _ _ _ _ _ _ => ⟨_, rfl⟩) ?_
    exact fun ms _ => .mapM fun m _ => make_issue total m maker
  | inside n inner ih =>
    have refused : ∀ c, OnlyRaises (fun e => ∃ i, e = .issue i)
        (b.refuse n c : Except Fault inner.Answer) :=
      fun c => refuse_onlyRaises nowhere fun _ _ => ⟨_, rfl⟩
    rw [perform_inside]
    split
    · exact refused _
    split
    · exact ih (b := b.push n) total nowhere
    · exact refused _

end Builder

namespace Setting

open Visit

variable {s : Setting} {path : List NodeRef}

theorem make_comes (maker : Maker) (n : NodeRef) :
    (s.make n maker).Comes path ((s.builder path).make n maker) := by
  cases maker with
  | build f => exact build_comes f
  | buildOpen f => exact buildOpen_comes f
  | identifier =>
    change (s.ask (·.identifier n)).Comes path ((s.builder path).identifier n)
    exact ask_comes Builder.label_met

theorem run_comes (o : Operation) : (s.run o).Comes path ((s.builder path).perform o) := by
  induction o generalizing path with
  | make maker n => exact make_comes maker n
  | chain maker head =>
    exact .bind (ask_comes Builder.elements_met) fun ms _ => .mapM (make_comes maker)
  | inside n inner ih =>
    rw [Builder.perform_inside]
    exact descend_comes fun _ _ => ih

theorem run_eq (s : Setting) (o : Operation) (path : List NodeRef) :
    (s.run o).run.run path =
      ((s.builder path).perform o, openAfter path ((s.builder path).perform o)) := run_comes o

theorem perform_eq (ops : List Operation)
    (regular : ∀ o ∈ ops, endsAbruptly ((s.builder path).perform o) = false) :
    (s.perform ops).run path =
      (ops.map fun o => ⟨o, (s.builder path).perform o, path.length⟩, path) := by
  induction ops with
  | nil => rfl
  | cons o ops ih =>
    obtain ⟨first, rest⟩ := List.forall_mem_cons.mp regular
    have here := s.run_eq o path
    rw [openAfter_eq first] at here
    rw [perform]
    simp only [StateT.run_bind, here, StateT.run_get, pure_bind]
    change (⟨o, (s.builder path).perform o, path.length⟩ :: ((s.perform ops).run path).1,
      ((s.perform ops).run path).2) = _
    rw [ih rest]
    rfl

end Setting

/-- A context carries no history. Whatever nodes are open, an operation comes to what a builder
comes to that has just these open, and leaves them open as they were, whether it succeeds or fails;
only a reference without a node behind it, of which a complete graph has none, ends everything where
it is met. So operations in one context, one after the other, get the answers that each of them gets
in a context of its own, and nothing is open between them. -/
theorem contexts_carry_no_history (s : Setting) :
    (∀ o path, ((s.run o).run.run path).1 = (s.builder path).perform o ∧
      (endsAbruptly ((s.run o).run.run path).1 = false → ((s.run o).run.run path).2 = path)) ∧
    ((∀ n, ∃ x, s.graph n = some x) →
      ∀ o path, endsAbruptly ((s.run o).run.run path).1 = false) ∧
    ∀ ops : List Operation,
      (∀ o ∈ ops, endsAbruptly ((s.run o).run.run []).1 = false) →
        (s.perform ops).run [] = (ops.map fun o => ⟨o, ((s.run o).run.run []).1, 0⟩, []) := by
  refine ⟨fun o path => ?_, fun total o path => ?_, fun ops regular => ?_⟩
  · rw [s.run_eq o path]
    exact ⟨rfl, openAfter_eq⟩
  · rw [s.run_eq o path]
    exact endsAbruptly_of_issues (Builder.perform_issue total o)
  · have answers : ∀ o, ((s.run o).run.run []).1 = (s.builder []).perform o := fun o => by
      rw [s.run_eq o []]
    simp only [answers] at regular ⊢
    exact Setting.perform_eq ops regular

def selfReference : Setting where
  limits := ⟨2, 2⟩
  graph
    | ⟨0⟩ => some { kind := .parenthesis,
                    field := fun f => if f = .expression then some ⟨0⟩ else none }
    | ⟨1⟩ => some { kind := .integerLiteral, literal := some (.integer 7) }
    | _ => none

/-- The parentheses fail inside themselves; the number is built inside of them and then alone. -/
def troubledRun : List Operation :=
  [.make (.build .expression) ⟨0⟩, .inside ⟨0⟩ (.make (.build .expression) ⟨1⟩),
    .make (.build .expression) ⟨1⟩]

theorem selfReference_forgotten :
    (∀ o ∈ troubledRun, endsAbruptly ((selfReference.run o).run.run []).1 = false) ∧
      (selfReference.perform troubledRun).run [] =
        ([⟨.make (.build .expression) ⟨0⟩,
            .error (.issue ⟨.contractViolation .ancestorReference, ⟨0⟩, .parenthesis, none⟩), 0⟩,
          ⟨.inside ⟨0⟩ (.make (.build .expression) ⟨1⟩), .ok (.integer 7), 0⟩,
          ⟨.make (.build .expression) ⟨1⟩, .ok (.integer 7), 0⟩], []) := by
  have regular : ∀ o ∈ troubledRun, endsAbruptly ((selfReference.run o).run.run []).1 = false := by
    intro o member
    simp only [troubledRun, List.mem_cons, List.not_mem_nil, or_false] at member
    rcases member with rfl | rfl | rfl <;> rfl
  exact ⟨regular, (contexts_carry_no_history selfReference).2.2 troubledRun regular⟩

end VhdlDesign
