import VhdlDesign.Build.Context
import VhdlDesign.Proofs.Walking

/-!
What is made of a chain.

The whole chain is walked before anything is made of its elements. Then something is made of each in
order, with whatever state this needs, up to the first that fails. The calls are noted down in one
list, so that their order can be seen.
-/
namespace VhdlDesign

/-- A call that is made when a chain is collected: a node is asked for its successor, or something
is to be made of it. -/
inductive Call
  | successor (n : NodeRef)
  | make (n : NodeRef)
  deriving DecidableEq

section

variable {σ ε β : Type}

inductive Made (make : NodeRef → StateM σ (Except ε β)) : σ → List NodeRef → List β → σ → Prop
  | done (s : σ) : Made make s [] [] s
  | step {s s' s'' : σ} {n : NodeRef} {v : β} {ns : List NodeRef} {vs : List β}
      (first : (make n).run s = (.ok v, s')) (rest : Made make s' ns vs s'') :
      Made make s (n :: ns) (v :: vs) s''

/-- The nodes of `called` are the first ones of a list, up to one of which nothing can be made. -/
def Stopped (make : NodeRef → StateM σ (Except ε β)) (s : σ) (ns called : List NodeRef) (e : ε)
    (s' : σ) : Prop :=
  ∃ before n after vs between, ns = before ++ n :: after ∧ called = before ++ [n] ∧
    Made make s before vs between ∧ (make n).run between = (.error e, s')

def makeNoting {κ : Type} (call : NodeRef → κ) (make : NodeRef → StateM σ (Except ε β))
    (ns : List NodeRef) (log : List κ) (s : σ) : (Except ε (List β) × List κ) × σ :=
  ((ns.mapM fun n => ExceptT.mk (noted call make n)).run.run log).run s

/-- What comes of collecting a chain: the result, the calls that are made for it, in order, and the
state that they leave. -/
def collectNoting (next : NodeRef → Option NodeRef) (limit : Nat) (start : Option NodeRef)
    (make : NodeRef → StateM σ (Except ε β)) (s : σ) :
    (Except (ChainFailure ε) (List β) × List Call) × σ :=
  ((collect (noted .successor fun n => pure (next n)) limit start (noted .make make)).run []).run s

variable {make : NodeRef → StateM σ (Except ε β)} {s s' : σ} {ns : List NodeRef}

/-! ### Elements -/

theorem made_or_stopped (make : NodeRef → StateM σ (Except ε β)) (s : σ) (ns : List NodeRef) :
    (∃ vs s', Made make s ns vs s') ∨ ∃ called e s', Stopped make s ns called e s' := by
  induction ns generalizing s with
  | nil => exact .inl ⟨[], s, .done s⟩
  | cons n ns ih =>
    obtain ⟨result, s', first⟩ : ∃ result s', (make n).run s = (result, s') := ⟨_, _, rfl⟩
    cases result with
    | error e => exact .inr ⟨[n], e, s', [], n, ns, [], s, rfl, rfl, .done s, first⟩
    | ok v =>
      rcases ih s' with ⟨vs, s'', made⟩ | ⟨called, e, s'', stopped⟩
      · exact .inl ⟨v :: vs, s'', .step first made⟩
      · obtain ⟨before, m, after, vs, between, rfl, rfl, made, failed⟩ := stopped
        exact .inr ⟨n :: (before ++ [m]), e, s'', n :: before, m, after, v :: vs, between, rfl, rfl,
          .step first made, failed⟩

section

variable {κ : Type} {call : NodeRef → κ}

theorem makeNoting_cons {n : NodeRef} {v : β} (first : (make n).run s = (.ok v, s'))
    {result : Except ε (List β)} {log log' : List κ} {s'' : σ}
    (rest : makeNoting call make ns (log ++ [call n]) s' = ((result, log'), s'')) :
    makeNoting call make (n :: ns) log s = ((result.map (v :: ·), log'), s'') := by
  unfold makeNoting at rest ⊢
  rw [List.mapM_cons, ExceptT.run_bind, ExceptT.run_mk]
  simp only [StateT.run_bind, noted_run, bind_assoc, pure_bind, first]
  change ((((ns.mapM fun n => ExceptT.mk (noted call make n)) >>= _).run).run _).run s' = _
  simp only [ExceptT.run_bind, StateT.run_bind, rest]
  cases result with
  | error e => rfl
  | ok vs => rfl

theorem makeNoting_of_made {vs : List β} (made : Made make s ns vs s') (log : List κ) :
    makeNoting call make ns log s = ((.ok vs, log ++ ns.map call), s') := by
  induction made generalizing log with
  | done s =>
    rw [List.map_nil, List.append_nil]
    rfl
  | @step s s' s'' n v ns vs first _ ih =>
    rw [makeNoting_cons first (ih (log ++ [call n])), List.append_assoc]
    rfl

theorem makeNoting_of_stopped {called : List NodeRef} {e : ε}
    (stopped : Stopped make s ns called e s') (log : List κ) :
    makeNoting call make ns log s = ((.error e, log ++ called.map call), s') := by
  obtain ⟨before, n, after, vs, between, rfl, rfl, made, failed⟩ := stopped
  induction made generalizing log with
  | done s =>
    rw [List.nil_append, makeNoting, List.mapM_cons, ExceptT.run_bind, ExceptT.run_mk]
    simp only [StateT.run_bind, noted_run, bind_assoc, pure_bind, failed]
    rfl
  | @step s s' s'' m v before vs first _ ih =>
    rw [List.cons_append, makeNoting_cons first (ih (log ++ [call m]) failed), List.append_assoc]
    rfl

theorem makeNoting_eq_ok {vs : List β} {log log' : List κ} :
    makeNoting call make ns log s = ((.ok vs, log'), s') ↔
      Made make s ns vs s' ∧ log' = log ++ ns.map call := by
  constructor
  · intro result
    rcases made_or_stopped make s ns with ⟨_, _, made⟩ | ⟨_, _, _, stopped⟩
    · rw [makeNoting_of_made made] at result
      cases result
      exact ⟨made, rfl⟩
    · rw [makeNoting_of_stopped stopped] at result
      cases result
  · rintro ⟨made, rfl⟩
    exact makeNoting_of_made made log

theorem makeNoting_eq_error {e : ε} {log log' : List κ} :
    makeNoting call make ns log s = ((.error e, log'), s') ↔
      ∃ called, Stopped make s ns called e s' ∧ log' = log ++ called.map call := by
  constructor
  · intro result
    rcases made_or_stopped make s ns with ⟨_, _, made⟩ | ⟨_, _, _, stopped⟩
    · rw [makeNoting_of_made made] at result
      cases result
    · rw [makeNoting_of_stopped stopped] at result
      cases result
      exact ⟨_, stopped, rfl⟩
  · rintro ⟨called, stopped, rfl⟩
    exact makeNoting_of_stopped stopped log

end

/-! ### Chains -/

theorem collectNoting_of_defect {next : NodeRef → Option NodeRef} {limit : Nat}
    {start : Option NodeRef} {n : NodeRef} {d : ChainDefect}
    (defect : (walk next limit start).defect = some (n, d)) :
    collectNoting next limit start make s =
      ((.error (.chain n d), (walk next limit start).nodes.map .successor), s) := by
  unfold collectNoting collect
  simp only [StateT.run_bind, walkM_noted, pure_bind, List.nil_append, defect]
  rfl

theorem collectNoting_of_sound {next : NodeRef → Option NodeRef} {limit : Nat}
    {start : Option NodeRef} (sound : (walk next limit start).defect = none)
    {result : Except ε (List β)} {calls : List Call}
    (made : makeNoting .make make (walk next limit start).nodes
      ((walk next limit start).nodes.map .successor) s = ((result, calls), s')) :
    collectNoting next limit start make s = ((result.mapError .element, calls), s') := by
  unfold makeNoting at made
  unfold collectNoting collect
  simp only [StateT.run_bind, walkM_noted, pure_bind, List.nil_append, sound, made]
  rfl

end

/-- A chain is walked to its end before anything is made of its elements. If it is malformed, this
is the result and nothing is made. Otherwise something is made of each element in order, with the
state that the ones before leave, until one fails, which is then the result and the last call; and
if none fails, the result is what was made of all of them in order. -/
theorem chains_are_walked_before_use {σ ε β : Type} (next : NodeRef → Option NodeRef) (limit : Nat)
    (start : Option NodeRef) (make : NodeRef → StateM σ (Except ε β)) (s : σ) :
    (∀ n d calls s', collectNoting next limit start make s = ((.error (.chain n d), calls), s') ↔
      (walk next limit start).defect = some (n, d) ∧
        calls = (walk next limit start).nodes.map .successor ∧ s' = s) ∧
    (∀ vs calls s', collectNoting next limit start make s = ((.ok vs, calls), s') ↔
      (walk next limit start).defect = none ∧
        Made make s (walk next limit start).nodes vs s' ∧
        calls = (walk next limit start).nodes.map .successor ++
          (walk next limit start).nodes.map .make) ∧
    (∀ e calls s', collectNoting next limit start make s = ((.error (.element e), calls), s') ↔
      (walk next limit start).defect = none ∧
        ∃ called, Stopped make s (walk next limit start).nodes called e s' ∧
          calls = (walk next limit start).nodes.map .successor ++ called.map .make) := by
  cases defect : (walk next limit start).defect with
  | some stop =>
    obtain ⟨m, c⟩ := stop
    rw [collectNoting_of_defect defect]
    refine ⟨?_, by simp, by simp⟩
    intro n d calls s'
    constructor
    · intro result
      cases result
      exact ⟨rfl, rfl, rfl⟩
    · rintro ⟨same, rfl, rfl⟩
      cases same
      rfl
  | none =>
    obtain ⟨⟨⟨result, noting⟩, after⟩, made⟩ : ∃ outcome,
        makeNoting .make make (walk next limit start).nodes
          ((walk next limit start).nodes.map Call.successor) s = outcome := ⟨_, rfl⟩
    rw [collectNoting_of_sound defect made]
    simp only [true_and, ← makeNoting_eq_ok, ← makeNoting_eq_error, made]
    cases result with
    | ok us => simp [Except.mapError]
    | error f => simp [Except.mapError]

def row : NodeRef → Option NodeRef
  | ⟨0⟩ => some ⟨1⟩
  | ⟨1⟩ => some ⟨2⟩
  | _ => none

def showOnce (n : NodeRef) : StateM Nat (Except NodeRef String) := do
  let shown ← get
  set (shown + 1)
  return if shown = 0 then .ok n.text else .error n

theorem row_stops_at_second :
    collectNoting row 3 (some ⟨0⟩) showOnce 0 =
      ((.error (.element ⟨1⟩), [.successor ⟨0⟩, .successor ⟨1⟩, .successor ⟨2⟩, .make ⟨0⟩,
        .make ⟨1⟩]), 2) :=
  ((chains_are_walked_before_use row 3 (some ⟨0⟩) showOnce 0).2.2 _ _ _).mpr
    ⟨rfl, [⟨0⟩, ⟨1⟩], ⟨[⟨0⟩], ⟨1⟩, [⟨2⟩], ["#1"], 1, rfl, rfl, .step rfl (.done 1), rfl⟩, rfl⟩

/-! ### Chains of a context -/

namespace Setting

variable {β : Type}

theorem builder_graph (s : Setting) (path : List NodeRef) : (s.builder path).graph = s.graph := rfl

theorem builder_limits (s : Setting) (path : List NodeRef) :
    (s.builder path).limits = s.limits := rfl

/-- What a context makes of a chain that was collected: a malformed chain is an issue at the node
where it was found. -/
def locate (s : Setting) : Except (ChainFailure Fault) β → Visit β
  | .ok v => pure v
  | .error (.chain n d) => s.ask (·.refuse n (.malformedChain d))
  | .error (.element e) => throw e

theorem chain_eq_collect (s : Setting) (head : Option NodeRef) (make : NodeRef → Visit β)
    (present : ∀ n ∈ (walk s.graph.next s.limits.chainLength head).nodes, ∃ x, s.graph n = some x) :
    (s.chain head make).run =
      collect (fun n => pure (s.graph.next n)) s.limits.chainLength head (fun n => (make n).run) >>=
        fun collected => (s.locate collected).run := by
  apply StateT.ext
  intro path
  rcases (s.builder path).elements_cases head with ⟨_, gathered⟩ | ⟨m, member, missing, _⟩
  swap
  · obtain ⟨x, found⟩ := present m member
    cases missing.symm.trans found
  rw [builder_graph, builder_limits] at gathered
  have asked : (s.ask (·.elements head)).run.run path =
      pure ((s.builder path).elements head, path) := rfl
  rw [chain, ExceptT.run_bind, collect, walkM_pure, pure_bind, StateT.run_bind, asked, gathered,
    pure_bind]
  cases (walk s.graph.next s.limits.chainLength head).defect with
  | none =>
    simp only [bind_assoc, pure_bind]
    have whole : ∀ made : Except Fault (List β),
        (s.locate (made.mapError .element)).run = pure made := by
      intro made
      cases made <;> rfl
    simp only [whole, bind_pure]
    rfl
  | some stop =>
    obtain ⟨n, defect⟩ := stop
    change _ = pure ((s.builder path).refuse n (.malformedChain defect), path)
    simp only [Builder.refuse]
    cases (s.builder path).node n with
    | error e => rfl
    | ok x => rfl

end Setting

end VhdlDesign
