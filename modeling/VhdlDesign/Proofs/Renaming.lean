import VhdlDesign.Proofs.Mirror

/-!
Renamed references.

A builder compares references and shows them in issues, and does nothing else with them. When the
nodes that a build can meet are renamed one to one, chains come back to the images of the elements
that they came back to before, and the issue is the same up to the names of its nodes.
-/
namespace VhdlDesign

/-! ### The names in an issue -/

section

variable (h : NodeRef → NodeRef)

def ChainDefect.rename : ChainDefect → ChainDefect
  | .cycle repeated length => .cycle (h repeated) length
  | .tooLong limit => .tooLong limit

def Cause.rename : Cause → Cause
  | .malformedChain defect => .malformedChain (defect.rename h)
  | c => c

def Issue.rename (i : Issue) : Issue :=
  { i with cause := i.cause.rename h, node := h i.node }

def Fault.rename : Fault → Fault
  | .issue i => .issue (i.rename h)
  | .absent n path => .absent (h n) (path.map h)

def Trail.rename (t : Trail) : Trail :=
  ⟨t.nodes.map h, t.defect.map fun stop => (h stop.1, stop.2.rename h)⟩

end

theorem Cause.Plain.rename {c : Cause} (plain : c.Plain) (h : NodeRef → NodeRef) :
    c.rename h = c := by
  cases c with
  | malformedChain defect => exact plain.elim
  | unresolvableName defect => rfl
  | unsupportedKind kind => rfl
  | contractViolation violation => rfl

theorem Issue.rename_id (i : Issue) : i.rename id = i := by
  obtain ⟨cause, node, kind, position⟩ := i
  cases cause with
  | malformedChain defect => cases defect <;> rfl
  | unresolvableName defect => rfl
  | unsupportedKind kind => rfl
  | contractViolation violation => rfl

namespace Mirrors

variable {α β : Type} {h : NodeRef → NodeRef}

theorem mapError_eq {r r' : Except Issue α}
    (mirrors : Mirrors Eq (fun i j => j = i.rename h) (r.mapError .issue) (r'.mapError .issue)) :
    r' = r.mapError (Issue.rename h) := by
  rcases mirrors.of_mapError with ⟨v, _, rfl, rfl, rfl⟩ | ⟨i, _, rfl, rfl, rfl⟩
  · rfl
  · rfl

theorem eq_mapError {rename : α → β} {r : Except Fault α} {r' : Except Fault β}
    (mirrors : Mirrors (fun v w => w = rename v) (fun i j => j = i.rename h) r r')
    (issues : OnlyRaises (fun e => ∃ i, e = .issue i) r) :
    r' = (r.map rename).mapError (Fault.rename h) := by
  cases mirrors with
  | ok values =>
    rw [values]
    rfl
  | issue renamed =>
    rw [renamed]
    rfl
  | absent n path =>
    obtain ⟨i, other⟩ := issues _ rfl
    cases other

theorem eq_rename {r r' : Except Fault α} (mirrors : Mirrors Eq (fun i j => j = i.rename h) r r')
    (issues : OnlyRaises (fun e => ∃ i, e = .issue i) r) : r' = r.mapError (Fault.rename h) := by
  have values : Mirrors (fun v w => w = id v) (fun i j => j = i.rename h) r r' :=
    mirrors.imp fun _ _ _ same => same.symm
  rw [values.eq_mapError issues, Except.map_id]
  rfl

end Mirrors

/-! ### Chains -/

theorem follow_rename {next next' : NodeRef → Option NodeRef} {h : NodeRef → NodeRef}
    {S : NodeRef → Prop} (injective : ∀ n m, S n → S m → h n = h m → n = m)
    (inside : ∀ n m, S n → next n = some m → S m) (limit room : Nat) {seen : List NodeRef}
    (met : ∀ n ∈ seen, S n) {start : Option NodeRef} (first : ∀ n, start = some n → S n)
    (same : ∀ n ∈ (follow next limit room seen start).nodes, next' (h n) = (next n).map h) :
    follow next' limit room (seen.map h) (start.map h) =
      (follow next limit room seen start).rename h := by
  have fresh : ∀ (n : NodeRef) (seen : List NodeRef), (∀ m ∈ seen, S m) → S n → n ∉ seen →
      h n ∉ seen.map h := by
    intro n seen met here unmet again
    obtain ⟨m, member, same⟩ := List.mem_map.mp again
    exact unmet (injective m n (met m member) here same ▸ member)
  fun_induction follow next limit room seen start with
  | case1 => simp [follow, Trail.rename]
  | case2 room seen n again =>
    rw [Option.map_some, follow_met (List.mem_map_of_mem again), List.length_map]
    rfl
  | case3 seen n unmet =>
    have unmet' := fresh n seen met (first n rfl) unmet
    simp only [Option.map_some, follow, if_neg unmet']
    rfl
  | case4 seen n unmet room rest ih =>
    have here : S n := first n rfl
    have unmet' := fresh n seen met here unmet
    have onward := ih (List.forall_mem_cons.mpr ⟨here, met⟩) (fun m led => inside n m here led)
      fun m member => same m (List.mem_cons_of_mem n member)
    rw [← same n List.mem_cons_self, List.map_cons] at onward
    simp only [Option.map_some, follow, if_neg unmet', onward]
    rfl

/-! ### Graphs -/

/-- `h` takes the nodes of `p` that a build can meet, one to one, to nodes of `q` that say the same
at the same positions, with the same edges up to `h`. -/
structure Graph.Renames (p q : Graph) (h : NodeRef → NodeRef) (S : NodeRef → Prop) : Prop where
  node : ∀ n x, S n → p n = some x →
    ∃ y, q (h n) = some y ∧ x.Alike h y ∧ y.position = x.position
  inside : ∀ n m, S n → p.Followed n m → S m
  injective : ∀ n m, S n → S m → h n = h m → n = m

namespace Graph.Renames

variable {p q : Graph} {h : NodeRef → NodeRef} {S : NodeRef → Prop} {limits : Limits}
variable {path path' : List NodeRef} {n : NodeRef}

theorem next (renames : p.Renames q h S) (known : S n) {x : Node} (found : p n = some x) :
    q.next (h n) = (p.next n).map h := by
  obtain ⟨y, found', alike, _⟩ := renames.node n x known found
  exact alike.graph_next found found'

theorem refuse_mirrors {α β : Type} {V : α → β → Prop} (renames : p.Renames q h S) (known : S n)
    (c : Cause) :
    Mirrors V (fun i j => j = i.rename h) (Builder.refuse ⟨p, limits, path⟩ n c)
      (Builder.refuse ⟨q, limits, path'⟩ (h n) (c.rename h)) := by
  cases found : p n with
  | none =>
    simp only [Builder.refuse, Builder.node, found]
    exact .absent n path _
  | some x =>
    obtain ⟨y, found', alike, position⟩ := renames.node n x known found
    simp only [Builder.refuse, Builder.node, found, found']
    refine .issue ?_
    simp only [Issue.rename, alike.same.kind, position]

theorem walk_inside (renames : p.Renames q h S) {head : Option NodeRef}
    (first : ∀ m, head = some m → S m) (limit : Nat) :
    (∀ m ∈ (walk p.next limit head).nodes, S m) ∧
      ∀ m, (walk p.next limit head).defect.map Prod.fst = some m → S m :=
  (follow_leads p.next limit limit [] head).all
    (fun n m known led => renames.inside n m known (.inl led)) first

theorem walk_rename (renames : p.Renames q h S) {head : Option NodeRef}
    (first : ∀ m, head = some m → S m) {limit : Nat}
    (present : ∀ m ∈ (walk p.next limit head).nodes, ∃ x, p m = some x) :
    walk q.next limit (head.map h) = (walk p.next limit head).rename h := by
  have unmet : ∀ m ∈ ([] : List NodeRef), S m := by simp
  refine follow_rename renames.injective ?_ limit limit unmet first ?_
  · exact fun n m known led => renames.inside n m known (.inl led)
  · intro m member
    obtain ⟨x, found⟩ := present m member
    exact renames.next ((renames.walk_inside first limit).1 m member) found

theorem gathered (renames : p.Renames q h S) {head : Option NodeRef}
    (first : ∀ m, head = some m → S m) :
    Mirrors (fun ms ms' => ms' = ms.map h) (fun i j => j = i.rename h)
      (Builder.elements ⟨p, limits, path⟩ head)
      (Builder.elements ⟨q, limits, path'⟩ (head.map h)) := by
  rcases Builder.elements_cases ⟨p, limits, path⟩ head with
    ⟨present, gathered⟩ | ⟨m, _, _, missing⟩
  swap
  · rw [missing]
    exact .absent m path _
  obtain ⟨known, last⟩ := renames.walk_inside first limits.chainLength
  have walked := renames.walk_rename first present
  rcases Builder.elements_cases ⟨q, limits, path'⟩ (head.map h) with
    ⟨_, gathered'⟩ | ⟨k, member, missing, _⟩
  swap
  · -- a node of the second walk is the image of one of the first
    rw [walked] at member
    obtain ⟨m, element, rfl⟩ := List.mem_map.mp member
    obtain ⟨x, found⟩ := present m element
    obtain ⟨y, found', _⟩ := renames.node m x (known m element) found
    cases missing.symm.trans found'
  rw [gathered, gathered', walked]
  cases stopped : (walk p.next limits.chainLength head).defect with
  | none =>
    simp only [Trail.rename, stopped]
    exact .ok rfl
  | some stop =>
    rw [stopped] at last
    simp only [Trail.rename, stopped]
    exact renames.refuse_mirrors (last stop.1 rfl) (.malformedChain stop.2)

theorem mirror (renames : p.Renames q h S) (limits : Limits) :
    Mirror (fun i j => j = i.rename h) limits p q h S where
  node := by
    intro n x known found
    obtain ⟨y, found', alike, _⟩ := renames.node n x known found
    exact ⟨y, found', alike⟩
  inside := renames.inside
  issue := by
    intro n x y c known found found' plain
    obtain ⟨z, again, alike, position⟩ := renames.node n x known found
    cases found'.symm.trans again
    simp only [Issue.rename, plain.rename, alike.same.kind, position]
  gathered := fun _ _ _ first => renames.gathered first

/-! ### Builds -/

/-- The open nodes are renamed along, and none of them gets the name of another node. -/
structure Opened (h : NodeRef → NodeRef) (S : NodeRef → Prop) (path path' : List NodeRef) :
    Prop where
  renamed : path' = path.map h
  apart : ∀ k ∈ path, ∀ n, S n → h n = h k → n = k

theorem tests (renames : p.Renames q h S) : Mirror.Tests Builder.openTwice h S (Opened h S) where
  test := by
    rintro path _ n ⟨rfl, apart⟩ known
    have iff : n ∈ path ↔ h n ∈ path.map h := by
      refine ⟨List.mem_map_of_mem, ?_⟩
      intro member
      obtain ⟨k, element, same⟩ := List.mem_map.mp member
      exact apart k element n known same.symm ▸ element
    exact decide_eq_decide.mpr iff
  push := by
    rintro path _ n ⟨rfl, apart⟩ known
    refine ⟨rfl, List.forall_mem_cons.mpr ⟨?_, apart⟩⟩
    exact fun m here same => renames.injective m n here known same

variable (limits)

theorem build_mirrors (renames : p.Renames q h S) (opened : Opened h S path path') (known : S n)
    (f : Form) :
    Mirrors Eq (fun i j => j = i.rename h) (Builder.build ⟨p, limits, path⟩ f n)
      (Builder.build ⟨q, limits, path'⟩ f (h n)) := by
  have long : path'.length = path.length := by
    rw [opened.renamed, List.length_map]
  rw [Builder.build_eq_buildUnless, Builder.build_eq_buildUnless]
  exact (renames.mirror limits).buildUnless_mirrors renames.tests opened long known f

theorem buildOpen_mirrors (renames : p.Renames q h S) (opened : Opened h S path path')
    (known : S n) (f : Form) :
    Mirrors Eq (fun i j => j = i.rename h) (Builder.buildOpen ⟨p, limits, path⟩ f n)
      (Builder.buildOpen ⟨q, limits, path'⟩ f (h n)) :=
  (renames.mirror limits).buildOpen_mirrors known
    (fun f _ part => renames.build_mirrors limits opened part f) f

theorem buildDesignUnits_mirrors (renames : p.Renames q h S) (known : S n) :
    Mirrors (fun results results' => results' = results.map (Except.mapError (Issue.rename h)))
      (fun i j => j = i.rename h) (buildDesignUnits p limits n)
      (buildDesignUnits q limits (h n)) := by
  have inside : Opened h S [n] [h n] := renames.tests.push [] [] n ⟨rfl, by simp⟩ known
  refine ((renames.mirror limits).buildDesignUnits_mirrors known ?_).imp ?_
  · intro units _ _ m _ part
    exact renames.build_mirrors limits inside part .designUnit
  · rintro results results' - pairs
    induction pairs with
    | nil => rfl
    | cons first _ ih => rw [List.map_cons, ← ih, first.mapError_eq]

end Graph.Renames

end VhdlDesign
