import VhdlDesign.Proofs.Files

/-!
Builds side by side.

A map of references takes each node of one graph to a node of another that says the same of itself,
with edges that lead to the images of its targets. Builds in the two graphs then go side by side:
one lemma about recipes and one about opening nodes say so for every such map, whatever the map is
for.
-/
namespace VhdlDesign

open Relation

/-! ### Results side by side -/

/-- Values go with values and issues with issues. Of a build that met a reference without a node
nothing is said. -/
inductive Mirrors {α β : Type} (V : α → β → Prop) (I : Issue → Issue → Prop) :
    Except Fault α → Except Fault β → Prop
  | ok {v : α} {w : β} (values : V v w) : Mirrors V I (.ok v) (.ok w)
  | issue {i j : Issue} (issues : I i j) : Mirrors V I (.error (.issue i)) (.error (.issue j))
  | absent (n : NodeRef) (path : List NodeRef) (r : Except Fault β) :
    Mirrors V I (.error (.absent n path)) r

namespace Mirrors

variable {α β γ δ : Type} {V : α → β → Prop} {W : γ → δ → Prop} {I : Issue → Issue → Prop}

theorem bind {r : Except Fault α} {r' : Except Fault β} {k : α → Except Fault γ}
    {k' : β → Except Fault δ} (first : Mirrors V I r r')
    (rest : ∀ v w, r = .ok v → r' = .ok w → V v w → Mirrors W I (k v) (k' w)) :
    Mirrors W I (r >>= k) (r' >>= k') := by
  cases first with
  | ok values => exact rest _ _ rfl rfl values
  | issue issues => exact .issue issues
  | absent n path => exact .absent n path _

theorem imp {V' : α → β → Prop} {r : Except Fault α} {r' : Except Fault β} (h : Mirrors V I r r')
    (weaker : ∀ v w, r = .ok v → V v w → V' v w) : Mirrors V' I r r' := by
  cases h with
  | ok values => exact .ok (weaker _ _ rfl values)
  | issue issues => exact .issue issues
  | absent n path => exact .absent n path _

theorem mapM {make : NodeRef → Except Fault α} {make' : NodeRef → Except Fault β}
    {h : NodeRef → NodeRef} {ms : List NodeRef}
    (each : ∀ m ∈ ms, Mirrors V I (make m) (make' (h m))) :
    Mirrors (List.Forall₂ V) I (ms.mapM make) ((ms.map h).mapM make') := by
  induction ms with
  | nil => exact .ok .nil
  | cons m ms ih =>
    rw [List.map_cons, List.mapM_cons, List.mapM_cons]
    apply bind (each m List.mem_cons_self)
    intro v w _ _ first
    apply bind (ih fun k hk => each k (List.mem_cons_of_mem m hk))
    intro vs ws _ _ rest
    exact .ok (.cons first rest)

theorem mapM_eq {make make' : NodeRef → Except Fault α} {h : NodeRef → NodeRef}
    {ms : List NodeRef} (each : ∀ m ∈ ms, Mirrors Eq I (make m) (make' (h m))) :
    Mirrors Eq I (ms.mapM make) ((ms.map h).mapM make') := by
  have pairs := mapM each
  rwa [List.forall₂_eq_eq_eq] at pairs

theorem ok_eq {r r' : Except Fault α} {v : α} (h : Mirrors Eq I r r') (built : r = .ok v) :
    r' = .ok v := by
  cases h with
  | ok values => rw [← values, built]
  | issue _ => cases built
  | absent n path => cases built

theorem eq_ok_iff {r r' : Except Fault α} (h : Mirrors Eq I r r')
    (issues : OnlyRaises (fun e => ∃ i, e = .issue i) r) (v : α) : r = .ok v ↔ r' = .ok v := by
  cases h with
  | ok values => rw [values]
  | issue _ =>
    constructor
    · intro built
      cases built
    · intro built
      cases built
  | absent n path =>
    obtain ⟨i, other⟩ := issues _ rfl
    cases other

theorem of_eq_ok_iff {r r' : Except Fault α} (issues : OnlyRaises (fun e => ∃ i, e = .issue i) r)
    (issues' : OnlyRaises (fun e => ∃ i, e = .issue i) r') (iff : ∀ v, r = .ok v ↔ r' = .ok v) :
    Mirrors Eq (fun _ _ => True) r r' := by
  cases r with
  | ok v =>
    rw [(iff v).mp rfl]
    exact .ok rfl
  | error e =>
    obtain ⟨i, rfl⟩ := issues e rfl
    cases r' with
    | ok v => cases (iff v).mpr rfl
    | error e' =>
      obtain ⟨j, rfl⟩ := issues' e' rfl
      exact .issue trivial

theorem of_mapError {r : Except Issue α} {r' : Except Issue β}
    (h : Mirrors V I (r.mapError .issue) (r'.mapError .issue)) :
    (∃ v w, r = .ok v ∧ r' = .ok w ∧ V v w) ∨ ∃ i j, r = .error i ∧ r' = .error j ∧ I i j := by
  cases r with
  | ok v =>
    cases r' with
    | ok w =>
      cases h with
      | ok values => exact .inl ⟨v, w, rfl, rfl, values⟩
    | error j => cases h
  | error i =>
    cases r' with
    | ok w => cases h
    | error j =>
      cases h with
      | issue issues => exact .inr ⟨i, j, rfl, rfl, issues⟩

theorem settle {r r' : Except Fault α} (h : Mirrors Eq I r r') :
    Mirrors (fun s s' => Mirrors Eq I (s.mapError .issue) (s'.mapError .issue)) I
      (settle r) (settle r') := by
  cases h with
  | ok values => exact .ok (.ok values)
  | issue issues => exact .ok (.issue issues)
  | absent n path => exact .absent n path _

end Mirrors

/-! ### Nodes side by side -/

/-- The fields that are defined and never built from: statements, the constraints of a subtype, of
which the type mark is all that is kept, and what a configuration declares. -/
def Kind.drops : Kind → Field → Bool
  | _, .statementChain => true
  | .subtypeDefinition, .rangeConstraint => true
  | .arraySubtypeDefinition, .indexConstraints => true
  | .configurationDeclaration, .declarationChain => true
  | _, _ => false

def Kind.follows (k : Kind) (f : Field) : Bool := k.defines f && !k.drops f

theorem Kind.defines_of_follows {k : Kind} {f : Field} (followed : k.follows f = true) :
    k.defines f = true := by
  simp only [follows, Bool.and_eq_true] at followed
  exact followed.1

theorem Kind.questions_followed (k : Kind) :
    ∀ q ∈ k.questions, (∃ f, q = .touch f) ∨ k.follows q.field = true := by
  cases k <;> simp [questions, construction, operator?] <;> decide

/-- One step to the chain successor of a node, or into a field that a build can go into. -/
def Graph.Followed (g : Graph) (n m : NodeRef) : Prop :=
  g.next n = some m ∨ ∃ x f, g n = some x ∧ x.kind.follows f = true ∧ x.field f = some m

theorem Graph.Followed.edge {g : Graph} {n m : NodeRef} (followed : g.Followed n m) :
    g.Edge n m := by
  rcases followed with led | ⟨x, f, found, followed, held⟩
  · exact .inl led
  · exact .inr ⟨x, f, found, Kind.defines_of_follows followed, held⟩

/-- The second node says what the first says, and its edges lead to where `h` takes the targets of
the first. -/
structure Node.Alike (h : NodeRef → NodeRef) (x y : Node) : Prop where
  same : x.toAttributes.Same y.toAttributes
  next : y.next = x.next.map h
  field : ∀ f, x.kind.follows f = true → y.field f = (x.field f).map h

theorem Node.Alike.graph_next {p q : Graph} {h : NodeRef → NodeRef} {n : NodeRef} {x y : Node}
    (alike : x.Alike h y) (found : p n = some x) (found' : q (h n) = some y) :
    q.next (h n) = (p.next n).map h := by
  simp only [Graph.next, found, found', Option.bind_some, alike.next]

def Cause.Plain : Cause → Prop
  | .malformedChain _ => False
  | _ => True

theorem Cause.Fits.plain {a : Attributes} {c : Cause} (fits : c.Fits a) : c.Plain := by
  cases c with
  | malformedChain defect => exact fits
  | unresolvableName defect => trivial
  | unsupportedKind kind => trivial
  | contractViolation violation => trivial

/-- What has to be known for builds in `p` and `q` to go side by side. `S` holds of the nodes of `p`
that a build can meet, and `h` takes them to nodes of `q`. -/
structure Mirror (I : Issue → Issue → Prop) (limits : Limits) (p q : Graph)
    (h : NodeRef → NodeRef) (S : NodeRef → Prop) : Prop where
  node : ∀ n x, S n → p n = some x → ∃ y, q (h n) = some y ∧ x.Alike h y
  inside : ∀ n m, S n → p.Followed n m → S m
  issue : ∀ n x y c, S n → p n = some x → q (h n) = some y → c.Plain →
    I ⟨c, n, x.kind, x.position⟩ ⟨c, h n, y.kind, y.position⟩
  gathered : ∀ path path' head, (∀ m, head = some m → S m) →
    Mirrors (fun ms ms' => ms' = ms.map h) I (Builder.elements ⟨p, limits, path⟩ head)
      (Builder.elements ⟨q, limits, path'⟩ (head.map h))

namespace Mirror

variable {I : Issue → Issue → Prop} {limits : Limits} {p q : Graph} {h : NodeRef → NodeRef}
variable {S : NodeRef → Prop} {path path' : List NodeRef} {n : NodeRef} {x y : Node}

theorem leads (mirror : Mirror I limits p q h S) {start stop : Option NodeRef}
    {ns : List NodeRef} (led : Leads p.next start ns stop) (first : ∀ m, start = some m → S m) :
    ∀ m ∈ ns, S m :=
  (led.all (fun n m here onward => mirror.inside n m here (.inl onward)) first).1

theorem into (mirror : Mirror I limits p q h S) (known : S n) (found : p n = some x) {f : Field}
    (followed : x.kind.follows f = true) : ∀ m, x.field f = some m → S m :=
  fun m held => mirror.inside n m known (.inr ⟨x, f, found, followed, held⟩)

/-! ### Single steps -/

theorem node_mirrors (mirror : Mirror I limits p q h S) (known : S n) :
    Mirrors (fun x y => p n = some x ∧ q (h n) = some y ∧ x.Alike h y) I
      (Builder.node ⟨p, limits, path⟩ n) (Builder.node ⟨q, limits, path'⟩ (h n)) := by
  cases found : p n with
  | none =>
    simp only [Builder.node, found]
    exact .absent n path _
  | some x =>
    obtain ⟨y, found', alike⟩ := mirror.node n x known found
    simp only [Builder.node, found, found']
    exact .ok ⟨rfl, rfl, alike⟩

theorem refuse_mirrors {α β : Type} {V : α → β → Prop} (mirror : Mirror I limits p q h S)
    (known : S n) {c : Cause} (plain : c.Plain) :
    Mirrors V I (Builder.refuse ⟨p, limits, path⟩ n c)
      (Builder.refuse ⟨q, limits, path'⟩ (h n) c) := by
  refine Mirrors.bind (mirror.node_mirrors known) ?_
  rintro x y _ _ ⟨found, found', _⟩
  exact .issue (mirror.issue n x y c known found found' plain)

theorem screen_mirrors (mirror : Mirror I limits p q h S) (known : S n) (f : Form) :
    Mirrors Eq I (Builder.screen ⟨p, limits, path⟩ f n)
      (Builder.screen ⟨q, limits, path'⟩ f (h n)) := by
  unfold Builder.screen
  split
  · exact .ok rfl
  · refine Mirrors.bind (mirror.node_mirrors known) ?_
    rintro x y _ _ ⟨found, found', alike⟩
    have kind : y.kind = x.kind := alike.same.kind
    rw [kind]
    split
    · exact .ok rfl
    · have issues := mirror.issue n x y (.unsupportedKind x.kind) known found found' trivial
      exact .issue issues

theorem label_mirrors (mirror : Mirror I limits p q h S) (known : S n)
    {read : Attributes → Except Cause String} (fits : ∀ a c, read a = .error c → c.Fits a)
    (same : ∀ a a', a.Same a' → read a' = read a) :
    Mirrors Eq I (Builder.label ⟨p, limits, path⟩ read n)
      (Builder.label ⟨q, limits, path'⟩ read (h n)) := by
  refine Mirrors.bind (mirror.node_mirrors known) ?_
  rintro x y _ _ ⟨found, found', alike⟩
  rw [same _ _ alike.same]
  split
  · exact .ok rfl
  next c refused =>
    exact .issue (mirror.issue n x y c known found found' (fits _ _ refused).plain)

theorem edge?_mirrors (alike : x.Alike h y) {f : Field} (followed : x.kind.follows f = true) :
    Mirrors (fun held held' => held = x.field f ∧ held' = (x.field f).map h) I
      (x.edge? n f) (y.edge? (h n) f) := by
  have defined := Kind.defines_of_follows followed
  rw [Node.edge?_eq defined, Node.edge?_eq (alike.same.kind ▸ defined), alike.field f followed]
  exact .ok ⟨rfl, rfl⟩

theorem edge_mirrors (mirror : Mirror I limits p q h S) (known : S n) (found : p n = some x)
    (found' : q (h n) = some y) (alike : x.Alike h y) {f : Field}
    (followed : x.kind.follows f = true) :
    Mirrors (fun m m' => x.field f = some m ∧ m' = h m) I (x.edge n f) (y.edge (h n) f) := by
  refine Mirrors.bind (edge?_mirrors alike followed) ?_
  rintro _ _ _ _ ⟨rfl, rfl⟩
  cases held : x.field f with
  | none => exact .issue (mirror.issue n x y _ known found found' trivial)
  | some m => exact .ok ⟨rfl, rfl⟩

/-! ### Recipes -/

section

variable {enter enter' : (f : Form) → NodeRef → Except Fault f.Value}

theorem answer_mirrors (mirror : Mirror I limits p q h S) (known : S n) (found : p n = some x)
    (found' : q (h n) = some y) (alike : x.Alike h y)
    (entered : ∀ f m, S m → Mirrors Eq I (enter f m) (enter' f (h m)))
    {question : Question} (asked : question ∈ x.kind.questions) :
    Mirrors Eq I (Builder.answer ⟨p, limits, path⟩ n x enter question)
      (Builder.answer ⟨q, limits, path'⟩ (h n) y enter' question) := by
  have defined := x.kind.questions_defined question asked
  have followed := x.kind.questions_followed question asked
  have fits := x.kind.questions_read question asked
  have same := x.kind.questions_same question asked
  cases question with
  | touch field =>
    -- what the field holds is not looked at, so it need not correspond
    have defined' : y.kind.defines field = true := alike.same.kind ▸ defined
    simp only [Builder.answer, Node.edge?_eq (f := field) defined, Node.edge?_eq defined']
    exact .ok rfl
  | child field form =>
    have followed := followed.resolve_left (by simp)
    refine Mirrors.bind (mirror.edge_mirrors known found found' alike followed) ?_
    rintro m _ _ _ ⟨held, rfl⟩
    exact entered form m (mirror.into known found followed m held)
  | optional field form =>
    have followed := followed.resolve_left (by simp)
    refine Mirrors.bind (edge?_mirrors alike followed) ?_
    rintro _ _ _ _ ⟨rfl, rfl⟩
    cases held : x.field field with
    | none => exact .ok rfl
    | some m =>
      simp only [Option.map_some, map_eq_pure_bind]
      apply Mirrors.bind (entered form m (mirror.into known found followed m held))
      rintro v _ _ _ rfl
      exact .ok rfl
  | chain field form =>
    have followed := followed.resolve_left (by simp)
    refine Mirrors.bind (edge?_mirrors alike followed) ?_
    rintro _ _ _ _ ⟨rfl, rfl⟩
    have first := mirror.into known found followed
    apply Mirrors.bind (mirror.gathered path path' _ first)
    rintro ms _ gathered _ rfl
    apply Mirrors.mapM_eq
    intro m member
    exact entered form m (mirror.leads (Builder.elements_eq_ok gathered) first m member)
  | label field read =>
    have followed := followed.resolve_left (by simp)
    refine Mirrors.bind (mirror.edge_mirrors known found found' alike followed) ?_
    rintro m _ _ _ ⟨held, rfl⟩
    exact mirror.label_mirrors (mirror.into known found followed m held) fits same
  | labels field read =>
    have followed := followed.resolve_left (by simp)
    refine Mirrors.bind (edge?_mirrors alike followed) ?_
    rintro _ _ _ _ ⟨rfl, rfl⟩
    have first := mirror.into known found followed
    apply Mirrors.bind (mirror.gathered path path' _ first)
    rintro ms _ gathered _ rfl
    apply Mirrors.mapM_eq
    intro m member
    have reached := mirror.leads (Builder.elements_eq_ok gathered) first m member
    exact mirror.label_mirrors reached fits same

theorem carryOut_mirrors (mirror : Mirror I limits p q h S) (known : S n) (found : p n = some x)
    (found' : q (h n) = some y) (alike : x.Alike h y)
    (entered : ∀ f m, S m → Mirrors Eq I (enter f m) (enter' f (h m))) {α : Type} {r : Recipe α}
    (kept : r.Keeps x.toAttributes (Cause.Fits x.toAttributes) (· ∈ x.kind.questions))
    (steady : r.Steady x.toAttributes) :
    Mirrors Eq I (Builder.carryOut ⟨p, limits, path⟩ n x enter r)
      (Builder.carryOut ⟨q, limits, path'⟩ (h n) y enter' r) := by
  induction r using Recipe.askInduction with
  | done value => exact .ok rfl
  | refuse cause => exact .issue (mirror.issue n x y cause known found found' kept.plain)
  | look rest ih =>
    obtain ⟨alone, steady⟩ := steady
    simp only [Builder.carryOut]
    rw [alone _ alike.same]
    exact ih x.toAttributes kept steady
  | ask question rest ih =>
    obtain ⟨asked, kept⟩ := (Recipe.keeps_ask question rest).mp kept
    have steady := (Recipe.steady_ask question rest).mp steady
    rw [Builder.carryOut_ask, Builder.carryOut_ask]
    apply Mirrors.bind (mirror.answer_mirrors known found found' alike entered asked)
    rintro v _ _ _ rfl
    exact ih v (kept v) (steady v)

theorem recipe_mirrors (mirror : Mirror I limits p q h S) (known : S n)
    (entered : ∀ f m, S m → Mirrors Eq I (enter f m) (enter' f (h m))) (f : Form) :
    Mirrors Eq I
      (Builder.node ⟨p, limits, path⟩ n >>= fun x =>
        Builder.carryOut ⟨p, limits, path⟩ n x enter (Grammar.recipe f))
      (Builder.node ⟨q, limits, path'⟩ (h n) >>= fun y =>
        Builder.carryOut ⟨q, limits, path'⟩ (h n) y enter' (Grammar.recipe f)) := by
  refine Mirrors.bind (mirror.node_mirrors known) ?_
  rintro x y _ _ ⟨found, found', alike⟩
  have puts := Grammar.recipe_puts f x.toAttributes
  exact mirror.carryOut_mirrors known found found' alike entered puts.keeps puts.steady

end

/-! ### Opening nodes -/

/-- The test for nodes that may not be opened comes out alike, while `P` holds of the open nodes. -/
structure Tests (barred : List NodeRef → NodeRef → Bool) (h : NodeRef → NodeRef)
    (S : NodeRef → Prop) (P : List NodeRef → List NodeRef → Prop) : Prop where
  test : ∀ path path' n, P path path' → S n → barred path n = barred path' (h n)
  push : ∀ path path' n, P path path' → S n → P (n :: path) (h n :: path')

theorem Tests.never : Tests Builder.never h S (fun _ _ => True) where
  test := fun _ _ _ _ _ => rfl
  push := fun _ _ _ _ _ => trivial

variable {barred : List NodeRef → NodeRef → Bool} {P : List NodeRef → List NodeRef → Prop}

theorem enterUnless_mirrors (mirror : Mirror I limits p q h S) (tests : Tests barred h S P)
    (room : Nat) (opened : P path path') (known : S n) (f : Form) :
    Mirrors Eq I (Builder.enterUnless barred room ⟨p, limits, path⟩ f n)
      (Builder.enterUnless barred room ⟨q, limits, path'⟩ f (h n)) := by
  induction room generalizing path path' n f with
  | zero =>
    unfold Builder.enterUnless
    apply Mirrors.bind (mirror.screen_mirrors known f)
    intro _ _ _ _ _
    rw [tests.test path path' n opened known]
    split
    · exact mirror.refuse_mirrors known trivial
    · exact mirror.refuse_mirrors known trivial
  | succ room ih =>
    unfold Builder.enterUnless
    apply Mirrors.bind (mirror.screen_mirrors known f)
    intro _ _ _ _ _
    rw [tests.test path path' n opened known]
    split
    · exact mirror.refuse_mirrors known trivial
    · have inner : P (n :: path) (h n :: path') := tests.push path path' n opened known
      exact mirror.recipe_mirrors known (fun f m part => ih inner part f) f

theorem buildUnless_mirrors (mirror : Mirror I limits p q h S) (tests : Tests barred h S P)
    (opened : P path path') (long : path'.length = path.length) (known : S n) (f : Form) :
    Mirrors Eq I (Builder.buildUnless barred ⟨p, limits, path⟩ f n)
      (Builder.buildUnless barred ⟨q, limits, path'⟩ f (h n)) := by
  have room : Builder.room ⟨q, limits, path'⟩ = Builder.room ⟨p, limits, path⟩ := by
    simp only [Builder.room, long]
  unfold Builder.buildUnless
  rw [room]
  exact mirror.enterUnless_mirrors tests _ opened known f

/-! ### Whole files -/

theorem openFile_mirrors (mirror : Mirror I limits p q h S) (known : S n) :
    Mirrors (fun ms ms' => ms' = ms.map h ∧ ∀ m ∈ ms, S m) I (openFile p limits n)
      (openFile q limits (h n)) := by
  refine Mirrors.bind (mirror.node_mirrors known) ?_
  rintro x y _ _ ⟨found, found', alike⟩
  have kind : y.kind = x.kind := alike.same.kind
  rw [kind]
  split
  next file =>
    split
    · have followed : x.kind.follows .designUnits = true := by
        rw [file]
        rfl
      have first := mirror.into known found followed
      have gathered := mirror.gathered [n] [h n] _ first
      rw [← alike.field _ followed] at gathered
      refine gathered.imp ?_
      intro ms ms' gathered same
      exact ⟨same, mirror.leads (Builder.elements_eq_ok gathered) first⟩
    · exact .issue (mirror.issue n x y _ known found found' trivial)
  · exact .issue (mirror.issue n x y _ known found found' trivial)

theorem buildDesignUnits_mirrors (mirror : Mirror I limits p q h S) (known : S n)
    (entered : ∀ units, openFile p limits n = .ok units →
      openFile q limits (h n) = .ok (units.map h) → ∀ m ∈ units, S m →
      Mirrors Eq I ((insideFile p limits n).build .designUnit m)
        ((insideFile q limits (h n)).build .designUnit (h m))) :
    Mirrors (List.Forall₂ fun s s' => Mirrors Eq I (s.mapError .issue) (s'.mapError .issue)) I
      (buildDesignUnits p limits n) (buildDesignUnits q limits (h n)) := by
  rw [buildDesignUnits_eq, buildDesignUnits_eq]
  apply Mirrors.bind (mirror.openFile_mirrors known)
  rintro units _ opened opened' ⟨rfl, inside⟩
  apply Mirrors.mapM
  intro m member
  exact (entered units opened opened' m member (inside m member)).settle

theorem buildOpen_mirrors (mirror : Mirror I limits p q h S) (known : S n)
    (entered : ∀ f m, S m → Mirrors Eq I (Builder.build ⟨p, limits, path⟩ f m)
      (Builder.build ⟨q, limits, path'⟩ f (h m))) (f : Form) :
    Mirrors Eq I (Builder.buildOpen ⟨p, limits, path⟩ f n)
      (Builder.buildOpen ⟨q, limits, path'⟩ f (h n)) :=
  mirror.recipe_mirrors known entered f

end Mirror

end VhdlDesign
