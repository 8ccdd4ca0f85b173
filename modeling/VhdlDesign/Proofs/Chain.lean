import Mathlib.Logic.Relation
import VhdlDesign.Proofs.Result

/-!
Chains of a graph.

`Leads` says where following a successor function goes, without limits and without a memory of what
was met. A walk is related to it once; everything else about chains is read off from there.
-/
namespace VhdlDesign

/-- From `start`, the successor function passes the nodes of a list and arrives at `stop`. -/
inductive Leads (next : NodeRef → Option NodeRef) :
    Option NodeRef → List NodeRef → Option NodeRef → Prop
  | here (stop : Option NodeRef) : Leads next stop [] stop
  | step {n : NodeRef} {ns : List NodeRef} {stop : Option NodeRef}
      (rest : Leads next (next n) ns stop) : Leads next (some n) (n :: ns) stop

namespace Leads

variable {next : NodeRef → Option NodeRef} {start stop : Option NodeRef}

theorem split {m : NodeRef} {before after : List NodeRef}
    (h : Leads next start (before ++ m :: after) stop) :
    Leads next start before (some m) ∧ Leads next (some m) (m :: after) stop := by
  induction before generalizing start with
  | nil =>
    cases h with
    | step rest => exact ⟨.here _, .step rest⟩
  | cons n before ih =>
    cases h with
    | step rest => exact ⟨.step (ih rest).1, (ih rest).2⟩

theorem to_member {m : NodeRef} {ns : List NodeRef} (h : Leads next start ns stop)
    (member : m ∈ ns) : ∃ before, Leads next start before (some m) := by
  obtain ⟨before, after, rfl⟩ := List.append_of_mem member
  exact ⟨before, h.split.1⟩

theorem unique {ns ms : List NodeRef} (h : Leads next start ns none)
    (h' : Leads next start ms none) : ns = ms := by
  induction ns generalizing start ms with
  | nil =>
    cases h
    cases h'
    rfl
  | cons n ns ih =>
    cases h with
    | step rest =>
      cases h' with
      | step rest' => rw [ih rest rest']

theorem nodup {ns : List NodeRef} (h : Leads next start ns none) : ns.Nodup := by
  induction ns generalizing start with
  | nil => exact .nil
  | cons n ns ih =>
    cases h with
    | step rest =>
      refine List.nodup_cons.mpr ⟨?_, ih rest⟩
      intro again
      obtain ⟨before, after, rfl⟩ := List.append_of_mem again
      -- from `n` on, the chain would be the same a second time and end sooner
      have shorter := rest.split.2.unique (.step rest)
      have lengths := congrArg List.length shorter
      simp only [List.length_cons, List.length_append] at lengths
      omega

theorem all {S : NodeRef → Prop} {ns : List NodeRef} (h : Leads next start ns stop)
    (inside : ∀ n m, S n → next n = some m → S m) (first : ∀ n, start = some n → S n) :
    (∀ n ∈ ns, S n) ∧ ∀ n, stop = some n → S n := by
  induction h with
  | here stop => exact ⟨by simp, first⟩
  | @step n ns stop _ ih =>
    have here : S n := first n rfl
    obtain ⟨passed, last⟩ := ih fun m led => inside n m here led
    exact ⟨List.forall_mem_cons.mpr ⟨here, passed⟩, last⟩

section

variable {next' : NodeRef → Option NodeRef} {h : NodeRef → NodeRef}

theorem map {ns : List NodeRef} (led : Leads next start ns stop)
    (same : ∀ n ∈ ns, next' (h n) = (next n).map h) :
    Leads next' (start.map h) (ns.map h) (stop.map h) := by
  induction led with
  | here stop => exact .here _
  | @step n ns stop _ ih =>
    have rest := ih fun m hm => same m (List.mem_cons_of_mem n hm)
    rw [← same n List.mem_cons_self] at rest
    exact .step rest

/-- A chain that begins at the image of a node is the image of a chain. -/
theorem lift {S : NodeRef → Prop} {stop' : Option NodeRef} {ms : List NodeRef}
    (same : ∀ n, S n → next' (h n) = (next n).map h)
    (inside : ∀ n m, S n → next n = some m → S m) (first : ∀ n, start = some n → S n)
    (led : Leads next' (start.map h) ms stop') :
    ∃ ns stop, Leads next start ns stop ∧ ms = ns.map h ∧ stop' = stop.map h ∧
      ∀ n, stop = some n → S n := by
  induction ms generalizing start with
  | nil =>
    generalize here : start.map h = s at led
    cases led
    exact ⟨[], start, .here start, rfl, here.symm, first⟩
  | cons m ms ih =>
    cases start with
    | none => cases led
    | some n =>
      have here : S n := first n rfl
      cases led with
      | step rest =>
        rw [same n here] at rest
        obtain ⟨ns, stop, led, rfl, rfl, last⟩ := ih (fun k led => inside n k here led) rest
        exact ⟨n :: ns, stop, .step led, rfl, rfl, last⟩

end

theorem returns {m : NodeRef} {ns : List NodeRef} (h : Leads next start ns (some m))
    (member : m ∈ ns) : Relation.TransGen (fun n k => next n = some k) m m := by
  obtain ⟨before, after, rfl⟩ := List.append_of_mem member
  obtain ⟨_, around⟩ := h.split
  -- what lies between the two visits is a path of successors from `m`
  have onward : ∀ (k : NodeRef) (after : List NodeRef), Leads next (next k) after (some m) →
      Relation.TransGen (fun n k => next n = some k) k m := by
    intro k after
    induction after generalizing k with
    | nil =>
      intro last
      generalize hk : next k = s at last
      cases last
      exact .single hk
    | cons n after ih =>
      intro more
      generalize hk : next k = s at more
      cases more with
      | step rest => exact .head hk (ih n rest)
  cases around with
  | step rest => exact onward m after rest

end Leads

/-! ### Walks -/

section

variable (next : NodeRef → Option NodeRef) (limit room : Nat) (seen : List NodeRef)
variable (start : Option NodeRef)

theorem follow_leads :
    Leads next start (follow next limit room seen start).nodes
      ((follow next limit room seen start).defect.map Prod.fst) := by
  fun_induction follow next limit room seen start with
  | case1 => exact .here none
  | case2 room seen n met => exact .here (some n)
  | case3 seen n unmet => exact .here (some n)
  | case4 seen n unmet room rest ih => exact .step ih

theorem follow_nodup :
    (follow next limit room seen start).nodes.Nodup ∧
      ∀ n ∈ (follow next limit room seen start).nodes, n ∉ seen := by
  fun_induction follow next limit room seen start with
  | case1 => exact ⟨.nil, by simp⟩
  | case2 room seen n met => exact ⟨.nil, by simp⟩
  | case3 seen n unmet => exact ⟨.nil, by simp⟩
  | case4 seen n unmet room rest ih =>
    obtain ⟨distinct, fresh⟩ := ih
    refine ⟨List.nodup_cons.mpr ⟨fun h => fresh n h List.mem_cons_self, distinct⟩, ?_⟩
    intro k hk
    rcases List.mem_cons.mp hk with rfl | hk
    · exact unmet
    · exact fun h => fresh k hk (List.mem_cons_of_mem n h)

theorem follow_defect (m : NodeRef) (d : ChainDefect)
    (stopped : (follow next limit room seen start).defect = some (m, d)) :
    (d = .cycle m ((follow next limit room seen start).nodes.length + seen.length) ∧
        (m ∈ (follow next limit room seen start).nodes ∨ m ∈ seen)) ∨
      (d = .tooLong limit ∧ (follow next limit room seen start).nodes.length = room ∧
        m ∉ (follow next limit room seen start).nodes ∧ m ∉ seen) := by
  fun_induction follow next limit room seen start with
  | case1 => cases stopped
  | case2 room seen n met =>
    cases stopped
    exact .inl ⟨by simp, .inr met⟩
  | case3 seen n unmet =>
    cases stopped
    exact .inr ⟨rfl, rfl, by simp, unmet⟩
  | case4 seen n unmet room rest ih =>
    rcases ih stopped with ⟨hd, hm⟩ | ⟨hd, hl, hm, hs⟩
    · refine .inl ⟨?_, ?_⟩
      · rw [hd]
        simp only [List.length_cons, rest]
        congr 1
        omega
      · rcases hm with hm | hm
        · exact .inl (List.mem_cons_of_mem n hm)
        · rcases List.mem_cons.mp hm with rfl | hm
          · exact .inl List.mem_cons_self
          · exact .inr hm
    · refine .inr ⟨hd, by simp only [List.length_cons, rest, hl], ?_, ?_⟩
      · intro h
        rcases List.mem_cons.mp h with rfl | h
        · exact hs List.mem_cons_self
        · exact hm h
      · exact fun h => hs (List.mem_cons_of_mem n h)

end

theorem follow_length (next : NodeRef → Option NodeRef) (limit room : Nat) (seen : List NodeRef)
    (start : Option NodeRef) : (follow next limit room seen start).nodes.length ≤ room := by
  fun_induction follow next limit room seen start with
  | case1 => simp
  | case2 room seen n met => simp
  | case3 seen n unmet => simp
  | case4 seen n unmet room rest ih => exact Nat.succ_le_succ ih

theorem follow_of_leads {next : NodeRef → Option NodeRef} {limit room : Nat}
    {seen ns : List NodeRef} {start : Option NodeRef} (led : Leads next start ns none)
    (fresh : ∀ n ∈ ns, n ∉ seen) (short : ns.length ≤ room) :
    follow next limit room seen start = ⟨ns, none⟩ := by
  induction ns generalizing room seen start with
  | nil =>
    cases led
    cases room <;> rfl
  | cons n ns ih =>
    obtain ⟨once, _⟩ := List.nodup_cons.mp led.nodup
    cases led with
    | step rest =>
      cases room with
      | zero => simp at short
      | succ room =>
        have later : ∀ m ∈ ns, m ∉ n :: seen := by
          intro m hm met
          rcases List.mem_cons.mp met with rfl | met
          · exact once hm
          · exact fresh m (List.mem_cons_of_mem n hm) met
        simp only [follow, if_neg (fresh n List.mem_cons_self)]
        rw [ih rest later (Nat.le_of_succ_le_succ short)]

theorem walk_of_leads {next : NodeRef → Option NodeRef} {limit : Nat} {start : Option NodeRef}
    {ns : List NodeRef} (led : Leads next start ns none) (short : ns.length ≤ limit) :
    walk next limit start = ⟨ns, none⟩ :=
  follow_of_leads led (by simp) short

theorem follow_met {next : NodeRef → Option NodeRef} {limit : Nat} {seen : List NodeRef}
    {n : NodeRef} (met : n ∈ seen) (room : Nat) :
    follow next limit room seen (some n) = ⟨[], some (n, .cycle n seen.length)⟩ := by
  cases room <;> simp only [follow, if_pos met]

/-- With more room a walk goes the same way, unless the room was what stopped it. -/
theorem follow_more {next : NodeRef → Option NodeRef} {limit limit' room room' : Nat}
    (more : room ≤ room') (seen : List NodeRef) (start : Option NodeRef) :
    (∃ m, (follow next limit room seen start).defect = some (m, .tooLong limit)) ∨
      follow next limit' room' seen start = follow next limit room seen start := by
  induction room generalizing room' seen start with
  | zero =>
    cases start with
    | none => exact .inr (by simp only [follow])
    | some n =>
      by_cases met : n ∈ seen
      · exact .inr (by rw [follow_met met, follow_met met])
      · exact .inl ⟨n, by simp only [follow, if_neg met]⟩
  | succ room ih =>
    obtain ⟨room', rfl⟩ : ∃ k, room' = k + 1 := ⟨room' - 1, by omega⟩
    cases start with
    | none => exact .inr (by simp only [follow])
    | some n =>
      by_cases met : n ∈ seen
      · exact .inr (by rw [follow_met met, follow_met met])
      · simp only [follow, if_neg met]
        rcases ih (Nat.le_of_succ_le_succ more) (n :: seen) (next n) with stopped | same
        · exact .inl stopped
        · exact .inr (by rw [same])

theorem walk_more {limit limit' : Nat} (more : limit ≤ limit') (next : NodeRef → Option NodeRef)
    (start : Option NodeRef) :
    (∃ m, (walk next limit start).defect = some (m, .tooLong limit)) ∨
      walk next limit' start = walk next limit start :=
  follow_more more [] start

/-- Where a walk stops early, it comes back to one of the nodes that it has passed, or they are as
many as the limit allows. -/
theorem walk_stopped {next : NodeRef → Option NodeRef} {limit : Nat} {start : Option NodeRef}
    {m : NodeRef} {d : ChainDefect} (stopped : (walk next limit start).defect = some (m, d)) :
    Leads next start (walk next limit start).nodes (some m) ∧
      (walk next limit start).nodes.Nodup ∧
      (m ∈ (walk next limit start).nodes ∧ d = .cycle m (walk next limit start).nodes.length ∨
        m ∉ (walk next limit start).nodes ∧ d = .tooLong limit ∧
          (walk next limit start).nodes.length = limit) := by
  have led := follow_leads next limit limit [] start
  have distinct := (follow_nodup next limit limit [] start).1
  have why := follow_defect next limit limit [] start m d stopped
  simp only [walk] at stopped
  rw [stopped] at led
  refine ⟨led, distinct, ?_⟩
  rcases why with ⟨hd, hm⟩ | ⟨hd, full, hm, _⟩
  · exact .inl ⟨hm.resolve_right (by simp), hd⟩
  · exact .inr ⟨hm, hd, full⟩

theorem walk_defect {next : NodeRef → Option NodeRef} {limit : Nat} {start : Option NodeRef}
    {m : NodeRef} {d : ChainDefect} (stopped : (walk next limit start).defect = some (m, d)) :
    ∃ ns, Leads next start ns (some m) ∧ ns.Nodup ∧
      (m ∈ ns ∧ d = .cycle m ns.length ∨ m ∉ ns ∧ d = .tooLong limit ∧ ns.length = limit) :=
  ⟨_, walk_stopped stopped⟩

/-! ### The elements of a chain -/

namespace Builder

variable {P : Fault → Prop} {b : Builder} {head : Option NodeRef}

theorem elements_onlyRaises
    (absent : ∀ m ns, Leads b.graph.next head ns (some m) → b.graph m = none →
      P (.absent m b.path))
    (malformed : ∀ m x d ns, Leads b.graph.next head ns (some m) → b.graph m = some x →
      (walk b.graph.next b.limits.chainLength head).defect = some (m, d) →
      P (x.issue m (.malformedChain d))) :
    OnlyRaises P (b.elements head) := by
  have led := follow_leads b.graph.next b.limits.chainLength b.limits.chainLength [] head
  unfold elements
  apply OnlyRaises.bind
  · apply OnlyRaises.forM
    intro m hm
    obtain ⟨before, reached⟩ := led.to_member hm
    exact .bind (node_onlyRaises (absent m before reached)) fun _ _ => .ok _
  · intro _ _
    split
    · exact .ok _
    · rename_i m d stopped
      simp only [walk] at stopped
      rw [stopped] at led
      exact refuse_onlyRaises (absent m _ led) fun x found => malformed m x d _ led found stopped

theorem elements_sound {ms : List NodeRef} (gathered : b.elements head = .ok ms) :
    (walk b.graph.next b.limits.chainLength head).defect = none ∧
      ms = (walk b.graph.next b.limits.chainLength head).nodes := by
  obtain ⟨_, _, gathered⟩ := bind_eq_ok gathered
  split at gathered
  next sound =>
    cases gathered
    exact ⟨sound, rfl⟩
  · obtain ⟨_, _, gathered⟩ := bind_eq_ok gathered
    cases gathered

theorem elements_length {ms : List NodeRef} (gathered : b.elements head = .ok ms) :
    ms.length ≤ b.limits.chainLength := by
  rw [(elements_sound gathered).2]
  exact follow_length _ _ _ _ _

theorem forM_node (b : Builder) (ms : List NodeRef) :
    (ms.forM (fun m => discard (b.node m)) = .ok () ∧ ∀ m ∈ ms, ∃ x, b.graph m = some x) ∨
      ∃ m ∈ ms, b.graph m = none ∧
        ms.forM (fun m => discard (b.node m)) = .error (.absent m b.path) := by
  induction ms with
  | nil => exact .inl ⟨rfl, by simp⟩
  | cons m ms ih =>
    cases found : b.graph m with
    | none =>
      refine .inr ⟨m, List.mem_cons_self, found, ?_⟩
      change discard (b.node m) >>= _ = _
      simp only [node, found]
      rfl
    | some x =>
      have step : (m :: ms).forM (fun m => discard (b.node m)) =
          ms.forM (fun m => discard (b.node m)) := by
        change discard (b.node m) >>= _ = _
        rw [node_eq_ok.mpr found]
        rfl
      rw [step]
      rcases ih with ⟨all, present⟩ | ⟨k, hk, missing, ended⟩
      · exact .inl ⟨all, List.forall_mem_cons.mpr ⟨⟨x, found⟩, present⟩⟩
      · exact .inr ⟨k, List.mem_cons_of_mem m hk, missing, ended⟩

/-- Unless a walk passes a reference without a node, its trail decides. -/
theorem elements_cases (b : Builder) (head : Option NodeRef) :
    ((∀ m ∈ (walk b.graph.next b.limits.chainLength head).nodes, ∃ x, b.graph m = some x) ∧
      b.elements head =
        match (walk b.graph.next b.limits.chainLength head).defect with
        | none => .ok (walk b.graph.next b.limits.chainLength head).nodes
        | some (n, defect) => b.refuse n (.malformedChain defect)) ∨
      ∃ m ∈ (walk b.graph.next b.limits.chainLength head).nodes, b.graph m = none ∧
        b.elements head = .error (.absent m b.path) := by
  unfold elements
  rcases b.forM_node (walk b.graph.next b.limits.chainLength head).nodes with
    ⟨all, present⟩ | ⟨m, hm, missing, ended⟩
  · refine .inl ⟨present, ?_⟩
    simp only [all]
    rfl
  · refine .inr ⟨m, hm, missing, ?_⟩
    simp only [ended]
    rfl

theorem elements_of_leads {ms : List NodeRef} (led : Leads b.graph.next head ms none)
    (short : ms.length ≤ b.limits.chainLength) (present : ∀ m ∈ ms, ∃ x, b.graph m = some x) :
    b.elements head = .ok ms := by
  have walked := walk_of_leads led short
  rcases b.elements_cases head with ⟨_, gathered⟩ | ⟨m, hm, missing, _⟩
  · rw [gathered, walked]
  · rw [walked] at hm
    obtain ⟨x, found⟩ := present m hm
    rw [missing] at found
    cases found

theorem elements_eq_ok {ms : List NodeRef} (gathered : b.elements head = .ok ms) :
    Leads b.graph.next head ms none := by
  have led := follow_leads b.graph.next b.limits.chainLength b.limits.chainLength [] head
  obtain ⟨sound, rfl⟩ := elements_sound gathered
  simp only [walk] at sound
  rw [sound] at led
  exact led

end Builder

end VhdlDesign
