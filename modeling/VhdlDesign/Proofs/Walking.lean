import Mathlib.Data.List.Nodup
import VhdlDesign.Proofs.Chain

/-!
What a walk comes to.

The elements of a chain are its start and what the successor function makes of it again and again. A
walk passes them in order. It comes to the end of the chain, back to an element that it has passed,
or to the first element beyond its limit, and which of the three it is can be read off the elements.
-/
namespace VhdlDesign

section

variable (next : NodeRef → Option NodeRef) (start : Option NodeRef)

def elementAt : Nat → Option NodeRef
  | 0 => start
  | k + 1 => (elementAt k).bind next

/-- The first `k` elements of a chain are there, and no two of them are the same node. -/
def Differ (k : Nat) : Prop :=
  ∀ j < k, (∃ n, elementAt next start j = some n) ∧
    ∀ i < j, elementAt next start i ≠ elementAt next start j

end

variable {next : NodeRef → Option NodeRef} {start stop : Option NodeRef} {ns : List NodeRef}
variable {limit : Nat}

/-! ### Elements and the way along them -/

theorem elementAt_succ (n : NodeRef) (k : Nat) :
    elementAt next (some n) (k + 1) = elementAt next (next n) k := by
  induction k with
  | zero => rfl
  | succ k ih =>
    rw [elementAt, ih]
    rfl

theorem leads_iff : Leads next start ns stop ↔
    (∀ k n, ns[k]? = some n → elementAt next start k = some n) ∧
      elementAt next start ns.length = stop := by
  induction ns generalizing start with
  | nil =>
    constructor
    · intro led
      cases led
      exact ⟨by simp, rfl⟩
    · rintro ⟨_, rfl⟩
      exact .here _
  | cons n ns ih =>
    constructor
    · intro led
      cases led with
      | step rest =>
        obtain ⟨passed, last⟩ := ih.mp rest
        refine ⟨?_, (elementAt_succ n ns.length).trans last⟩
        intro k m here
        cases k with
        | zero => exact here
        | succ k => exact (elementAt_succ n k).trans (passed k m here)
    · rintro ⟨passed, last⟩
      obtain rfl : start = some n := passed 0 n rfl
      refine .step (ih.mpr ⟨?_, (elementAt_succ n ns.length).symm.trans last⟩)
      intro k m here
      exact (elementAt_succ n k).symm.trans (passed (k + 1) m here)

namespace Leads

theorem elementAt_eq (led : Leads next start ns stop) {k : Nat} (less : k < ns.length) :
    elementAt next start k = some ns[k] :=
  (leads_iff.mp led).1 k ns[k] (List.getElem?_eq_getElem less)

theorem mem_iff (led : Leads next start ns stop) {m : NodeRef} :
    m ∈ ns ↔ ∃ k < ns.length, elementAt next start k = some m := by
  rw [List.mem_iff_getElem]
  constructor
  · rintro ⟨k, less, rfl⟩
    exact ⟨k, less, led.elementAt_eq less⟩
  · rintro ⟨k, less, here⟩
    exact ⟨k, less, Option.some.inj ((led.elementAt_eq less).symm.trans here)⟩

theorem concat {m : NodeRef} (led : Leads next start ns (some m)) :
    Leads next start (ns.concat m) (next m) := by
  induction ns generalizing start with
  | nil =>
    cases led
    exact .step (.here _)
  | cons n ns ih =>
    cases led with
    | step rest => exact .step (ih rest)

end Leads

theorem differ_succ {k : Nat} : Differ next start (k + 1) ↔ Differ next start k ∧
    (∃ n, elementAt next start k = some n) ∧
      ∀ i < k, elementAt next start i ≠ elementAt next start k := by
  constructor
  · intro differ
    exact ⟨fun j less => differ j (Nat.lt_succ_of_lt less), differ k (Nat.lt_succ_self k)⟩
  · rintro ⟨before, here⟩ j less
    rcases Nat.lt_succ_iff_lt_or_eq.mp less with less | rfl
    · exact before j less
    · exact here

theorem differ_iff {k : Nat} : Differ next start k ↔
    ∃ ns, ns.length = k ∧ ns.Nodup ∧ Leads next start ns (elementAt next start k) := by
  constructor
  · intro differ
    induction k with
    | zero => exact ⟨[], rfl, .nil, .here _⟩
    | succ k ih =>
      obtain ⟨before, ⟨m, here⟩, unlike⟩ := differ_succ.mp differ
      obtain ⟨ns, rfl, distinct, led⟩ := ih before
      rw [here] at led unlike
      have fresh : m ∉ ns := by
        rw [led.mem_iff]
        rintro ⟨i, less, again⟩
        exact unlike i less again
      refine ⟨ns.concat m, List.length_concat, distinct.concat fresh, ?_⟩
      rw [elementAt, here]
      exact led.concat
  · rintro ⟨ns, rfl, distinct, led⟩ j less
    refine ⟨⟨ns[j], led.elementAt_eq less⟩, ?_⟩
    intro i before same
    rw [led.elementAt_eq (Nat.lt_trans before less), led.elementAt_eq less] at same
    exact Nat.ne_of_lt before (distinct.getElem_inj_iff.mp (Option.some.inj same))

theorem Leads.differ (led : Leads next start ns stop) (distinct : ns.Nodup) :
    Differ next start ns.length := by
  rw [← (leads_iff.mp led).2] at led
  exact differ_iff.mpr ⟨ns, rfl, distinct, led⟩

/-! ### Where a walk goes -/

theorem follow_onward {seen : List NodeRef} (led : Leads next start ns stop) (distinct : ns.Nodup)
    (fresh : ∀ n ∈ ns, n ∉ seen) (limit room : Nat) :
    follow next limit (ns.length + room) seen start =
      ⟨ns ++ (follow next limit room (ns.reverse ++ seen) stop).nodes,
        (follow next limit room (ns.reverse ++ seen) stop).defect⟩ := by
  induction led generalizing seen with
  | here stop => simp
  | @step n ns stop _ ih =>
    obtain ⟨once, distinct⟩ := List.nodup_cons.mp distinct
    obtain ⟨unmet, fresh⟩ := List.forall_mem_cons.mp fresh
    have later : ∀ k ∈ ns, k ∉ n :: seen := by
      intro k member met
      rcases List.mem_cons.mp met with rfl | met
      · exact once member
      · exact fresh k member met
    have longer : (n :: ns).length + room = ns.length + room + 1 := by
      rw [List.length_cons]
      omega
    rw [longer, follow, if_neg unmet]
    simp only [ih distinct later, List.reverse_cons, List.append_assoc, List.cons_append,
      List.nil_append]

theorem walk_of_return {m : NodeRef} (led : Leads next start ns (some m)) (distinct : ns.Nodup)
    (member : m ∈ ns) (short : ns.length ≤ limit) :
    walk next limit start = ⟨ns, some (m, .cycle m ns.length)⟩ := by
  have met : m ∈ ns.reverse ++ [] := by simpa using member
  have new : ∀ n ∈ ns, n ∉ ([] : List NodeRef) := by simp
  have onward := follow_onward led distinct new limit (limit - ns.length)
  rw [follow_met met, Nat.add_sub_cancel' short] at onward
  rw [walk, onward]
  simp

theorem walk_of_long {m : NodeRef} (led : Leads next start ns (some m)) (distinct : ns.Nodup)
    (fresh : m ∉ ns) (full : ns.length = limit) :
    walk next limit start = ⟨ns, some (m, .tooLong limit)⟩ := by
  have unmet : m ∉ ns.reverse ++ [] := by simpa using fresh
  have new : ∀ n ∈ ns, n ∉ ([] : List NodeRef) := by simp
  have onward := follow_onward led distinct new limit 0
  rw [follow, if_neg unmet, Nat.add_zero, full] at onward
  rw [walk, onward]
  simp

theorem walk_eq_ended {l : List NodeRef} :
    walk next limit start = ⟨l, none⟩ ↔
      l.length ≤ limit ∧ Differ next start l.length ∧
        (∀ k n, l[k]? = some n → elementAt next start k = some n) ∧
        elementAt next start l.length = none := by
  constructor
  · intro ended
    have led := follow_leads next limit limit [] start
    have short := follow_length next limit limit [] start
    rw [walk] at ended
    rw [ended] at led short
    exact ⟨short, led.differ led.nodup, leads_iff.mp led⟩
  · rintro ⟨short, _, elements⟩
    exact walk_of_leads (leads_iff.mpr elements) short

theorem walk_defect_cycle {m r : NodeRef} {k : Nat} :
    (walk next limit start).defect = some (m, .cycle r k) ↔
      r = m ∧ k ≤ limit ∧ Differ next start k ∧ elementAt next start k = some m ∧
        ∃ j < k, elementAt next start j = some m := by
  constructor
  · intro stopped
    have short := follow_length next limit limit [] start
    obtain ⟨led, distinct, ⟨member, same⟩ | ⟨_, other, _⟩⟩ := walk_stopped stopped
    · cases same
      exact ⟨rfl, short, led.differ distinct, (leads_iff.mp led).2, led.mem_iff.mp member⟩
    · cases other
  · rintro ⟨rfl, short, differ, here, again⟩
    obtain ⟨ns, rfl, distinct, led⟩ := differ_iff.mp differ
    rw [here] at led
    rw [walk_of_return led distinct (led.mem_iff.mpr again) short]

theorem walk_defect_tooLong {m : NodeRef} {l : Nat} :
    (walk next limit start).defect = some (m, .tooLong l) ↔
      l = limit ∧ Differ next start (limit + 1) ∧ elementAt next start limit = some m := by
  constructor
  · intro stopped
    obtain ⟨led, distinct, ⟨_, other⟩ | ⟨fresh, same, full⟩⟩ := walk_stopped stopped
    · cases other
    · cases same
      have here := (leads_iff.mp led).2
      have differ := led.concat.differ (distinct.concat fresh)
      rw [List.length_concat, full] at differ
      rw [full] at here
      exact ⟨rfl, differ, here⟩
  · rintro ⟨rfl, differ, here⟩
    obtain ⟨differ, _, unlike⟩ := differ_succ.mp differ
    obtain ⟨ns, full, distinct, led⟩ := differ_iff.mp differ
    rw [here] at led unlike
    have fresh : m ∉ ns := by
      rw [led.mem_iff, full]
      rintro ⟨i, less, same⟩
      exact unlike i less same
    rw [walk_of_long led distinct fresh full]

theorem walk_tooLong_unasked {m : NodeRef} {l : Nat}
    (stopped : (walk next limit start).defect = some (m, .tooLong l)) :
    m ∉ (walk next limit start).nodes := by
  obtain ⟨_, _, ⟨_, other⟩ | ⟨fresh, _, _⟩⟩ := walk_stopped stopped
  · cases other
  · exact fresh

theorem walk_cycle_asked_once {m r : NodeRef} {k : Nat}
    (stopped : (walk next limit start).defect = some (m, .cycle r k)) :
    (walk next limit start).nodes.count m = 1 := by
  obtain ⟨_, distinct, ⟨member, _⟩ | ⟨_, other, _⟩⟩ := walk_stopped stopped
  · exact List.count_eq_one_of_mem distinct member
  · cases other

/-! ### What a walk asks -/

/-- The function with each of its calls noted down before it is made. -/
def noted {m : Type → Type} [Monad m] {κ α : Type} (call : NodeRef → κ) (act : NodeRef → m α)
    (n : NodeRef) : StateT (List κ) m α := do
  modify (· ++ [call n])
  act n

section

variable {m : Type → Type} [Monad m] [LawfulMonad m] {κ α : Type} {call : NodeRef → κ}

theorem followM_pure (next : NodeRef → Option NodeRef) (limit room : Nat) (seen : List NodeRef)
    (start : Option NodeRef) :
    followM (fun n => (pure (next n) : m _)) limit room seen start =
      pure (follow next limit room seen start) := by
  fun_induction follow next limit room seen start with
  | case1 => simp [followM]
  | case2 room seen n met => cases room <;> simp [followM, met]
  | case3 seen n unmet => simp [followM, unmet]
  | case4 seen n unmet room rest ih =>
    simp only [followM, if_neg unmet, pure_bind, ih, rest]

theorem walkM_pure (next : NodeRef → Option NodeRef) (limit : Nat) (start : Option NodeRef) :
    walkM (fun n => (pure (next n) : m _)) limit start = pure (walk next limit start) :=
  followM_pure next limit limit [] start

theorem noted_run (act : NodeRef → m α) (n : NodeRef) (log : List κ) :
    (noted call act n).run log = act n >>= fun a => pure (a, log ++ [call n]) := by
  simp [noted]

theorem followM_noted (next : NodeRef → Option NodeRef) (limit room : Nat) (seen : List NodeRef)
    (start : Option NodeRef) (log : List κ) :
    (followM (noted call fun n => (pure (next n) : m _)) limit room seen start).run log =
      pure (follow next limit room seen start,
        log ++ (follow next limit room seen start).nodes.map call) := by
  fun_induction follow next limit room seen start generalizing log with
  | case1 => simp [followM]
  | case2 room seen n met => cases room <;> simp [followM, met]
  | case3 seen n unmet => simp [followM, unmet]
  | case4 seen n unmet room rest ih =>
    simp only [followM, if_neg unmet, StateT.run_bind, noted_run, pure_bind, ih, StateT.run_pure,
      rest, List.map_cons, List.append_assoc, List.singleton_append]

theorem walkM_noted (next : NodeRef → Option NodeRef) (limit : Nat) (start : Option NodeRef)
    (log : List κ) :
    (walkM (noted call fun n => (pure (next n) : m _)) limit start).run log =
      pure (walk next limit start, log ++ (walk next limit start).nodes.map call) :=
  followM_noted next limit limit [] start log

end

/-- What a walk comes to, by the elements of its chain. It ends with them exactly if they end and
are no more than the limit. It reports a cycle exactly if one element is an earlier one again, at
the limit too, and that the chain is too long exactly if there is a new element beyond the limit. It
asks each element that it passes for its successor, once and in order, and asks nothing where it
stops: a node beyond the limit is never asked, and one that is met again was asked once, when it was
passed. -/
theorem walks_are_classified (next : NodeRef → Option NodeRef) (limit : Nat)
    (start : Option NodeRef) :
    (∀ l, walk next limit start = ⟨l, none⟩ ↔
      l.length ≤ limit ∧ Differ next start l.length ∧
        (∀ k n, l[k]? = some n → elementAt next start k = some n) ∧
        elementAt next start l.length = none) ∧
    (∀ m repeated k, (walk next limit start).defect = some (m, .cycle repeated k) ↔
      repeated = m ∧ k ≤ limit ∧ Differ next start k ∧ elementAt next start k = some m ∧
        ∃ j < k, elementAt next start j = some m) ∧
    (∀ m l, (walk next limit start).defect = some (m, .tooLong l) ↔
      l = limit ∧ Differ next start (limit + 1) ∧ elementAt next start limit = some m) ∧
    (∀ log, (walkM (noted id fun n => (pure (next n) : Id _)) limit start).run log =
      (walk next limit start, log ++ (walk next limit start).nodes)) ∧
    (walk next limit start).nodes.length ≤ limit ∧ (walk next limit start).nodes.Nodup ∧
    (∀ k n, (walk next limit start).nodes[k]? = some n → elementAt next start k = some n) ∧
    elementAt next start (walk next limit start).nodes.length =
      (walk next limit start).defect.map Prod.fst ∧
    (∀ m l, (walk next limit start).defect = some (m, .tooLong l) →
      m ∉ (walk next limit start).nodes) ∧
    ∀ m repeated k, (walk next limit start).defect = some (m, .cycle repeated k) →
      (walk next limit start).nodes.count m = 1 := by
  obtain ⟨passed, last⟩ := leads_iff.mp (follow_leads next limit limit [] start)
  refine ⟨fun l => walk_eq_ended, fun m repeated k => walk_defect_cycle,
    fun m l => walk_defect_tooLong, fun log => ?_, follow_length next limit limit [] start,
    (follow_nodup next limit limit [] start).1, passed, last, fun m l => walk_tooLong_unasked,
    fun m repeated k => walk_cycle_asked_once⟩
  rw [walkM_noted, List.map_id]
  rfl

def lasso : NodeRef → Option NodeRef
  | ⟨0⟩ => some ⟨1⟩
  | ⟨1⟩ => some ⟨2⟩
  | ⟨2⟩ => some ⟨1⟩
  | _ => none

theorem lasso_returns_at_limit :
    (walk lasso 3 (some ⟨0⟩)).defect = some (⟨1⟩, .cycle ⟨1⟩ 3) ∧
      (walk lasso 2 (some ⟨0⟩)).defect = some (⟨2⟩, .tooLong 2) := by
  have three : Differ lasso (some ⟨0⟩) 3 := by
    intro j less
    have places : j = 0 ∨ j = 1 ∨ j = 2 := by omega
    rcases places with rfl | rfl | rfl
    · exact ⟨⟨⟨0⟩, rfl⟩, by decide⟩
    · exact ⟨⟨⟨1⟩, rfl⟩, by decide⟩
    · exact ⟨⟨⟨2⟩, rfl⟩, by decide⟩
  constructor
  · exact ((walks_are_classified lasso 3 (some ⟨0⟩)).2.1 ⟨1⟩ ⟨1⟩ 3).mpr
      ⟨rfl, Nat.le_refl 3, three, rfl, 1, by decide, rfl⟩
  · exact ((walks_are_classified lasso 2 (some ⟨0⟩)).2.2.1 ⟨2⟩ 2).mpr ⟨rfl, three, rfl⟩

end VhdlDesign
