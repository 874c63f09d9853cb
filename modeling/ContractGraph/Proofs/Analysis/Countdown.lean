/-
The order of a plan, by counters.

Nodes are placed first in, first out. Each node has a counter: how many connections into it are left, parallel ones
each for itself. When a node is placed, the counter of every node that it leads to goes down by all connections between
the two; a node whose counter is at zero queues up. `Plan.take` comes to the same order without counters, from the
connections that are left.

Of a step only `step?_cons` is needed: what is placed, what queues up, and every counter after it. All else follows from
the invariant `Countdown.Inv`, in which a counter is what its name says.

Results:
- `inv_step`, `inv_run`: the invariant holds all the way;
- `exists_run`: the countdown ends, and what is placed then is what `take` has;
- `placed_iff_acyclic`: every node is placed just when no way along the connections leads back to where it starts.
-/
import Mathlib.Data.Fintype.Order
import Mathlib.Data.List.Basic
import Mathlib.Logic.Function.Basic
import Mathlib.Order.WellFounded
import ContractGraph.Analysis.Plan
import ContractGraph.Proofs.Analysis.Cycle

namespace ContractGraph.Plan

/-- one of the connections leads from the first node to the second -/
def Joins (es : List Connection) (v w : String) : Prop := ∃ c ∈ es, c.source = v ∧ c.target = w

/-- how many connections lead from the first node to the second -/
def parallel (es : List Connection) (n v : String) : Nat :=
  (es.filter fun c => c.source == n).countP fun c => c.target == v

/-- nodes, each once, and connections between them -/
structure Spans (ids : List String) (es : List Connection) : Prop where
  nodup : ids.Nodup
  source : ∀ c ∈ es, c.source ∈ ids
  target : ∀ c ∈ es, c.target ∈ ids

theorem mem_successors {es : List Connection} {v : String} : v ∈ successors es ↔ ∃ c ∈ es, c.target = v := by
  simp [successors]

theorem nodup_successors (es : List Connection) : (successors es).Nodup := nodup_eraseDups _

theorem parallel_pos_iff {es : List Connection} {n v : String} :
    0 < parallel es n v ↔ v ∈ successors (es.filter fun c => c.source == n) := by
  simp [parallel, List.countP_pos_iff, mem_successors]

theorem countP_target_eq_zero (es : List Connection) (v : String) :
    decide ((es.countP fun c => c.target == v) = 0) = es.all fun c => c.target != v := by
  rw [Bool.eq_iff_iff, decide_eq_true_eq, List.countP_eq_zero]
  simp

/-- a countdown on its way: the nodes that are placed, the nodes whose turn it is next, and the counters -/
structure Countdown where
  placed : List String
  queue : List String
  left : String → Nat

namespace Countdown

/-- nothing is placed, and the nodes without connections into them queue in their order -/
def start (ids : List String) (es : List Connection) : Countdown where
  placed := []
  queue := ids.filter fun v => es.countP (fun c => c.target == v) = 0
  left := fun v => es.countP fun c => c.target == v

/-- `n` is placed, and leads to `v` -/
def visit (es : List Connection) (n : String) (s : Countdown) (v : String) : Countdown :=
  let left := s.left v - parallel es n v
  { s with queue := if left = 0 then s.queue ++ [v] else s.queue, left := Function.update s.left v left }

/-- the next node of the queue is placed -/
def step? (es : List Connection) (s : Countdown) : Option Countdown :=
  match s.queue with
  | [] => none
  | n :: queue =>
    some ((successors (es.filter fun c => c.source == n)).foldl (visit es n)
      { s with placed := s.placed ++ [n], queue := queue })

/-- the countdown goes on to the second state -/
def Step (es : List Connection) (s t : Countdown) : Prop := step? es s = some t

/-- the countdown goes on to an end with these nodes placed -/
def Places (ids : List String) (es : List Connection) (order : List String) : Prop :=
  ∃ s, Relation.ReflTransGen (Step es) (start ids es) s ∧ step? es s = none ∧ s.placed = order

variable {ids : List String} {es : List Connection}

/-! ## A step -/

theorem foldl_visit {n : String} {vs : List String} (hvs : vs.Nodup) (s : Countdown) :
    vs.foldl (visit es n) s =
      { s with
        queue := s.queue ++ vs.filter fun v => s.left v - parallel es n v = 0
        left := fun w => if w ∈ vs then s.left w - parallel es n w else s.left w } := by
  induction vs generalizing s with
  | nil => simp
  | cons v vs ih =>
    obtain ⟨hv, hvs⟩ := List.nodup_cons.1 hvs
    have hother : ∀ w ∈ vs, (visit es n s v).left w = s.left w := by
      intro w hw
      have hne : w ≠ v := fun h => hv (h ▸ hw)
      exact Function.update_of_ne hne _ _
    have hself : (visit es n s v).left v = s.left v - parallel es n v := Function.update_self ..
    rw [List.foldl_cons, ih hvs]
    congr 1
    · rw [List.filter_congr fun w hw => by rw [hother w hw], List.filter_cons]
      by_cases h : s.left v - parallel es n v = 0 <;> simp [visit, h]
    · funext w
      by_cases hw : w ∈ vs
      · simp [hw, hother w hw]
      · by_cases hwv : w = v
        · subst hwv
          simp [hw, hself]
        · simp [hw, hwv, visit]

/-- what a step does: the node is placed, every counter goes down by the connections from it, and the nodes that it
leads to queue up if their counters are at zero -/
theorem step?_cons (placed queue : List String) (left : String → Nat) (n : String) :
    step? es ⟨placed, n :: queue, left⟩ = some
      ⟨placed ++ [n],
        queue ++ (successors (es.filter fun c => c.source == n)).filter (fun v => left v - parallel es n v = 0),
        fun w => left w - parallel es n w⟩ := by
  have hcounters : ∀ w, (if w ∈ successors (es.filter fun c => c.source == n) then left w - parallel es n w else left w)
      = left w - parallel es n w := by
    intro w
    split
    · rfl
    · next hw =>
      have hzero : parallel es n w = 0 := Nat.eq_zero_of_not_pos (mt parallel_pos_iff.1 hw)
      rw [hzero, Nat.sub_zero]
  calc step? es ⟨placed, n :: queue, left⟩
      = some ((successors (es.filter fun c => c.source == n)).foldl (visit es n) ⟨placed ++ [n], queue, left⟩) := rfl
    _ = _ := by rw [foldl_visit (nodup_successors _), funext hcounters]

theorem step?_eq_none_iff {s : Countdown} : step? es s = none ↔ s.queue = [] := by
  rw [step?]
  split <;> simp [*]

/-! ## The invariant -/

/-- the connections that are left: those out of nodes that are not placed -/
def waiting (es : List Connection) (placed : List String) : List Connection :=
  es.filter fun c => !placed.contains c.source

/-- The counters count the connections that are left. Placed or in the queue are the nodes whose counters are at zero,
each once, and all connections into a node that is placed come from nodes before it. -/
structure Inv (ids : List String) (es : List Connection) (s : Countdown) : Prop where
  left_eq : ∀ v, s.left v = (waiting es s.placed).countP fun c => c.target == v
  nodup : (s.placed ++ s.queue).Nodup
  mem_iff : ∀ v, v ∈ s.placed ++ s.queue ↔ v ∈ ids ∧ s.left v = 0
  forward : ∀ c ∈ es, c.target ∈ s.placed → s.placed.idxOf c.source < s.placed.idxOf c.target

theorem waiting_append (placed : List String) (n : String) :
    waiting es (placed ++ [n]) = (waiting es placed).filter fun c => c.source != n := by
  rw [waiting, waiting, List.filter_filter]
  refine List.filter_congr fun c _ => ?_
  by_cases h : c.source = n <;> simp [h]

theorem waiting_filter {placed : List String} {n : String} (hn : n ∉ placed) :
    (waiting es placed).filter (fun c => c.source == n) = es.filter fun c => c.source == n := by
  rw [waiting, List.filter_filter]
  refine List.filter_congr fun c _ => ?_
  by_cases h : c.source = n <;> simp [h, hn]

/-- the connections that are left into a node are those from the next node and those that are left after it -/
theorem countP_waiting {placed : List String} {n : String} (hn : n ∉ placed) (v : String) :
    (waiting es placed).countP (fun c => c.target == v) =
      parallel es n v + (waiting es (placed ++ [n])).countP fun c => c.target == v := by
  rw [List.countP_eq_countP_filter_add _ _ fun c => c.source == n, waiting_filter hn, waiting_append]
  rfl

/-- the node whose turn it is has not been placed -/
theorem Inv.notMem_placed {placed queue : List String} {left : String → Nat} {n : String}
    (h : Inv ids es ⟨placed, n :: queue, left⟩) : n ∉ placed :=
  fun hn => List.disjoint_of_nodup_append h.nodup hn List.mem_cons_self

/-- nothing is left into a node just when all connections into it come from nodes that are placed -/
theorem Inv.left_eq_zero_iff {s : Countdown} (h : Inv ids es s) {v : String} :
    s.left v = 0 ↔ ∀ c ∈ es, c.target = v → c.source ∈ s.placed := by
  rw [h.left_eq, List.countP_eq_zero]
  simp only [waiting, List.mem_filter, Bool.not_eq_true', List.contains_eq_mem, decide_eq_false_iff_not, beq_iff_eq,
    and_imp]
  exact forall₂_congr fun c _ => not_imp_not

theorem inv_start (h : Spans ids es) : Inv ids es (start ids es) where
  left_eq := fun v => by simp [start, waiting]
  nodup := by simpa [start] using h.nodup.filter _
  mem_iff := fun v => by simp [start]
  forward := fun c _ hc => by cases hc

/-- all connections into the node whose turn it is come from nodes that are placed -/
theorem Inv.source_mem_placed {placed queue : List String} {left : String → Nat} {n : String}
    (h : Inv ids es ⟨placed, n :: queue, left⟩) {c : Connection} (hc : c ∈ es) (ht : c.target = n) :
    c.source ∈ placed := by
  have hn : n ∈ placed ++ n :: queue := List.mem_append_right _ List.mem_cons_self
  exact h.left_eq_zero_iff.1 ((h.mem_iff n).1 hn).2 c hc ht

/-- a place at the end, for a node whose connections all come from nodes that are placed, keeps what is placed in order -/
theorem idxOf_lt_append {placed : List String} {n : String} {c : Connection} (hn : n ∉ placed)
    (hback : c.target = n → c.source ∈ placed)
    (hforward : c.target ∈ placed → placed.idxOf c.source < placed.idxOf c.target)
    (ht : c.target ∈ placed ++ [n]) : (placed ++ [n]).idxOf c.source < (placed ++ [n]).idxOf c.target := by
  rcases List.mem_append.1 ht with ht | ht
  · have hlt := hforward ht
    have hs : c.source ∈ placed := List.idxOf_lt_length_iff.1 (hlt.trans (List.idxOf_lt_length_iff.2 ht))
    rwa [List.idxOf_append_of_mem hs, List.idxOf_append_of_mem ht]
  · have ht : c.target = n := List.mem_singleton.1 ht
    have hs := hback ht
    rw [List.idxOf_append_of_mem hs, ht, List.idxOf_append_of_notMem hn]
    exact Nat.lt_add_right _ (List.idxOf_lt_length_iff.2 hs)

/-- **The invariant holds after a step.** -/
theorem inv_step (h : Spans ids es) {s t : Countdown} (hi : Inv ids es s) (hst : Step es s t) : Inv ids es t := by
  obtain ⟨placed, queue, left⟩ := s
  cases queue with
  | nil => cases hst
  | cons n queue =>
    rw [Step, step?_cons, Option.some_inj] at hst
    subst hst
    have hn : n ∉ placed := hi.notMem_placed
    have hleft : ∀ v, left v = parallel es n v + (waiting es (placed ++ [n])).countP fun c => c.target == v := by
      intro v
      rw [← countP_waiting hn, ← hi.left_eq]
    have hold : ∀ v, v ∈ placed ++ [n] ++ queue ↔ v ∈ ids ∧ left v = 0 := by
      intro v
      rw [← hi.mem_iff v]
      simp
    constructor
    case left_eq =>
      intro v
      simp only [hleft v, Nat.add_sub_cancel_left]
    case nodup =>
      -- what queues up had something left until now, so it is neither placed nor in the queue
      rw [← List.append_assoc, List.nodup_append']
      refine ⟨by simpa using hi.nodup, (nodup_successors _).filter _, ?_⟩
      intro v hv hnew
      have hpos := parallel_pos_iff.2 (List.mem_of_mem_filter hnew)
      have hzero := ((hold v).1 hv).2
      have hsum := hleft v
      omega
    case mem_iff =>
      intro v
      rw [← List.append_assoc, List.mem_append, hold, List.mem_filter, ← parallel_pos_iff, decide_eq_true_eq]
      constructor
      · rintro (⟨hv, hzero⟩ | ⟨hpos, hzero⟩)
        · exact ⟨hv, by simp [hzero]⟩
        · obtain ⟨c, hc, rfl⟩ := mem_successors.1 (parallel_pos_iff.1 hpos)
          exact ⟨h.target c (List.mem_of_mem_filter hc), hzero⟩
      · rintro ⟨hv, hzero⟩
        by_cases hpos : 0 < parallel es n v
        · exact Or.inr ⟨hpos, hzero⟩
        · simp only at hzero
          exact Or.inl ⟨hv, by omega⟩
    case forward =>
      intro c hc ht
      exact idxOf_lt_append hn (hi.source_mem_placed hc) (hi.forward c hc) ht

/-- **The invariant holds all the way.** -/
theorem inv_run (h : Spans ids es) {s t : Countdown} (hi : Inv ids es s)
    (hst : Relation.ReflTransGen (Step es) s t) : Inv ids es t := by
  induction hst with
  | refl => exact hi
  | tail _ hstep ih => exact inv_step h ih hstep

/-! ## The end -/

/-- `take` goes the way of the countdown to its end, given a round for each node that is not placed -/
theorem take_run (h : Spans ids es) {fuel : Nat} {s : Countdown} (hi : Inv ids es s)
    (hfuel : s.placed.length + fuel = ids.length) :
    ∃ t, Relation.ReflTransGen (Step es) s t ∧ step? es t = none ∧
      t.placed = s.placed ++ take fuel s.queue (waiting es s.placed) := by
  induction fuel generalizing s with
  | zero =>
    have hlen : (s.placed ++ s.queue).length ≤ ids.length :=
      hi.nodup.length_le_of_subset fun v hv => ((hi.mem_iff v).1 hv).1
    have hempty : s.queue = [] := by
      rw [List.length_append] at hlen
      exact List.length_eq_zero_iff.1 (by omega)
    exact ⟨s, .refl, step?_eq_none_iff.2 hempty, by simp [take]⟩
  | succ fuel ih =>
    obtain ⟨placed, queue, left⟩ := s
    cases queue with
    | nil => exact ⟨_, .refl, rfl, by simp [take]⟩
    | cons n queue =>
      have hstep : Step es _ _ := step?_cons placed queue left n
      have hi' := inv_step h hi hstep
      obtain ⟨t, hrun, hend, hplaced⟩ := ih hi' (by simp at hfuel ⊢; omega)
      refine ⟨t, .head hstep hrun, hend, ?_⟩
      -- a node's counter is at zero just when no connection that is left leads to it
      have hfree : ∀ v, decide (left v - parallel es n v = 0) =
          ((waiting es placed).filter fun c => c.source != n).all fun c => c.target != v := by
        intro v
        have hleft : left v - parallel es n v = (waiting es (placed ++ [n])).countP fun c => c.target == v :=
          hi'.left_eq v
        rw [← waiting_append, hleft, countP_target_eq_zero]
      rw [hplaced, take, waiting_filter hi.notMem_placed, waiting_append]
      simp only [hfree, List.append_assoc, List.singleton_append]

/-- **The countdown ends with what is taken.** -/
theorem exists_run (h : Spans ids es) :
    ∃ s, Relation.ReflTransGen (Step es) (start ids es) s ∧ step? es s = none ∧
      s.placed = take ids.length (ids.filter fun i => es.all fun c => c.target != i) es ∧ Inv ids es s := by
  have hi := inv_start h
  have hlen : (start ids es).placed.length + ids.length = ids.length := Nat.zero_add _
  obtain ⟨s, hrun, hend, hplaced⟩ := take_run h hi hlen
  refine ⟨s, hrun, hend, ?_, inv_run h hi hrun⟩
  have hqueue : (start ids es).queue = ids.filter fun i => es.all fun c => c.target != i :=
    List.filter_congr fun v _ => countP_target_eq_zero es v
  have hwaiting : waiting es (start ids es).placed = es := by simp [waiting, start]
  rw [hplaced, hqueue, hwaiting]
  rfl

/-- at the end, a node that is left over comes after another one -/
theorem Inv.exists_left_over {s : Countdown} (hi : Inv ids es s) (hend : s.queue = []) {w : String} (hw : w ∈ ids)
    (hout : w ∉ s.placed) : ∃ v, v ∉ s.placed ∧ Joins es v w := by
  by_contra! hnone
  have hzero : s.left w = 0 := by
    refine hi.left_eq_zero_iff.2 fun c hc hcw => ?_
    by_contra hs
    exact hnone c.source hs ⟨c, hc, rfl, hcw⟩
  have hin := (hi.mem_iff w).2 ⟨hw, hzero⟩
  rw [hend, List.append_nil] at hin
  exact hout hin

/-- on nodes without a cycle, what comes before what is well-founded -/
theorem wellFounded_joins (hacyclic : ∀ v, ¬ Relation.TransGen (Joins es) v v) :
    WellFounded fun v w : {v // v ∈ ids} => Relation.TransGen (Joins es) v w := by
  have : IsTrans {v // v ∈ ids} fun v w => Relation.TransGen (Joins es) v w := ⟨fun _ _ _ => Relation.TransGen.trans⟩
  have : Std.Irrefl fun v w : {v // v ∈ ids} => Relation.TransGen (Joins es) v w := ⟨fun v => hacyclic v⟩
  exact Finite.wellFounded_of_trans_of_irrefl _

/-- **All nodes are placed just when there is no cycle.** -/
theorem Inv.placed_iff_acyclic (h : Spans ids es) {s : Countdown} (hi : Inv ids es s) (hend : s.queue = []) :
    (∀ v ∈ ids, v ∈ s.placed) ↔ ∀ v, ¬ Relation.TransGen (Joins es) v v := by
  constructor
  · intro hall
    refine not_transGen_self_of_rank (fun v => s.placed.idxOf v) ?_
    rintro v w ⟨c, hc, rfl, rfl⟩
    exact hi.forward c hc (hall c.target (h.target c hc))
  · intro hacyclic v hv
    by_contra hout
    -- one of the nodes that are left over would come before the others, but another one comes before it
    obtain ⟨w, hw, hfirst⟩ := (wellFounded_joins hacyclic).has_min {v : {v // v ∈ ids} | v.1 ∉ s.placed} ⟨⟨v, hv⟩, hout⟩
    obtain ⟨u, hu, hj⟩ := hi.exists_left_over hend w.2 hw
    have huid : u ∈ ids := by
      obtain ⟨c, hc, rfl, -⟩ := hj
      exact h.source c hc
    exact hfirst ⟨u, huid⟩ hu (.single hj)

end Countdown

end ContractGraph.Plan
