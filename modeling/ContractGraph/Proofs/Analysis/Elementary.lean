/-
The search lists each elementary cycle once, and nothing else.

`Cycle` has that every elementary cycle is listed. Here is the rest: what is listed is an elementary cycle that begins
with its least vertex, and no cycle is listed twice, in the same or in another rotation. Every step of the search goes on
to another successor, so what it finds along different steps differs at that place; and a cycle has one rotation only
that begins with its least vertex.

Results:
- `of_mem_closing`, `mem_cyclesFrom_iff`: what is listed, from each start;
- `nodup_closing`, `nodup_cycles`: nothing is listed twice;
- `eq_of_isRotated`: cycles that are listed are no rotations of each other;
- `mem_cycles_iff`: the elementary cycles are listed, and nothing else;
- `valueCycles_exact`: so the value cycles of a graph are told, one finding for each.
-/
import ContractGraph.Proofs.Analysis.WellFormed

namespace ContractGraph

namespace Digraph

variable {d : Digraph} {start : String}

/-! ## What is listed -/

/-- what closes a path goes on from it to the start, and meets no vertex twice -/
theorem of_mem_closing {fuel : Nat} {path l : List String} {last : String} (hs : start ∈ path)
    (hl : l ∈ d.closing start fuel path last) :
    ∃ rest, l = path.reverse ++ rest ∧ rest.Nodup ∧ (∀ v ∈ rest, v ∉ path) ∧
      List.IsChain d.Edge (last :: (rest ++ [start])) := by
  induction fuel generalizing path last with
  | zero => cases hl
  | succ fuel ih =>
    rw [closing, List.mem_flatMap] at hl
    obtain ⟨v, hv, hl⟩ := hl
    have he : d.Edge last v := d.mem_successors_iff.1 hv
    split at hl
    · next hvs =>
      subst hvs
      refine ⟨[], by simpa using hl, List.nodup_nil, by simp, ?_⟩
      simpa using he
    · next hvs =>
      split at hl
      · cases hl
      · next hvp =>
        obtain ⟨rest, rfl, hn, hfresh, hc⟩ := ih (List.mem_cons_of_mem v hs) hl
        have hvp : v ∉ path := by simpa using hvp
        have hvr : v ∉ rest := fun hm => hfresh v hm List.mem_cons_self
        refine ⟨v :: rest, by simp, List.nodup_cons.2 ⟨hvr, hn⟩, ?_, List.isChain_cons_cons.2 ⟨he, hc⟩⟩
        rw [List.forall_mem_cons]
        exact ⟨hvp, fun w hw hm => hfresh w hw (List.mem_cons_of_mem v hm)⟩

/-- the cycles that are listed from a start begin with it, and it is their least vertex -/
theorem mem_cyclesFrom_iff (hd : d.Closed) {l : List String} :
    l ∈ d.cyclesFrom start ↔ ∃ rest, l = start :: rest ∧ (start :: rest).Nodup ∧ (∀ v ∈ rest, start ≤ v) ∧
      List.IsChain d.Edge (start :: (rest ++ [start])) := by
  constructor
  · intro hl
    obtain ⟨rest, rfl, hn, hfresh, hc⟩ := of_mem_closing (List.mem_singleton_self start) hl
    have hout : start ∉ rest := fun hm => hfresh start hm (List.mem_singleton_self start)
    refine ⟨rest, rfl, List.nodup_cons.2 ⟨hout, hn⟩, fun v hv => ?_, ?_⟩
    · -- every vertex of the way is the end of an edge that stays above the start
      obtain ⟨before, after, rfl⟩ := List.append_of_mem hv
      have hback : List.IsChain (d.around start).Edge (v :: (after ++ [start])) := by
        refine hc.suffix ⟨start :: before, ?_⟩
        simp
      cases after with
      | nil => exact (around_edge_iff.1 (List.isChain_pair.1 hback)).2.1.1
      | cons w after => exact (around_edge_iff.1 (List.isChain_cons_cons.1 hback).1).2.1.1
    · exact hc.imp fun v w he => (around_edge_iff.1 he).1
  · rintro ⟨rest, rfl, hn, hle, hc⟩
    exact mem_cyclesFrom hd hn hle hc

/-! ## Nothing is listed twice -/

/-- what is found along a step: the path itself if the step closes it, else something that goes on with the step -/
theorem of_mem_step {fuel : Nat} {path l : List String} {v : String} (hs : start ∈ path)
    (hl : l ∈ if v = start then [path.reverse] else if path.contains v then []
      else d.closing start fuel (v :: path) v) :
    v = start ∧ l = path.reverse ∨ path.reverse ++ [v] <+: l := by
  split at hl
  · next hvs => exact Or.inl ⟨hvs, List.mem_singleton.1 hl⟩
  · split at hl
    · cases hl
    · obtain ⟨rest, rfl, -⟩ := of_mem_closing (List.mem_cons_of_mem v hs) hl
      exact Or.inr ⟨rest, by simp⟩

/-- steps to different vertices find different things -/
theorem disjoint_steps {fuel : Nat} {path : List String} {v w : String} (hs : start ∈ path) (hvw : v ≠ w) :
    List.Disjoint
      (if v = start then [path.reverse] else if path.contains v then [] else d.closing start fuel (v :: path) v)
      (if w = start then [path.reverse] else if path.contains w then [] else d.closing start fuel (w :: path) w) := by
  intro l hv hw
  have hlong : ∀ u, ¬ path.reverse ++ [u] <+: path.reverse := by
    intro u h
    have hle := h.length_le
    simp at hle
  rcases of_mem_step hs hv with ⟨hvs, hl⟩ | hv <;> rcases of_mem_step hs hw with ⟨hws, hl'⟩ | hw
  · exact hvw (hvs.trans hws.symm)
  · exact hlong w (hl ▸ hw)
  · exact hlong v (hl' ▸ hv)
  · have heq : path.reverse ++ [v] = path.reverse ++ [w] :=
      (List.prefix_of_prefix_length_le hv hw (by simp)).eq_of_length (by simp)
    exact hvw (List.singleton_inj.1 (List.append_cancel_left heq))

theorem nodup_closing (hsucc : ∀ v, (d.successors v).Nodup) {fuel : Nat} {path : List String} {last : String}
    (hs : start ∈ path) : (d.closing start fuel path last).Nodup := by
  induction fuel generalizing path last with
  | zero => exact List.nodup_nil
  | succ fuel ih =>
    rw [closing, List.nodup_flatMap]
    refine ⟨fun v _ => ?_, (hsucc last).imp fun hvw => disjoint_steps hs hvw⟩
    split
    · exact List.nodup_singleton _
    · split
      · exact List.nodup_nil
      · exact ih (List.mem_cons_of_mem v hs)

/-- an edge is listed once, so a vertex has each successor once -/
theorem nodup_successors (h : d.edges.Nodup) (v : String) : (d.successors v).Nodup := by
  refine (h.filter _).map_on fun e he f hf hef => ?_
  have hsource : e.1 = f.1 := by
    have he := List.of_mem_filter he
    have hf := List.of_mem_filter hf
    rw [beq_iff_eq] at he hf
    rw [he, hf]
  exact Prod.ext hsource hef

theorem nodup_around (h : d.edges.Nodup) (start : String) : (d.around start).edges.Nodup := (h.filter _).filter _

theorem nodup_cycles (hd : d.Closed) (hv : d.vertices.Nodup) (he : d.edges.Nodup) : d.cycles.Nodup := by
  rw [cycles, List.nodup_flatMap]
  refine ⟨fun start _ => nodup_closing (nodup_successors (nodup_around he start)) (List.mem_singleton_self start), ?_⟩
  refine hv.imp fun hvw l hlv hlw => ?_
  obtain ⟨rest, rfl, -⟩ := (mem_cyclesFrom_iff hd).1 hlv
  obtain ⟨rest', heq, -⟩ := (mem_cyclesFrom_iff hd).1 hlw
  exact hvw (List.cons.inj heq).1

/-- a list without repetitions has one rotation that begins with its first element: itself -/
theorem eq_of_isRotated_cons {a : String} {l l' : List String} (hn : (a :: l).Nodup) (h : a :: l ~r a :: l') :
    a :: l = a :: l' := by
  obtain ⟨n, hn'⟩ := h
  have hpos : 0 < ((a :: l).rotate n).length := by simp
  have hlt : n % (a :: l).length < (a :: l).length := Nat.mod_lt n (by simp)
  have hfirst : (a :: l)[n % (a :: l).length] = (a :: l)[0] := by
    have hget := List.getElem_rotate (a :: l) n 0 hpos
    simp only [hn', Nat.zero_add] at hget
    exact hget.symm
  have hzero : n % (a :: l).length = 0 := hn.getElem_inj_iff.1 hfirst
  rw [← hn', ← List.rotate_mod, hzero, List.rotate_zero]

/-- cycles that are listed are no rotations of each other -/
theorem eq_of_isRotated (hd : d.Closed) {l l' : List String} (hl : l ∈ d.cycles) (hl' : l' ∈ d.cycles) (h : l ~r l') :
    l = l' := by
  obtain ⟨start, -, hl⟩ := List.mem_flatMap.1 hl
  obtain ⟨start', -, hl'⟩ := List.mem_flatMap.1 hl'
  obtain ⟨rest, rfl, hn, hle, -⟩ := (mem_cyclesFrom_iff hd).1 hl
  obtain ⟨rest', rfl, -, hle', -⟩ := (mem_cyclesFrom_iff hd).1 hl'
  have hleast : ∀ v ∈ start :: rest, start ≤ v := List.forall_mem_cons.2 ⟨le_refl start, hle⟩
  have hleast' : ∀ v ∈ start' :: rest', start' ≤ v := List.forall_mem_cons.2 ⟨le_refl start', hle'⟩
  have hstart : start = start' :=
    le_antisymm (hleast start' (h.mem_iff.2 List.mem_cons_self)) (hleast' start (h.mem_iff.1 List.mem_cons_self))
  subst hstart
  exact eq_of_isRotated_cons hn h

/-! ## Elementary cycles -/

theorem nodup_cycles_coe (hd : d.Closed) (hv : d.vertices.Nodup) (he : d.edges.Nodup) :
    (d.cycles.map Cycle.ofList).Nodup :=
  (nodup_cycles hd hv he).map_on fun _ hl _ hl' h => eq_of_isRotated hd hl hl' (Cycle.coe_eq_coe.1 h)

/-- **The elementary cycles are listed, and nothing else.** -/
theorem mem_cycles_iff (hd : d.Closed) {c : Cycle String} :
    (∃ l ∈ d.cycles, (l : Cycle String) = c) ↔ c ≠ Cycle.nil ∧ c.Nodup ∧ c.Chain d.Edge := by
  constructor
  · rintro ⟨l, hl, rfl⟩
    obtain ⟨start, -, hl⟩ := List.mem_flatMap.1 hl
    obtain ⟨rest, rfl, hn, -, hc⟩ := (mem_cyclesFrom_iff hd).1 hl
    refine ⟨fun h => ?_, Cycle.nodup_coe_iff.2 hn, (Cycle.chain_coe_cons ..).2 hc⟩
    cases (Cycle.coe_eq_nil _).1 h
  · rintro ⟨hne, hn, hc⟩
    exact exists_mem_cycles hd hne hn hc

end Digraph

/-- the cycle that a finding tells, in no particular rotation -/
def Finding.cycle : Finding → Cycle String
  | .valueCycle ids => (ids : Cycle String)
  | _ => Cycle.nil

namespace Graph

variable {g : Graph}

/-! ## Value cycles -/

/-- a connection carries a value from the first node to the second, and both exist -/
def Carries (g : Graph) (v w : String) : Prop := g.Feeds v w ∧ g.hasNode w = true

/-- an elementary cycle of nodes along which values are carried -/
structure IsValueCycle (g : Graph) (c : Cycle String) : Prop where
  ne_nil : c ≠ Cycle.nil
  nodup : c.Nodup
  chain : c.Chain g.Carries

theorem valueFlow_edge : g.valueFlow.Edge = g.Carries := by
  ext v w
  exact valueFlow_edge_iff_feeds

theorem valueCycles_perm (g : Graph) : g.valueCycles.Perm (g.valueFlow.cycles.map .valueCycle) := List.mergeSort_perm _ _

theorem cycle_perm (g : Graph) :
    (g.valueCycles.map Finding.cycle).Perm (g.valueFlow.cycles.map Cycle.ofList) := by
  have h := g.valueCycles_perm.map Finding.cycle
  rwa [List.map_map] at h

theorem nodup_valueFlow_edges (g : Graph) : g.valueFlow.edges.Nodup := nodup_eraseDups _

/-! ## Main result -/

/-- **The value cycles are told, one finding for each.** The findings are value cycles, each told by its nodes and the
first of them again; no two tell the same cycle, in whatever rotation, and the cycles told are the elementary cycles of
the graph in which connections carry values from node to node. Nothing is told just when this graph is acyclic. -/
theorem valueCycles_exact (g : Graph) :
    (∀ f ∈ g.valueCycles, ∃ ids, f = .valueCycle ids ∧
        f.message = "Value cycle detected: " ++ Text.join " -> " (ids ++ ids.take 1)) ∧
      (g.valueCycles.map Finding.cycle).Nodup ∧
      (∀ c, c ∈ g.valueCycles.map Finding.cycle ↔ g.IsValueCycle c) ∧
      (g.valueCycles = [] ↔ ∀ v, ¬ Relation.TransGen g.Carries v v) := by
  have hd := valueFlow_closed g
  refine ⟨fun f hf => ?_, ?_, fun c => ?_, ?_⟩
  · obtain ⟨ids, -, rfl⟩ := List.mem_map.1 (g.valueCycles_perm.mem_iff.1 hf)
    exact ⟨ids, rfl, rfl⟩
  · rw [g.cycle_perm.nodup_iff]
    exact Digraph.nodup_cycles_coe hd g.nodup (nodup_valueFlow_edges g)
  · rw [g.cycle_perm.mem_iff, List.mem_map, Digraph.mem_cycles_iff hd, valueFlow_edge]
    exact ⟨fun ⟨hne, hn, hc⟩ => ⟨hne, hn, hc⟩, fun h => ⟨h.ne_nil, h.nodup, h.chain⟩⟩
  · rw [← valueFlow_edge, ← Digraph.cycles_eq_nil_iff hd, ← List.map_eq_nil_iff (f := Finding.valueCycle),
      ← List.length_eq_zero_iff, g.valueCycles_perm.length_eq, List.length_eq_zero_iff]

end Graph

end ContractGraph
