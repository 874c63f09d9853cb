/-
The search for elementary cycles is complete.

A cycle is a list of vertices up to rotation (`Cycle`). The search for it starts at its least vertex, stays among the
vertices that are not below that one and can come back to it, and tries every path that meets no vertex twice.

Results:
- `before_closed`: all vertices that can come back to the start are found, given a round for each vertex;
- `mem_closing`: every way on from a path, and back to the start, is found;
- `exists_mem_cycles`: every elementary cycle is listed;
- `Acyclic.notMem_of_edge`: in a graph without elementary cycles no edge leads from a vertex of a path to its first one;
- `transGen_of_mem_cycles`: what is listed is a way back to its first vertex;
- `cycles_eq_nil_iff`: nothing is listed just when no way leads back to where it starts.
-/
import Mathlib.Data.Finset.Max
import Mathlib.Data.List.Cycle
import Mathlib.Data.String.Basic
import ContractGraph.Proofs.Graph.Traversal

namespace ContractGraph

/-- what is left when repetitions are dropped -/
theorem nodup_eraseDups {α : Type} [BEq α] [LawfulBEq α] (l : List α) : l.eraseDups.Nodup := by
  cases l with
  | nil => simp
  | cons a l =>
    rw [List.eraseDups_cons, List.nodup_cons]
    refine ⟨?_, nodup_eraseDups (l.filter fun b => !b == a)⟩
    simp
termination_by l.length
decreasing_by exact Nat.lt_succ_of_le (List.length_filter_le _ _)

/-- where every step leads to a higher rank, no way leads back to where it starts -/
theorem not_transGen_self_of_rank {r : String → String → Prop} (rank : String → Nat)
    (h : ∀ v w, r v w → rank v < rank w) (v : String) : ¬ Relation.TransGen r v v := by
  have hchain : ∀ w, Relation.TransGen r v w → rank v < rank w := by
    intro w hw
    induction hw with
    | single hstep => exact h _ _ hstep
    | tail _ hstep ih => exact ih.trans (h _ _ hstep)
  intro hv
  exact (hchain v hv).false

namespace Digraph

/-- an edge leads from the first vertex to the second -/
def Edge (d : Digraph) (v w : String) : Prop := (v, w) ∈ d.edges

/-- every edge joins vertices of the graph -/
def Closed (d : Digraph) : Prop := ∀ v w, d.Edge v w → v ∈ d.vertices ∧ w ∈ d.vertices

/-- there is no elementary cycle -/
def Acyclic (d : Digraph) : Prop := ∀ c : Cycle String, c.Nodup → c.Chain d.Edge → c = Cycle.nil

theorem mem_successors_iff (d : Digraph) {v w : String} : w ∈ d.successors v ↔ d.Edge v w := by
  simp [successors, Edge]

theorem ofEdges_edge_iff {vertices : List String} {edges : List (String × String)} {v w : String} :
    (ofEdges vertices edges).Edge v w ↔ (v, w) ∈ edges := by
  simp [ofEdges, Edge]

/-! ## The vertices that can come back -/

theorem subset_before (edges : List (String × String)) (fuel : Nat) (found : List String) :
    found ⊆ before edges fuel found := by
  induction fuel generalizing found with
  | zero => exact List.Subset.refl found
  | succ fuel ih =>
    rw [before]
    split
    · exact List.Subset.refl found
    · exact List.Subset.trans (List.subset_append_left _ _) (ih _)

/-- each round finds a new vertex or is the last; with as many rounds as there are vertices to find, all are found -/
theorem before_closed (vertices : List String) {edges : List (String × String)} (hv : ∀ e ∈ edges, e.1 ∈ vertices)
    (fuel : Nat) {found : List String} (hf : (vertices.filter fun v => v ∉ found).length ≤ fuel) {e : String × String}
    (he : e ∈ edges) (h : e.2 ∈ before edges fuel found) : e.1 ∈ before edges fuel found := by
  induction fuel generalizing found with
  | zero =>
    have hnil := List.filter_eq_nil_iff.1 (List.length_eq_zero_iff.1 (Nat.le_zero.1 hf)) e.1 (hv e he)
    rw [before]
    simpa using hnil
  | succ fuel ih =>
    rw [before] at h ⊢
    set more := ((edges.filter fun e => found.contains e.2 && !found.contains e.1).map Prod.fst).eraseDups with hmore
    have hmem : ∀ v, v ∈ more ↔ v ∉ found ∧ ∃ w ∈ found, (v, w) ∈ edges := by
      intro v
      simp [hmore]
      tauto
    by_cases hm : more.isEmpty = true
    · rw [if_pos hm] at h ⊢
      by_contra hn
      have hin : e.1 ∈ more := (hmem e.1).2 ⟨hn, e.2, h, he⟩
      rw [List.isEmpty_iff.1 hm] at hin
      cases hin
    · rw [if_neg hm] at h ⊢
      obtain ⟨v, hvm⟩ := List.exists_mem_of_ne_nil more (by simpa using hm)
      obtain ⟨hvf, w, -, hvw⟩ := (hmem v).1 hvm
      have hlt := Graph.length_filter_notMem_lt id (List.subset_append_left found more) (hv _ hvw) hvf
        (List.mem_append_right _ hvm)
      exact ih (Nat.le_of_lt_succ (hlt.trans_le hf)) h

variable {d : Digraph}

theorem around_edge_iff {start v w : String} :
    (d.around start).Edge v w ↔ d.Edge v w ∧ (start ≤ v ∧ start ≤ w) ∧
      v ∈ (d.around start).vertices ∧ w ∈ (d.around start).vertices := by
  simp only [around, Edge, List.mem_filter, Bool.and_eq_true, decide_eq_true_eq, List.contains_iff_mem, and_assoc]

/-- an edge between vertices that are not below the start, and that leads to one that can come back -/
theorem mem_around_of_edge (hd : d.Closed) {start v w : String} (h : d.Edge v w) (hv : start ≤ v) (hw : start ≤ w)
    (hm : w ∈ (d.around start).vertices) : v ∈ (d.around start).vertices := by
  have hm' : (v, w) ∈ d.edges.filter fun e => decide (start ≤ e.1) && decide (start ≤ e.2) :=
    List.mem_filter.2 ⟨h, by simp [hv, hw]⟩
  refine before_closed d.vertices (fun e he => ?_) _ (List.length_filter_le _ _) hm' hm
  exact (hd e.1 e.2 (List.mem_of_mem_filter he)).1

theorem start_mem_around (d : Digraph) (start : String) : start ∈ (d.around start).vertices :=
  subset_before _ _ _ (List.mem_singleton_self start)

/-! ## Ways back to the start -/

/-- a way on from a path, which meets no vertex twice and leads back to the start, closes a cycle -/
theorem mem_closing {start : String} {rest : List String} {fuel : Nat} (hf : rest.length < fuel) {path : List String}
    {last : String} (hn : rest.Nodup) (hp : ∀ v ∈ rest, v ∉ path) (hs : start ∉ rest)
    (hc : List.IsChain d.Edge (last :: (rest ++ [start]))) : path.reverse ++ rest ∈ d.closing start fuel path last := by
  induction rest generalizing fuel path last with
  | nil =>
    obtain ⟨fuel, rfl⟩ : ∃ n, fuel = n + 1 := Nat.exists_eq_add_one.2 (Nat.zero_lt_of_lt hf)
    rw [closing, List.mem_flatMap]
    exact ⟨start, d.mem_successors_iff.2 (by simpa using hc), by simp⟩
  | cons v rest ih =>
    obtain ⟨fuel, rfl⟩ : ∃ n, fuel = n + 1 := Nat.exists_eq_add_one.2 (Nat.zero_lt_of_lt hf)
    rw [List.cons_append, List.isChain_cons_cons] at hc
    rw [List.nodup_cons] at hn
    have hvs : v ≠ start := fun e => hs (e ▸ List.mem_cons_self)
    have hvp : v ∉ path := hp v List.mem_cons_self
    have hrest : ∀ x ∈ rest, x ∉ v :: path := by
      intro x hx hm
      rcases List.mem_cons.1 hm with rfl | hm
      · exact hn.1 hx
      · exact hp x (List.mem_cons_of_mem _ hx) hm
    have hfound := ih (Nat.lt_of_succ_lt_succ hf) hn.2 hrest (fun hm => hs (List.mem_cons_of_mem _ hm)) hc.2
    rw [closing, List.mem_flatMap]
    refine ⟨v, d.mem_successors_iff.2 hc.1, ?_⟩
    rw [if_neg hvs, if_neg (by simpa using hvp)]
    simpa using hfound

/-- what lies on a way back to its start is a vertex -/
theorem mem_vertices_of_chain (hd : d.Closed) {start : String} {rest : List String}
    (hc : List.IsChain d.Edge (start :: (rest ++ [start]))) : ∀ v ∈ start :: (rest ++ [start]), v ∈ d.vertices := by
  have hs : start ∈ d.vertices := by
    cases rest with
    | nil => exact (hd start start (List.isChain_pair.1 hc)).1
    | cons v rest => exact (hd start v (List.isChain_cons_cons.1 hc).1).1
  refine hc.backwards_induction _ _ (fun v w h _ => (hd v w h).1) ?_
  simpa using hs

/-- a cycle that starts with its least vertex is found from there -/
theorem mem_cyclesFrom (hd : d.Closed) {start : String} {rest : List String} (hn : (start :: rest).Nodup)
    (hle : ∀ v ∈ rest, start ≤ v) (hc : List.IsChain d.Edge (start :: (rest ++ [start]))) :
    start :: rest ∈ d.cyclesFrom start := by
  have hle' : ∀ v ∈ start :: (rest ++ [start]), start ≤ v := by
    intro v hv
    simp only [List.mem_cons, List.mem_append, List.not_mem_nil, or_false] at hv
    rcases hv with rfl | hv | rfl
    · exact le_refl v
    · exact hle v hv
    · exact le_refl v
  have hlow : List.IsChain (fun v w => d.Edge v w ∧ start ≤ v ∧ start ≤ w) (start :: (rest ++ [start])) :=
    hc.imp_of_mem_imp fun v w hv hw h => ⟨h, hle' v hv, hle' w hw⟩
  have hhome : ∀ v ∈ start :: (rest ++ [start]), v ∈ (d.around start).vertices := by
    refine hlow.backwards_induction _ _ (fun v w h hw => mem_around_of_edge hd h.1 h.2.1 h.2.2 hw) ?_
    simpa using start_mem_around d start
  have hc' : List.IsChain (d.around start).Edge (start :: (rest ++ [start])) :=
    hlow.imp_of_mem_imp fun v w hv hw h => around_edge_iff.2 ⟨h.1, h.2, hhome v hv, hhome w hw⟩
  have hsub : start :: rest ⊆ d.vertices := fun v hv => mem_vertices_of_chain hd hc v (List.mem_append_left [start] hv)
  have hlen : (start :: rest).length ≤ d.vertices.length := (List.subperm_of_subset hn hsub).length_le
  rw [List.nodup_cons] at hn
  have hf : rest.length < d.vertices.length + 1 := by
    rw [List.length_cons] at hlen
    omega
  have hp : ∀ v ∈ rest, v ∉ [start] := fun v hv hm => hn.1 (List.mem_singleton.1 hm ▸ hv)
  exact mem_closing hf hn.2 hp hn.1 hc'

/-- every cycle has a least vertex to start with -/
theorem exists_least_first {c : Cycle String} (hne : c ≠ Cycle.nil) :
    ∃ (start : String) (rest : List String), c = (start :: rest : List String) ∧ ∀ v ∈ rest, start ≤ v := by
  induction c using Quotient.inductionOn with
  | h l =>
    have hl : l.toFinset.Nonempty := by
      rw [List.toFinset_nonempty_iff]
      rintro rfl
      exact hne rfl
    obtain ⟨start, hs, hmin⟩ := l.toFinset.exists_min_image id hl
    obtain ⟨before, after, rfl⟩ := List.append_of_mem (List.mem_toFinset.1 hs)
    refine ⟨start, after ++ before, ?_, fun v hv => hmin v ?_⟩
    · have hr : before ++ start :: after ~r start :: after ++ before := List.isRotated_append
      exact Cycle.coe_eq_coe.2 hr
    · simp at hv ⊢
      tauto

/-- **The search is complete.** Every elementary cycle is listed, from its least vertex on. -/
theorem exists_mem_cycles (hd : d.Closed) {c : Cycle String} (hne : c ≠ Cycle.nil) (hn : c.Nodup) (hc : c.Chain d.Edge) :
    ∃ l ∈ d.cycles, (l : Cycle String) = c := by
  obtain ⟨start, rest, rfl, hle⟩ := exists_least_first hne
  rw [Cycle.nodup_coe_iff] at hn
  rw [Cycle.chain_coe_cons] at hc
  have hs : start ∈ d.vertices := mem_vertices_of_chain hd hc start List.mem_cons_self
  exact ⟨start :: rest, List.mem_flatMap.2 ⟨start, hs, mem_cyclesFrom hd hn hle hc⟩, rfl⟩

theorem acyclic_of_cycles_eq_nil (hd : d.Closed) (h : d.cycles = []) : d.Acyclic := by
  intro c hn hc
  by_contra hne
  obtain ⟨l, hl, -⟩ := exists_mem_cycles hd hne hn hc
  rw [h] at hl
  cases hl

/-- an edge from a vertex of a path to its first one would close an elementary cycle -/
theorem Acyclic.notMem_of_edge (ha : d.Acyclic) {v w : String} {path : List String} (hn : (w :: path).Nodup)
    (hc : List.IsChain d.Edge (w :: path)) (he : d.Edge v w) : v ∉ w :: path := by
  intro hm
  obtain ⟨before, after, hp⟩ := List.append_of_mem hm
  have hall : List.IsChain d.Edge (v :: w :: path) := List.isChain_cons_cons.2 ⟨he, hc⟩
  rw [hp] at hall hn
  have hback : List.IsChain d.Edge (v :: (before ++ [v])) := hall.prefix ⟨after, by simp⟩
  have hnodup : (v :: before).Nodup := (List.perm_append_singleton v before).nodup_iff.1 (hn.sublist (by simp))
  have hnil := ha (v :: before : List String) (Cycle.nodup_coe_iff.2 hnodup) ((Cycle.chain_coe_cons ..).2 hback)
  cases (Cycle.coe_eq_nil _).1 hnil

/-! ## Ways of any kind -/

/-- in a graph without elementary cycles every way is a path: it meets no vertex twice -/
theorem Acyclic.exists_path (ha : d.Acyclic) {v w : String} (h : Relation.TransGen d.Edge v w) :
    ∃ path, w ∈ path ∧ (v :: path).Nodup ∧ List.IsChain d.Edge (v :: path) := by
  induction h using Relation.TransGen.head_induction_on with
  | @single v he =>
    have hv : v ∉ [w] := ha.notMem_of_edge (List.nodup_singleton w) (List.isChain_singleton w) he
    exact ⟨[w], List.mem_singleton_self w, List.nodup_cons.2 ⟨hv, List.nodup_singleton w⟩, List.isChain_pair.2 he⟩
  | @head v u he _ ih =>
    obtain ⟨path, hw, hn, hc⟩ := ih
    exact ⟨u :: path, List.mem_cons_of_mem u hw, List.nodup_cons.2 ⟨ha.notMem_of_edge hn hc he, hn⟩,
      List.isChain_cons_cons.2 ⟨he, hc⟩⟩

/-- without elementary cycles no way leads back to where it starts -/
theorem Acyclic.not_transGen_self (ha : d.Acyclic) (v : String) : ¬ Relation.TransGen d.Edge v v := by
  intro h
  obtain ⟨path, hv, hn, -⟩ := ha.exists_path h
  exact (List.nodup_cons.1 hn).1 hv

/-- what closes a path from the start leads back to the start -/
theorem transGen_of_mem_closing {start : String} {fuel : Nat} {path l : List String} {last : String}
    (h : Relation.ReflTransGen d.Edge start last) (hl : l ∈ d.closing start fuel path last) :
    Relation.TransGen d.Edge start start := by
  induction fuel generalizing path last with
  | zero => cases hl
  | succ fuel ih =>
    rw [closing, List.mem_flatMap] at hl
    obtain ⟨v, hv, hl⟩ := hl
    have he : d.Edge last v := d.mem_successors_iff.1 hv
    split at hl
    · next hvs =>
      subst hvs
      exact Relation.TransGen.tail' h he
    · split at hl
      · cases hl
      · exact ih (h.tail he) hl

theorem transGen_of_mem_cycles {l : List String} (h : l ∈ d.cycles) : ∃ v, Relation.TransGen d.Edge v v := by
  obtain ⟨start, -, hl⟩ := List.mem_flatMap.1 h
  have haround : Relation.TransGen (d.around start).Edge start start :=
    transGen_of_mem_closing Relation.ReflTransGen.refl hl
  exact ⟨start, Relation.TransGen.mono (fun _ _ he => (around_edge_iff.1 he).1) start start haround⟩

/-- **Nothing is listed just when no way leads back to where it starts.** -/
theorem cycles_eq_nil_iff (hd : d.Closed) : d.cycles = [] ↔ ∀ v, ¬ Relation.TransGen d.Edge v v := by
  constructor
  · intro h
    exact (acyclic_of_cycles_eq_nil hd h).not_transGen_self
  · intro h
    refine List.eq_nil_iff_forall_not_mem.2 fun l hl => ?_
    obtain ⟨v, hv⟩ := transGen_of_mem_cycles hl
    exact h v hv

end Digraph

end ContractGraph
