/-
What the checks of a graph assure when they find nothing.

Results:
- `findings_eq_nil_iff`: nothing is found just when each check finds nothing;
- `connectionFindings_eq_nil_iff`: then the connections join sockets that exist and fit, in their types too, and feed
  each input once;
- `operatorFindings_eq_nil_iff`, `constructorCount_eq_nil_iff`: then every operator node may carry its operator, and
  there is one constructor at most;
- `valueFlow_acyclic`: then the value flow has no elementary cycle.
-/
import ContractGraph.Proofs.Analysis.Cycle
import ContractGraph.Proofs.Graph.Wiring

namespace ContractGraph.Graph

variable {g : Graph}

/-- nothing is found just when each of the seven checks finds nothing -/
theorem findings_eq_nil_iff :
    g.findings = [] ↔ g.duplicateNames = [] ∧ g.missingNames = [] ∧ g.constructorCount = [] ∧
      g.connectionFindings = [] ∧ g.operatorFindings = [] ∧ g.parameterFindings = [] ∧ g.valueCycles = [] := by
  simp [findings, checks, List.flatMap_cons]

/-! ## Connections -/

/-- a connection that is not dangling, and of which nothing is told, joins its sockets -/
theorem joins_of_wireFinding? {c : Connection} (hd : g.isDangling c = false) (hf : g.wireFinding? c = none) :
    g.Joins c := by
  obtain ⟨o, i, ho, hi⟩ := g.isDangling_eq_false_iff.1 hd
  refine ⟨o, i, ho, hi, ?_⟩
  by_contra hj
  simp [wireFinding?, ho, hi, Bool.eq_false_iff.2 hj] at hf

theorem wired_of_connectionFindings (h : g.connectionFindings = []) : g.Wired := by
  simp only [connectionFindings, List.append_eq_nil_iff, List.map_eq_nil_iff, List.filterMap_eq_nil_iff] at h
  obtain ⟨⟨hd, hf⟩, hc⟩ := h
  refine ⟨fun c hcw => ?_, fun node port => ?_⟩
  · have hdc : g.isDangling c = false := by simpa using List.filter_eq_nil_iff.1 hd c hcw
    exact joins_of_wireFinding? hdc (hf c hcw)
  · by_contra hlt
    have hpos : 0 < (g.wiresInto node port).length := by omega
    obtain ⟨c, hcm⟩ := List.exists_mem_of_length_pos hpos
    obtain ⟨hcw, hci⟩ := List.mem_filter.1 hcm
    obtain ⟨rfl, rfl⟩ := c.into_iff.1 hci
    have hfed : (c.target, c.input) ∈ g.fedInputs := by
      rw [fedInputs, List.mem_eraseDups]
      exact List.mem_map.2 ⟨c, hcw, rfl⟩
    have hnone := hc _ hfed
    simp [Nat.not_le.1 hlt] at hnone

theorem connectionFindings_eq_nil_iff :
    g.connectionFindings = [] ↔ g.Wired ∧ ∀ c ∈ g.wires, g.typeClash? c = none := by
  constructor
  · intro h
    have hw := wired_of_connectionFindings h
    rw [hw.connectionFindings_eq, List.filterMap_eq_nil_iff] at h
    exact ⟨hw, h⟩
  · rintro ⟨hw, ht⟩
    rw [hw.connectionFindings_eq, List.filterMap_eq_nil_iff]
    exact ht

/-! ## Operators and constructors -/

theorem operatorFindings_eq_nil_iff :
    g.operatorFindings = [] ↔ ∀ n ∈ g.nodes, n.kind.isOperator = true →
      ∃ op, Operator.ofText? (n.control "operator" "") n.kind = some op := by
  simp only [operatorFindings, List.map_eq_nil_iff, List.filter_eq_nil_iff, Bool.and_eq_true, Option.isNone_iff_eq_none,
    not_and, ← Option.ne_none_iff_exists', ne_eq]

theorem constructorCount_eq_nil_iff : g.constructorCount = [] ↔ (g.nodesOfKind .constructorFn).length ≤ 1 := by
  simp [constructorCount]

/-! ## Value flow -/

theorem valueFlow_edge_iff {v w : String} :
    g.valueFlow.Edge v w ↔ ∃ c ∈ g.wires, g.carriesValue c = true ∧ c.source = v ∧ c.target = w := by
  simp [valueFlow, Digraph.ofEdges_edge_iff, and_assoc]

theorem valueFlow_closed (g : Graph) : g.valueFlow.Closed := by
  intro v w h
  obtain ⟨c, -, hc, rfl, rfl⟩ := valueFlow_edge_iff.1 h
  simp only [carriesValue, Bool.and_eq_true, hasNode_iff] at hc
  obtain ⟨⟨t, ht⟩, ho⟩ := hc
  obtain ⟨o, ho, -⟩ := (Option.any_eq_true _ _).1 ho
  obtain ⟨s, hs, -⟩ := g.outputPort?_eq_some_iff.1 ho
  obtain ⟨hsm, hsid⟩ := g.node?_eq_some_iff.1 hs
  obtain ⟨htm, htid⟩ := g.node?_eq_some_iff.1 ht
  exact ⟨hsid ▸ List.mem_map_of_mem hsm, htid ▸ List.mem_map_of_mem htm⟩

theorem valueFlow_acyclic (h : g.valueCycles = []) : g.valueFlow.Acyclic := by
  refine Digraph.acyclic_of_cycles_eq_nil (valueFlow_closed g) ?_
  have hlen := congrArg List.length h
  rwa [valueCycles, List.length_mergeSort, List.length_map, List.length_nil, List.length_eq_zero_iff] at hlen

end ContractGraph.Graph
