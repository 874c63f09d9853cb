/-
How deep calls stand in one another while a source is written.

Each operand of a statement is resolved by calls in one another: two for each operator on the longest way through its
expression, and one for each branch that the statement stands in. Only the calls of the program's own functions are
counted. A source is written when all its operands stay within `callLimit` calls, and not at all when one of them does
not; a cycle does not matter, since no operand is unfolded through a node twice.

Results:
- `walkWithin_flowWithin`: a walk visits the nodes of the flow, and meets the operands that the flow resolves;
- `operandCalls_le`: an operand of a graph of `n` nodes needs at most `3 * n + 11` calls;
- `write_of_isWithinBounds`, `write_of_not_isWithinBounds`: when a source is written, and when it is not;
- `isWithinBounds_of_length_le`: it always is for up to 323 nodes;
- `notices_write_prefix`: a source that is not written is noticed as far as it came;
- `not_isWithinBounds_chain`: a chain of operators has no source when it is long.
-/
import Mathlib.Tactic
import ContractGraph.Source.Emission

namespace ContractGraph

/-! ## Walks and flows -/

namespace Graph

variable {g : Graph} {visited : List String}

/-- a walk visits the nodes that the flow visits, and what is noticed in the flow is noticed at its operands -/
theorem walkWithin_flowWithin (depth level : Nat) (start : Option String) (visited : List String) :
    (g.walkWithin depth level start visited).visited = (g.flowWithin depth start visited).visited ∧
      ((g.walkWithin depth level start visited).operands.flatMap fun a => a.value.notices) =
        (g.flowWithin depth start visited).notices := by
  fun_induction g.walkWithin depth level start visited with
  | case1 => exact ⟨rfl, rfl⟩
  | case2 => exact ⟨rfl, rfl⟩
  | case3 depth level id visited hm =>
    rw [flowWithin_of_mem _ _ hm]
    exact ⟨rfl, rfl⟩
  | case4 depth level id visited hm hn =>
    rw [flowWithin_stop _ _ hm (by simp [hn])]
    exact ⟨rfl, rfl⟩
  | case5 depth level id visited hm n hn hk yes no rest ihyes ihno ihrest =>
    have hyes : yes.visited = _ := ihyes.1
    have hno : no.visited = _ := ihno.1
    rw [flowWithin_ifStatement _ _ hm hn hk]
    dsimp only
    rw [← hyes, ← hno, ← ihyes.2, ← ihno.2, ← ihrest.2, ← ihrest.1]
    simp only [List.flatMap_cons, List.flatMap_append, List.append_assoc, true_and, yes, no, rest]
  | case6 depth level id visited hm n hn hk rest ihrest =>
    rw [flowWithin_assignment _ _ hm hn hk]
    dsimp only
    rw [← ihrest.2, ← ihrest.1]
    simp only [List.flatMap_cons, true_and, rest]
  | case7 depth level id visited hm n hn hk =>
    rw [flowWithin_stop _ _ hm (by simp_all)]
    exact ⟨rfl, rfl⟩

/-- what is noticed in a flow is noticed at the operands of its walk, in their order -/
theorem notices_walkWithin (depth level : Nat) (start : Option String) (visited : List String) :
    ((g.walkWithin depth level start visited).operands.flatMap fun a => a.value.notices) =
      (g.flowWithin depth start visited).notices :=
  (walkWithin_flowWithin depth level start visited).2

/-! ## How many calls there are at most -/

theorem calls_ofText (s : String) : (Expr.ofText s).calls = 4 := by
  unfold Expr.ofText
  dsimp only
  split <;> rfl

/-- a node without operands is written at once -/
theorem calls_leafExpr (n : Node) : n.leafExpr.calls = 4 := by
  unfold Node.leafExpr
  split
  · exact calls_ofText _
  · split
    · split
      · rfl
      · exact calls_ofText _
    · rfl

theorem calls_unfoldWithin_le (depth : Nat) (path : List String) (node port : String) :
    (g.unfoldWithin depth path node port).expr.calls ≤ 2 * depth + 4 := by
  induction depth generalizing path node port with
  | zero => exact Nat.le_refl 4
  | succ depth ih =>
    cases hs : g.feeder? node port with
    | none =>
      rw [unfoldWithin_none _ hs]
      simp [Expr.calls]
    | some s =>
      by_cases hm : s.id ∈ path
      · rw [unfoldWithin_of_mem _ hs hm]
        simp [Expr.calls]
      cases ho : Operator.ofText? (s.control "operator" "") s.kind with
      | none =>
        rw [unfoldWithin_leaf _ hs hm ho, calls_leafExpr]
        omega
      | some op =>
        rw [unfoldWithin_operator _ hs hm ho, Expr.calls]
        have hleft := ih (s.id :: path) s.id "left"
        have hright := ih (s.id :: path) s.id "right"
        omega

/-- an operand that a walk meets is an input of the graph, and stands in fewer branches than the walk goes deep -/
theorem of_mem_walkWithin {depth level : Nat} {start : Option String} {a : Operand}
    (h : a ∈ (g.walkWithin depth level start visited).operands) :
    a.level < level + depth ∧ ∃ node port, a.value = g.unfold node port := by
  fun_induction g.walkWithin depth level start visited with
  | case1 | case2 | case3 | case4 | case7 => cases h
  | case5 depth level id visited hm n hn hk yes no rest ihyes ihno ihrest =>
    simp only [List.mem_cons, List.mem_append] at h
    rcases h with rfl | (h | h) | h
    · exact ⟨by dsimp only; omega, id, "condition", rfl⟩
    · exact (ihyes h).imp_left fun hl => by omega
    · exact (ihno h).imp_left fun hl => by omega
    · exact (ihrest h).imp_left fun hl => by omega
  | case6 depth level id visited hm n hn hk rest ihrest =>
    rcases List.mem_cons.1 h with rfl | h
    · exact ⟨by dsimp only; omega, id, "value", rfl⟩
    · exact (ihrest h).imp_left fun hl => by omega

end Graph

namespace Source

variable {g : Graph} {o : EmissionOptions}

theorem operandCalls_le {a : Operand} (h : a ∈ operands g) : operandCalls a ≤ 3 * g.nodes.length + 11 := by
  obtain ⟨n, -, h⟩ := List.mem_flatMap.1 h
  obtain ⟨hlevel, node, port, hvalue⟩ := Graph.of_mem_walkWithin h
  have hcalls : a.value.expr.calls ≤ 2 * (g.nodes.length + 1) + 4 := by
    rw [hvalue]
    exact Graph.calls_unfoldWithin_le _ _ _ _
  unfold operandCalls
  omega

/-! ## When a source is written -/

/-- all operands of a graph's source are resolved within bounds -/
def IsWithinBounds (g : Graph) : Prop := ∀ a ∈ operands g, operandCalls a ≤ callLimit

instance (g : Graph) : Decidable (IsWithinBounds g) := by
  unfold IsWithinBounds
  infer_instance

theorem all_fits_iff : (operands g).all fits = true ↔ IsWithinBounds g := by
  simp [IsWithinBounds, fits]

theorem write_of_isWithinBounds (h : IsWithinBounds g) : write g o = ⟨.ok (emit g o), notices g⟩ := by
  rw [write, if_pos (all_fits_iff.2 h)]

theorem write_of_not_isWithinBounds (h : ¬ IsWithinBounds g) : (write g o).outcome = .error .tooDeep := by
  rw [write, if_neg (mt all_fits_iff.1 h)]

/-- a source of a graph of moderate size is always written -/
theorem isWithinBounds_of_length_le (h : g.nodes.length ≤ 323) : IsWithinBounds g := by
  intro a ha
  have hcalls := operandCalls_le ha
  unfold callLimit
  omega

/-- what is noticed while a source is written is noticed at its operands, after constructors beside others -/
theorem notices_eq (g : Graph) :
    notices g = (constructorsNotice? g).toList ++ (operands g).flatMap fun a => a.value.notices := by
  have hbody (n : Node) : ((bodyOperands g n).flatMap fun a => a.value.notices) = (body g n).notices := by
    rw [bodyOperands, Graph.notices_walkWithin, body_eq]
  have hbodies (ns : List Node) :
      ((ns.flatMap (bodyOperands g)).flatMap fun a => a.value.notices) = ns.flatMap fun n => (body g n).notices := by
    simp only [List.flatMap_assoc, hbody]
  rw [operands, bodies, List.flatMap_append, List.flatMap_append, hbodies, hbodies, ← List.append_assoc, notices]
  congr 1
  unfold constructorNotices constructorsNotice?
  cases g.nodesOfKind .constructorFn with
  | nil => rfl
  | cons n ns => cases ns <;> simp

/-- a source that is not written is noticed as far as it came -/
theorem notices_write_prefix : (write g o).notices <+: notices g := by
  rw [write]
  split
  · exact List.prefix_rfl
  · rw [notices_eq]
    refine (List.prefix_append_right_inj _).2 ?_
    obtain ⟨rest, hrest⟩ := List.takeWhile_prefix fits (l := operands g)
    refine ⟨rest.flatMap fun a => a.value.notices, ?_⟩
    rw [← List.flatMap_append, hrest]

end Source

/-! ## Chains of operators -/

namespace Graph

/-- the ids of a chain's operators, which are told apart by their lengths -/
def rung (k : Nat) : String := .ofList (List.replicate (k + 1) 'x')

theorem rung_inj {j k : Nat} (h : rung j = rung k) : j = k := by
  have hl := congrArg (fun s => s.toList.length) h
  simpa [rung] using hl

theorem rung_ne (s : String) {c : Char} (hc : c ∈ s.toList) (hx : c ≠ 'x') (k : Nat) : rung k ≠ s := by
  rintro rfl
  rw [rung, String.toList_ofList] at hc
  exact hx (List.eq_of_mem_replicate hc)

/-- a sum whose left operand is the next sum of a chain -/
def sum (k : Nat) : Node := ⟨rung k, .mathOp, .ofList [("operator", "+")], ∅, ∅⟩

def link (k : Nat) : Connection := ⟨rung (k + 1), "result", rung k, "left"⟩

/-- a function that assigns a chain of `n + 1` sums -/
def chain (n : Nat) : Graph where
  nodes := ⟨"f", .publicFn, .ofList [("name", "run")], ∅, ∅⟩ :: ⟨"a", .assignment, .ofList [("variable", "t")], ∅, ∅⟩ ::
    (List.range (n + 1)).map sum
  nodup := by
    have hinj : ((List.range (n + 1)).map fun k => (sum k).id).Nodup :=
      (List.nodup_map_iff_inj_on List.nodup_range).2 fun j _ k _ h => rung_inj h
    simpa [Function.comp_def, sum, rung_ne "f" (c := 'f') (by decide) (by decide),
      rung_ne "a" (c := 'a') (by decide) (by decide)] using hinj
  connections := {
    entries := ("flow", ⟨"f", "execution", "a", "exec_in"⟩) :: ("value", ⟨rung 0, "result", "a", "value"⟩) ::
      (List.range n).map fun k => (rung k, link k)
    nodup := by
      have hinj : ((List.range n).map rung).Nodup :=
        (List.nodup_map_iff_inj_on List.nodup_range).2 fun j _ k _ h => rung_inj h
      simpa [Function.comp_def, rung_ne "flow" (c := 'f') (by decide) (by decide),
        rung_ne "value" (c := 'v') (by decide) (by decide)] using hinj }
  metadata := ∅

section Chain

variable {n k : Nat}

theorem mem_wires_chain {c : Connection} :
    c ∈ (chain n).wires ↔ c = ⟨"f", "execution", "a", "exec_in"⟩ ∨ c = ⟨rung 0, "result", "a", "value"⟩ ∨
      ∃ k < n, c = link k := by
  simp [wires, Table.values, chain, eq_comm]

theorem node?_rung (hk : k ≤ n) : (chain n).node? (rung k) = some (sum k) :=
  (node?_eq_some_iff _).2 ⟨List.mem_cons_of_mem _ (List.mem_cons_of_mem _
    (List.mem_map_of_mem (List.mem_range.2 (by omega)))), rfl⟩

theorem feeder?_value : (chain n).feeder? "a" "value" = some (sum 0) := by
  have hwire : (chain n).wireInto? "a" "value" = some ⟨rung 0, "result", "a", "value"⟩ := rfl
  rw [feeder?, hwire, Option.bind_some, node?_rung (Nat.zero_le n)]

theorem feeder?_left (hk : k < n) : (chain n).feeder? (rung k) "left" = some (sum (k + 1)) := by
  have hwire : (chain n).wireInto? (rung k) "left" = some (link k) := by
    have hsome : ((chain n).wireInto? (rung k) "left").isSome = true :=
      List.find?_isSome.2 ⟨link k, mem_wires_chain.2 (.inr (.inr ⟨k, hk, rfl⟩)), by simp [Connection.into, link]⟩
    obtain ⟨c, hc⟩ := Option.isSome_iff_exists.1 hsome
    obtain ⟨hm, htarget, hinput⟩ := of_wireInto? hc
    rcases mem_wires_chain.1 hm with rfl | rfl | ⟨j, -, rfl⟩
    · exact absurd hinput (by decide)
    · exact absurd hinput (by decide)
    · rw [hc, rung_inj htarget]
  rw [feeder?, hwire, Option.bind_some]
  exact node?_rung hk

theorem ofText?_sum (k : Nat) : Operator.ofText? ((sum k).control "operator" "") (sum k).kind = some .add := by
  have hcontrol : (sum k).control "operator" "" = "+" := rfl
  rw [hcontrol]
  rfl

/-- each rung of a chain takes two more calls -/
theorem le_calls_unfoldWithin {m depth : Nat} {path : List String} (hn : k + m = n)
    (hpath : ∀ j, k < j → rung j ∉ path) (hd : m < depth) :
    2 * m ≤ ((chain n).unfoldWithin depth path (rung k) "left").expr.calls := by
  induction m generalizing k depth path with
  | zero => omega
  | succ m ih =>
    obtain ⟨depth, rfl⟩ : ∃ d, depth = d + 1 := ⟨depth - 1, by omega⟩
    rw [unfoldWithin_operator depth (feeder?_left (by omega)) (hpath (k + 1) (by omega)) (ofText?_sum (k + 1)),
      Expr.calls]
    have hrest := @ih (k + 1) depth (rung (k + 1) :: path) (by omega)
      (fun j hj hm => (List.mem_cons.1 hm).elim (fun h => absurd (rung_inj h) (by omega)) (hpath j (by omega)))
      (by omega)
    have hid : (sum (k + 1)).id = rung (k + 1) := rfl
    rw [hid]
    omega

theorem le_calls_unfold (n : Nat) : 2 * n ≤ ((chain n).unfold "a" "value").expr.calls := by
  have hlength : (chain n).nodes.length = n + 3 := by simp [chain]
  have hne (j : Nat) : rung j ≠ "a" := rung_ne "a" (c := 'a') (by decide) (by decide) j
  rw [unfold, hlength, unfoldWithin_operator _ feeder?_value (by simpa [sum] using hne 0) (ofText?_sum 0), Expr.calls]
  have hrest := @le_calls_unfoldWithin n 0 n (n + 3) [rung 0, "a"] (by omega)
    (fun j hj => by simpa [hne j] using fun h => absurd (rung_inj h) (by omega)) (by omega)
  have hid : (sum 0).id = rung 0 := rfl
  rw [hid]
  omega

end Chain

end Graph

namespace Source

/-- the first operand of a chain's source is the chain -/
theorem mem_operands_chain (n : Nat) : ⟨0, (Graph.chain n).unfold "a" "value"⟩ ∈ operands (Graph.chain n) := by
  have hf : (⟨"f", .publicFn, .ofList [("name", "run")], ∅, ∅⟩ : Node) ∈ bodies (Graph.chain n) :=
    List.mem_append_right _ (List.mem_filter.2 ⟨List.mem_cons_self, by decide⟩)
  have ha : (Graph.chain n).node? "a" = some ⟨"a", .assignment, .ofList [("variable", "t")], ∅, ∅⟩ := rfl
  refine List.mem_flatMap.2 ⟨_, hf, ?_⟩
  have hstart : start? (Graph.chain n) ⟨"f", .publicFn, .ofList [("name", "run")], ∅, ∅⟩ = some "a" := rfl
  rw [bodyOperands, hstart]
  simp [Graph.walkWithin, ha]

/-- **A long chain of operators has no source** -/
theorem not_isWithinBounds_chain {n : Nat} (hn : 488 ≤ n) : ¬ IsWithinBounds (Graph.chain n) := by
  intro h
  have hcalls := h _ (mem_operands_chain n)
  have hle := Graph.le_calls_unfold n
  unfold operandCalls callLimit at hcalls
  dsimp only at hcalls
  omega

end Source

end ContractGraph
