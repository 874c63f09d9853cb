/-
A valid graph of nodes with their layouts is emitted without any notice.

An expression is unfolded along edges of the value flow: an operand has no socket for execution, so what feeds it leaves
another kind of socket. The path of an unfolding is thus a path of the value flow, and a node that came twice on it would
close an elementary cycle.

Results:
- `edge_of_feeder?`: an operand is fed along the value flow;
- `unfoldWithin_notices`: nothing is noticed while an operand is unfolded;
- `notices_eq_nil_of_valid`: nothing is noticed at all.
-/
import ContractGraph.Proofs.Analysis.Valid
import ContractGraph.Source.Emission

namespace ContractGraph

namespace Graph

variable {g : Graph}

/-- an operand is fed along the value flow -/
theorem edge_of_feeder? (hl : g.HasLayouts) (hw : g.Wired) {id port : String} {n s : Node} (hn : g.node? id = some n)
    (hp : port ∈ n.kind.operands) (hs : g.feeder? id port = some s) : g.valueFlow.Edge s.id id := by
  obtain ⟨c, hc, hcs⟩ := Option.bind_eq_some_iff.1 hs
  obtain ⟨hcw, rfl, rfl⟩ := of_wireInto? hc
  obtain ⟨o, i, ho, hi, hj⟩ := hw.joins c hcw
  obtain ⟨t, ht, hti⟩ := g.inputPort?_eq_some_iff.1 hi
  obtain rfl : t = n := Option.some.inj (ht.symm.trans hn)
  have hexec := (hl _ t ht).operand_input hti hp
  have hof : o.flavor ≠ .execution := by
    intro he
    rw [he, hexec] at hj
    cases hj
  refine valueFlow_edge_iff.2 ⟨c, hcw, ?_, (g.node?_eq_some_iff.1 hcs).2.symm, rfl⟩
  simp [carriesValue, g.hasNode_iff.2 ⟨t, ht⟩, ho, hof]

section Valid

variable (hl : g.HasLayouts) (hw : g.Wired) (ho : g.operatorFindings = []) (ha : g.valueFlow.Acyclic)

include hl hw ho ha

/-- the invariant: the path so far is a path of the value flow without repetition, and the operand is its first node's -/
theorem unfoldWithin_notices (depth : Nat) {id port : String} {path : List String} {n : Node}
    (hn : g.node? id = some n) (hp : port ∈ n.kind.operands) (hnd : (id :: path).Nodup)
    (hc : List.IsChain g.valueFlow.Edge (id :: path)) :
    (g.unfoldWithin depth (id :: path) id port).notices = [] := by
  induction depth generalizing id port path n with
  | zero => rfl
  | succ depth ih =>
    cases hs : g.feeder? id port with
    | none => simp [unfoldWithin, hs]
    | some s =>
      have he := edge_of_feeder? hl hw hn hp hs
      have hnew : s.id ∉ id :: path := ha.notMem_of_edge hnd hc he
      by_cases hk : s.kind.isOperator = true
      · have hsn := node?_of_feeder? hs
        obtain ⟨op, hop⟩ := operatorFindings_eq_nil_iff.1 ho s (g.node?_eq_some_iff.1 hsn).1 hk
        have operand : ∀ q ∈ ["left", "right"],
            (g.unfoldWithin depth (s.id :: id :: path) s.id q).notices = [] := fun q hq =>
          ih hsn (Kind.operands_of_isOperator hk ▸ hq) (List.nodup_cons.2 ⟨hnew, hnd⟩) (List.isChain_cons_cons.2 ⟨he, hc⟩)
        simp only [unfoldWithin, hs, if_neg hnew, hk, if_true, hop]
        rw [operand "left" (by decide), operand "right" (by decide), List.append_nil]
      · simp only [unfoldWithin, hs, if_neg hnew, hk, Bool.false_eq_true, if_false]
        split_ifs <;> rfl

omit hl hw ho ha in
/-- a flow notices nothing when the operands of its statements notice nothing -/
theorem flowWithin_notices
    (operand : ∀ n port, g.node? n.id = some n → port ∈ n.kind.operands → (g.unfold n.id port).notices = [])
    (depth : Nat) (start : Option String) (visited : List String) : (g.flowWithin depth start visited).notices = [] := by
  refine flowWithin_of_forms g depth (P := fun _ flow => flow.notices = []) (fun _ => rfl) (fun _ _ => rfl) ?_ ?_ start
    visited
  · intro _ n rest hn hk hr
    rw [operand n "value" hn (by rw [hk]; decide), hr, List.append_nil]
  · intro _ n yes no rest hn hk hy hf hr
    rw [operand n "condition" hn (by rw [hk]; decide), hy, hf, hr]
    rfl

theorem body_notices (n : Node) : (Source.body g n).notices = [] := by
  rw [Source.body_eq]
  refine flowWithin_notices (fun n port hn hp => ?_) _ _ _
  exact unfoldWithin_notices hl hw ho ha _ hn hp (List.nodup_singleton n.id) (List.isChain_singleton n.id)

end Valid

end Graph

namespace Source

/-- one constructor is no reason for a notice -/
theorem constructorNotices_eq_nil {g : Graph} (hc : (g.nodesOfKind .constructorFn).length ≤ 1)
    (hb : ∀ n, (body g n).notices = []) : constructorNotices g = [] := by
  unfold constructorNotices
  cases hk : g.nodesOfKind .constructorFn with
  | nil => rfl
  | cons n rest =>
    rw [hk, List.length_cons] at hc
    obtain rfl : rest = [] := List.length_eq_zero_iff.1 (by omega)
    exact hb n

/-- **A valid graph is emitted without any notice.** Whatever its fields say and however its connections came about: when
the checks find nothing, no operand of any body comes back to a node on its own path or meets an operator that its node
may not carry, and there is no second constructor. -/
theorem notices_eq_nil_of_valid {g : Graph} (hl : g.HasLayouts) (hv : g.validate = .ok []) : notices g = [] := by
  obtain ⟨-, -, hcount, hconn, hop, -, hcycles⟩ := Graph.findings_eq_nil_iff.1 (Graph.validate_eq_ok_iff.1 hv).2
  have hb : ∀ n, (body g n).notices = [] := fun n =>
    Graph.body_notices hl (Graph.wired_of_connectionFindings hconn) hop (Graph.valueFlow_acyclic hcycles) n
  rw [notices, constructorNotices_eq_nil (Graph.constructorCount_eq_nil_iff.1 hcount) hb, List.nil_append,
    List.flatMap_eq_nil_iff]
  exact fun n _ => hb n

/-- a function whose branch and assignment share an operand -/
def sharing : List Edit :=
  Edit.drawing
    [("public-function", "f", [("name", "run")]), ("constructor-function", "c", []), ("if-statement", "check", []),
      ("comparison", "less", [("operator", " < ")]), ("math-operation", "sum", []),
      ("variable-reference", "x", [("variable", "x")]), ("assignment", "a", [("variable", "y")])]
    [⟨"f", "execution", "check", "exec_in"⟩, ⟨"check", "exec_true", "a", "exec_in"⟩,
      ⟨"less", "result", "check", "condition"⟩, ⟨"x", "value", "less", "left"⟩, ⟨"sum", "result", "less", "right"⟩,
      ⟨"x", "value", "sum", "left"⟩, ⟨"x", "value", "sum", "right"⟩, ⟨"sum", "result", "a", "value"⟩]

theorem sharing_notices : (Edit.run ∅ sharing).HasLayouts ∧ (Edit.run ∅ sharing).validate = .ok [] ∧
    notices (Edit.run ∅ sharing) = [] := by
  have hl : (Edit.run ∅ sharing).HasLayouts := drawing_hasLayouts _ _
  have hv : (Edit.run ∅ sharing).validate = .ok [] := by decide +kernel
  exact ⟨hl, hv, notices_eq_nil_of_valid hl hv⟩

end Source

end ContractGraph
