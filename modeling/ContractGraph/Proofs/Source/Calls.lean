/-
The calls that are nested in one another while an input is unfolded.

To unfold an input is to unfold the operands of the operator that feeds it, unless that operator is on the path already.
It is then put on the path. So along a chain of nested calls no node comes twice, and no chain is longer than there are
nodes. A chain that is cut off because the depth is used up would have to be as long as the depth; at a depth of as many
nodes as there are, none is.

Results:
- `unfolded_succ`: a call needs its nested calls, and nothing else that is deeper;
- `path_of_chain`: the nodes along a chain are the path, each of them once;
- `length_of_chain`: so a chain has no more calls than there are nodes;
- `resolve?_eq_some`: where no chain is as long as the depth, the depth is never used up;
- `resolve?_start`: so the number of nodes is enough, and more changes nothing.
-/
import Mathlib.Data.List.Chain
import Mathlib.Data.List.Perm.Subperm
import ContractGraph.Proofs.Graph.Traversal

namespace ContractGraph

/-- where every part gives something, a list gives all of it -/
theorem mapM_eq_some_map {α β : Type} {f : α → Option β} {r : α → β} {xs : List α} (h : ∀ x ∈ xs, f x = some (r x)) :
    xs.mapM f = some (xs.map r) := by
  induction xs with
  | nil => rfl
  | cons x xs ih =>
    obtain ⟨hx, hxs⟩ := List.forall_mem_cons.1 h
    rw [List.mapM_cons, hx, ih hxs]
    rfl

/-- a call to unfold an input: the path that led to it, and the input -/
structure Call where
  path : List String
  node : String
  port : String
deriving DecidableEq, Repr

namespace Call

/-- the call for an input from outside -/
def start (node port : String) : Call := ⟨[node], node, port⟩

/-- the calls that a call makes: one for each operand of an operator that is not on the path -/
def nested (g : Graph) (c : Call) : List Call :=
  match g.feeder? c.node c.port with
  | none => []
  | some s =>
    if s.id ∈ c.path ∨ Operator.ofText? (s.control "operator" "") s.kind = none then []
    else ["left", "right"].map (⟨s.id :: c.path, s.id, ·⟩)

/-- what a call gives, from what the calls that it makes give -/
def gather (g : Graph) (c : Call) (operands : List Unfolded) : Unfolded :=
  match g.feeder? c.node c.port with
  | none => ⟨.absent, []⟩
  | some s =>
    if s.id ∈ c.path then ⟨.absent, [.valueCycle s.id c.node c.port]⟩
    else match Operator.ofText? (s.control "operator" "") s.kind, operands with
      | some op, [left, right] => ⟨.binary op left.expr right.expr, left.notices ++ right.notices⟩
      | _, _ =>
        if s.kind.isOperator then ⟨.absent, [.unsupportedOperator s.id (s.control "operator" "")]⟩ else ⟨s.leafExpr, []⟩

/-- what a call gives at a depth -/
def unfolded (g : Graph) (depth : Nat) (c : Call) : Unfolded := g.unfoldWithin depth c.path c.node c.port

/-- what a call gives; nothing, when the depth is used up before all calls have ended -/
def resolve? (g : Graph) : Nat → Call → Option Unfolded
  | 0, _ => none
  | depth + 1, c => ((c.nested g).mapM (resolve? g depth)).map (c.gather g)

/-- calls each of which is made by the one before it -/
def Nest (g : Graph) (calls : List Call) : Prop := calls.IsChain fun c d => d ∈ c.nested g

variable {g : Graph}

/-- what is nested is a call for an operator that feeds the input, and is not on the path -/
theorem of_mem_nested {c d : Call} (h : d ∈ c.nested g) :
    ∃ s, g.node? s.id = some s ∧ s.id ∉ c.path ∧ d.node = s.id ∧ d.path = s.id :: c.path := by
  unfold nested at h
  split at h
  · cases h
  · next s hs =>
    split at h
    · cases h
    · next hn =>
      obtain ⟨port, -, rfl⟩ := List.mem_map.1 h
      exact ⟨s, Graph.node?_of_feeder? hs, (not_or.1 hn).1, rfl, rfl⟩

/-- a call needs the calls that it makes, at a depth that is less by one -/
theorem unfolded_succ (depth : Nat) (c : Call) :
    c.unfolded g (depth + 1) = c.gather g ((c.nested g).map (unfolded g depth)) := by
  rw [unfolded, Graph.unfoldWithin, gather, nested]
  cases hs : g.feeder? c.node c.port with
  | none => rfl
  | some s =>
    by_cases hp : s.id ∈ c.path
    · simp only [hp, if_true]
    cases ho : Operator.ofText? (s.control "operator" "") s.kind with
    | some op =>
      have hk : s.kind.isOperator = true := (Operator.ofText?_eq_some_iff.1 ho).2 ▸ op.isOperator_kind
      simp [hp, hk, ho, unfolded]
    | none =>
      simp only [hp, ho, if_false, Node.leafExpr]
      by_cases hk : s.kind.isOperator = true
      · simp only [hk, if_true]
      by_cases hv : s.kind = .variableRef
      · simp [hv, Kind.isOperator]
      by_cases hl : s.kind = .literalValue
      · by_cases ht : Text.strip (s.control "type" "") = "string" <;> simp [hl, ht, Kind.isOperator]
      · simp [hk, hv, hl]

/-! ## Chains of nested calls -/

theorem Nest.tail {c d : Call} {calls : List Call} (h : Nest g (c :: d :: calls)) : Nest g (d :: calls) :=
  (List.isChain_cons_cons.1 h).2

/-- **The path of a chain.** Calls that are nested in one another put their nodes on the path, each of them a node of the
graph that is not on it yet. -/
theorem path_of_chain {c : Call} {calls : List Call} (h : Nest g (c :: calls)) (hpath : c.path.Nodup)
    (hnodes : c.path ⊆ g.nodes.map Node.id) :
    ((calls.map node).reverse ++ c.path).Nodup ∧ (calls.map node).reverse ++ c.path ⊆ g.nodes.map Node.id := by
  induction calls generalizing c with
  | nil => exact ⟨hpath, hnodes⟩
  | cons d calls ih =>
    obtain ⟨s, hs, hnew, hd, hdpath⟩ := of_mem_nested (List.isChain_cons_cons.1 h).1
    have hmem : s.id ∈ g.nodes.map Node.id := List.mem_map_of_mem (g.node?_eq_some_iff.1 hs).1
    have hrest := ih h.tail (by rw [hdpath]; exact List.nodup_cons.2 ⟨hnew, hpath⟩)
      (by rw [hdpath]; exact List.cons_subset.2 ⟨hmem, hnodes⟩)
    rw [hdpath, ← hd] at hrest
    simpa using hrest

/-- the nodes along a chain from outside are different nodes of the graph -/
theorem nodes_of_chain {n : Node} (hn : n ∈ g.nodes) {port : String} {calls : List Call}
    (h : Nest g (start n.id port :: calls)) :
    ((start n.id port :: calls).map node).Nodup ∧ (start n.id port :: calls).map node ⊆ g.nodes.map Node.id := by
  have hpath := path_of_chain h (List.nodup_singleton n.id) (List.cons_subset.2 ⟨List.mem_map_of_mem hn, List.nil_subset _⟩)
  have hnodes : (calls.map node).reverse ++ (start n.id port).path = ((start n.id port :: calls).map node).reverse := by
    simp [start]
  rw [hnodes] at hpath
  exact ⟨List.nodup_reverse.1 hpath.1, fun id hid => hpath.2 (List.mem_reverse.2 hid)⟩

theorem length_of_chain {n : Node} (hn : n ∈ g.nodes) {port : String} {calls : List Call}
    (h : Nest g (start n.id port :: calls)) : calls.length < g.nodes.length := by
  obtain ⟨hnodup, hsub⟩ := nodes_of_chain hn h
  have hle := (hnodup.subperm hsub).length_le
  simpa using hle

/-! ## The depth that is enough -/

/-- where no chain is as long as a depth, that depth is not used up, nor is a greater one -/
theorem resolve?_eq_some {depth fuel : Nat} {c : Call} (h : ∀ calls, Nest g (c :: calls) → calls.length < depth)
    (hf : depth ≤ fuel) : c.resolve? g fuel = some (c.unfolded g depth) := by
  induction depth generalizing c fuel with
  | zero => exact absurd (h [] (List.isChain_singleton c)) (Nat.not_lt_zero _)
  | succ depth ih =>
    obtain ⟨fuel, rfl⟩ := Nat.exists_eq_add_one_of_ne_zero (Nat.ne_zero_of_lt hf)
    have hnested : ∀ d ∈ c.nested g, d.resolve? g fuel = some (d.unfolded g depth) := by
      intro d hd
      refine ih (fun calls hcalls => ?_) (Nat.le_of_succ_le_succ hf)
      exact Nat.lt_of_succ_lt_succ (h (d :: calls) (List.isChain_cons_cons.2 ⟨hd, hcalls⟩))
    rw [resolve?, mapM_eq_some_map hnested, Option.map_some, ← unfolded_succ]

/-- as many nodes as there are, so deep a call may go; and whatever is more changes nothing -/
theorem resolve?_start {n : Node} (hn : n ∈ g.nodes) (port : String) {depth : Nat} (hd : g.nodes.length ≤ depth) :
    (start n.id port).resolve? g depth = some (g.unfold n.id port) ∧
      g.unfoldWithin depth [n.id] n.id port = g.unfold n.id port := by
  have hchain : ∀ {depth}, g.nodes.length ≤ depth → ∀ calls, Nest g (start n.id port :: calls) → calls.length < depth :=
    fun hd calls h => (length_of_chain hn h).trans_le hd
  have hresolve : (start n.id port).resolve? g (depth + 1) = some (g.unfold n.id port) :=
    resolve?_eq_some (hchain (Nat.le_succ _)) (Nat.succ_le_succ hd)
  have heq : (start n.id port).unfolded g depth = g.unfold n.id port :=
    Option.some.inj ((resolve?_eq_some (hchain hd) (Nat.le_succ depth)).symm.trans hresolve)
  exact ⟨heq ▸ resolve?_eq_some (hchain hd) (Nat.le_refl depth), heq⟩

end Call

end ContractGraph
