/-
Where no value flows back into itself, the text of an input is that of the plain recursion.

The plain recursion goes back along the first connection into each input and keeps no path. What guards the recursion that
is run against going round is its path, and a node on the path is met only where values flow in a circle: the invariant is
that the input's node supplies every node of the path.

Results:
- `Spells`: the plain recursion;
- `notMem_of_feeder?`: without circles nothing on the path is met;
- `Spells.eq_text`, `exists_spells`: the plain recursion ends, with the text that is written;
- `text_eq_unguarded`: so no text depends on a path, nor on which of the inputs that share an operand it is for.
-/
import Mathlib.Logic.Relation
import ContractGraph.Proofs.Source.Silent

namespace ContractGraph.Graph

/-- the inputs through which values reach operators and statements -/
def valuePorts : List String := ["left", "right", "condition", "value"]

/-- the first connection into one of a node's value inputs comes from the node `v` -/
def Supplies (g : Graph) (v w : String) : Prop := ∃ port ∈ valuePorts, ∃ s, g.feeder? w port = some s ∧ s.id = v

/-- a field's text without the blanks around it, or the fallback when nothing is left -/
def spelling (fallback field : String) : String := if Text.strip field = "" then fallback else Text.strip field

/-- the text of an operand: what an operator feeds stands in parentheses, unless its text is the fallback -/
def enclosed (g : Graph) (fallback node port text : String) : String :=
  if (g.feeder? node port).any (fun s => s.kind.isOperator) ∧ text ≠ fallback then "(" ++ text ++ ")" else text

/-- the plain recursion, without a path: the text that it gives for an input, if it ends -/
inductive Spells (g : Graph) (fallback : String) : String → String → String → Prop
  | unfed {node port : String} (h : g.feeder? node port = none) : Spells g fallback node port fallback
  | operator {node port left right : String} {s : Node} {op : Operator} (h : g.feeder? node port = some s)
      (ho : Operator.ofText? (s.control "operator" "") s.kind = some op)
      (hl : Spells g fallback s.id "left" left) (hr : Spells g fallback s.id "right" right) :
    Spells g fallback node port
      (g.enclosed fallback s.id "left" left ++ " " ++ op.symbol ++ " " ++ g.enclosed fallback s.id "right" right)
  | noOperator {node port : String} {s : Node} (h : g.feeder? node port = some s) (hk : s.kind.isOperator = true)
      (ho : Operator.ofText? (s.control "operator" "") s.kind = none) : Spells g fallback node port fallback
  | reference {node port : String} {s : Node} (h : g.feeder? node port = some s) (hk : s.kind = .variableRef) :
    Spells g fallback node port (spelling fallback (s.control "variable" ""))
  | string {node port : String} {s : Node} (h : g.feeder? node port = some s) (hk : s.kind = .literalValue)
      (ht : Text.strip (s.control "type" "") = "string") :
    Spells g fallback node port (Text.literal (s.control "value" ""))
  | literal {node port : String} {s : Node} (h : g.feeder? node port = some s) (hk : s.kind = .literalValue)
      (ht : Text.strip (s.control "type" "") ≠ "string") :
    Spells g fallback node port (spelling fallback (s.control "value" ""))
  | other {node port : String} {s : Node} (h : g.feeder? node port = some s) (hk : s.kind.isOperator = false)
      (hv : s.kind ≠ .variableRef) (hl : s.kind ≠ .literalValue) : Spells g fallback node port fallback

variable {g : Graph}

/-- what the recursion gives for an input depends on what feeds it only -/
theorem Spells.of_feeder?_eq {fallback node port node' port' text : String} (h : g.Spells fallback node port text)
    (he : g.feeder? node port = g.feeder? node' port') : g.Spells fallback node' port' text := by
  cases h with
  | unfed h => exact .unfed (he ▸ h)
  | operator h ho hl hr => exact .operator (he ▸ h) ho hl hr
  | noOperator h hk ho => exact .noOperator (he ▸ h) hk ho
  | reference h hk => exact .reference (he ▸ h) hk
  | string h hk ht => exact .string (he ▸ h) hk ht
  | literal h hk ht => exact .literal (he ▸ h) hk ht
  | other h hk hv hl => exact .other (he ▸ h) hk hv hl

/-! ## The texts of leaves and operands -/

theorem text_ofText (fallback field : String) : (Expr.ofText field).text fallback = spelling fallback field := by
  unfold Expr.ofText spelling
  by_cases h : Text.strip field = ""
  · simp only [h, if_true, Expr.text]
  · simp only [h, if_false, Expr.text]

theorem isBinary_ofText (field : String) : (Expr.ofText field).isBinary = false := by
  unfold Expr.ofText
  by_cases h : Text.strip field = ""
  · simp only [h, if_true, Expr.isBinary]
  · simp only [h, if_false, Expr.isBinary]

theorem isBinary_leafExpr (s : Node) : s.leafExpr.isBinary = false := by
  unfold Node.leafExpr
  split_ifs
  · exact isBinary_ofText _
  · rfl
  · exact isBinary_ofText _
  · rfl

theorem leafExpr_of_isOperator {s : Node} (hk : s.kind.isOperator = true) : s.leafExpr = .absent := by
  have hv : s.kind ≠ .variableRef := fun h => by simp [h, Kind.isOperator] at hk
  have hl : s.kind ≠ .literalValue := fun h => by simp [h, Kind.isOperator] at hk
  rw [Node.leafExpr, if_neg hv, if_neg hl]

/-- only what an operator feeds can be a binary operand, and the text of an operator's operand that is not is the
fallback -/
theorem operand_eq_enclosed (fallback : String) (depth : Nat) (path : List String) (node port : String) {e : Expr}
    (he : (g.unfoldWithin (depth + 1) path node port).expr = e) :
    Expr.operand fallback e (e.text fallback) = g.enclosed fallback node port (e.text fallback) := by
  unfold Expr.operand enclosed
  cases h : g.feeder? node port with
  | none =>
    rw [unfoldWithin_none depth h] at he
    simp [← he, Expr.isBinary]
  | some s =>
    by_cases hp : s.id ∈ path
    · rw [unfoldWithin_of_mem depth h hp] at he
      simp [← he, Expr.isBinary, Expr.text]
    cases ho : Operator.ofText? (s.control "operator" "") s.kind with
    | some op =>
      have hk : s.kind.isOperator = true := (Operator.ofText?_eq_some_iff.1 ho).2 ▸ op.isOperator_kind
      rw [unfoldWithin_operator depth h hp ho] at he
      simp [← he, Expr.isBinary, hk]
    | none =>
      rw [unfoldWithin_leaf depth h hp ho] at he
      by_cases hk : s.kind.isOperator = true
      · rw [leafExpr_of_isOperator hk] at he
        simp [← he, Expr.isBinary, Expr.text]
      · simp [← he, isBinary_leafExpr, hk]

/-! ## The recursion and its path -/

section Acyclic

variable (ha : ∀ v, ¬ Relation.TransGen g.Supplies v v) {fallback node port : String} {path : List String}

include ha

/-- where no value flows in a circle, what feeds an input is not on a path that the input's node supplies -/
theorem notMem_of_feeder? (hp : port ∈ valuePorts) (hpath : ∀ p ∈ path, Relation.ReflTransGen g.Supplies node p)
    {s : Node} (h : g.feeder? node port = some s) : s.id ∉ path := by
  intro hs
  have hedge : g.Supplies s.id node := ⟨port, hp, s, h, rfl⟩
  exact ha s.id (Relation.TransGen.head' hedge (hpath s.id hs))

omit ha in
/-- the invariant: what feeds an input supplies the path that it is put on -/
theorem supplies_cons (hp : port ∈ valuePorts) (hpath : ∀ p ∈ path, Relation.ReflTransGen g.Supplies node p)
    {s : Node} (h : g.feeder? node port = some s) :
    ∀ p ∈ s.id :: path, Relation.ReflTransGen g.Supplies s.id p := by
  have hedge : g.Supplies s.id node := ⟨port, hp, s, h, rfl⟩
  intro p hm
  rcases List.mem_cons.1 hm with rfl | hm
  · exact Relation.ReflTransGen.refl
  · exact (hpath p hm).head hedge

/-- what the plain recursion gives is the text that is written, however the input was reached -/
theorem Spells.eq_text {text : String} (h : g.Spells fallback node port text) (hp : port ∈ valuePorts)
    (hpath : ∀ p ∈ path, Relation.ReflTransGen g.Supplies node p) (depth : Nat) (hd : g.unvisited path ≤ depth) :
    text = (g.unfoldWithin (depth + 1) path node port).expr.text fallback := by
  induction h generalizing path depth with
  | unfed h => rw [unfoldWithin_none depth h, Expr.text]
  | @operator node port left right s op h ho _ _ ihl ihr =>
    have hs := notMem_of_feeder? ha hp hpath h
    have hpath' := supplies_cons hp hpath h
    have hlt := g.unvisited_cons_lt (node?_of_feeder? h) hs
    obtain ⟨d, rfl⟩ : ∃ d, depth = d + 1 := ⟨depth - 1, by omega⟩
    rw [unfoldWithin_operator _ h hs ho, Expr.text, operand_eq_enclosed fallback d _ s.id "left" rfl,
      operand_eq_enclosed fallback d _ s.id "right" rfl, ← ihl (by decide) hpath' d (by omega),
      ← ihr (by decide) hpath' d (by omega)]
  | noOperator h hk ho =>
    rw [unfoldWithin_leaf _ h (notMem_of_feeder? ha hp hpath h) ho, leafExpr_of_isOperator hk, Expr.text]
  | reference h hk =>
    have hs := notMem_of_feeder? ha hp hpath h
    simp [unfoldWithin, h, hs, hk, Kind.isOperator, text_ofText]
  | string h hk ht =>
    have hs := notMem_of_feeder? ha hp hpath h
    simp [unfoldWithin, h, hs, hk, ht, Kind.isOperator, Expr.text]
  | literal h hk ht =>
    have hs := notMem_of_feeder? ha hp hpath h
    simp [unfoldWithin, h, hs, hk, ht, Kind.isOperator, text_ofText]
  | other h hk hv hl =>
    have hs := notMem_of_feeder? ha hp hpath h
    simp [unfoldWithin, h, hs, hk, hv, hl, Expr.text]

/-- the plain recursion ends: what it has yet to meet is off the path -/
theorem exists_spells (fallback : String) {node port : String} {path : List String} (hp : port ∈ valuePorts)
    (hpath : ∀ p ∈ path, Relation.ReflTransGen g.Supplies node p) : ∃ text, g.Spells fallback node port text := by
  cases h : g.feeder? node port with
  | none => exact ⟨_, .unfed h⟩
  | some s =>
    by_cases hk : s.kind.isOperator = true
    · cases ho : Operator.ofText? (s.control "operator" "") s.kind with
      | none => exact ⟨_, .noOperator h hk ho⟩
      | some op =>
        have hlt := g.unvisited_cons_lt (node?_of_feeder? h) (notMem_of_feeder? ha hp hpath h)
        have hpath' := supplies_cons hp hpath h
        have operand : ∀ q ∈ ["left", "right"], ∃ text, g.Spells fallback s.id q text := fun q hq =>
          exists_spells fallback (List.mem_append_left ["condition", "value"] hq) hpath'
        obtain ⟨left, hl⟩ := operand "left" (by decide)
        obtain ⟨right, hr⟩ := operand "right" (by decide)
        exact ⟨_, .operator h ho hl hr⟩
    by_cases hv : s.kind = .variableRef
    · exact ⟨_, .reference h hv⟩
    by_cases hl : s.kind = .literalValue
    · by_cases ht : Text.strip (s.control "type" "") = "string"
      · exact ⟨_, .string h hl ht⟩
      · exact ⟨_, .literal h hl ht⟩
    · exact ⟨_, .other h (by simpa using hk) hv hl⟩
termination_by g.unvisited path

/-- the plain recursion gives just the text that is written, on whatever path the input was reached -/
theorem spells_iff (hp : port ∈ valuePorts) (hpath : ∀ p ∈ path, Relation.ReflTransGen g.Supplies node p)
    {depth : Nat} (hd : g.unvisited path ≤ depth) (text : String) :
    g.Spells fallback node port text ↔ text = (g.unfoldWithin (depth + 1) path node port).expr.text fallback := by
  constructor
  · intro h
    exact h.eq_text ha hp hpath depth hd
  · rintro rfl
    obtain ⟨text, h⟩ := exists_spells ha fallback hp hpath
    rwa [← h.eq_text ha hp hpath depth hd]

end Acyclic

/-- **Where no value flows in a circle, the guard against circles does not show.** For every input through which values
come, and every fallback, the plain recursion ends with the text that is written and with no other. The same text is
written for the input on every path that its node supplies, and for every other input that the same node feeds. -/
theorem text_eq_unguarded (g : Graph) (ha : ∀ v, ¬ Relation.TransGen g.Supplies v v) (fallback node port : String)
    (hp : port ∈ valuePorts) :
    (∀ text, g.Spells fallback node port text ↔ text = (g.unfold node port).expr.text fallback) ∧
      ∀ (node' port' : String) (path : List String) (depth : Nat), port' ∈ valuePorts →
        g.feeder? node' port' = g.feeder? node port → (∀ p ∈ path, Relation.ReflTransGen g.Supplies node' p) →
        g.unvisited path ≤ depth →
        (g.unfoldWithin (depth + 1) path node' port').expr.text fallback = (g.unfold node port).expr.text fallback := by
  have hself : ∀ p ∈ [node], Relation.ReflTransGen g.Supplies node p := by
    intro p hm
    rw [List.mem_singleton.1 hm]
  have hwritten : ∀ text, g.Spells fallback node port text ↔ text = (g.unfold node port).expr.text fallback :=
    spells_iff ha hp hself (g.unvisited_le_length [node])
  refine ⟨hwritten, fun node' port' path depth hp' he hpath hd => ?_⟩
  have hspells : g.Spells fallback node' port' ((g.unfoldWithin (depth + 1) path node' port').expr.text fallback) :=
    (spells_iff ha hp' hpath hd _).2 rfl
  exact (hwritten _).1 (hspells.of_feeder?_eq he)

/-- no value flows in a circle where nodes can be ranked so that values flow to a higher rank -/
theorem acyclic_of_rank (rank : String → Nat)
    (h : ∀ c ∈ g.wires, c.input ∈ valuePorts → rank c.source < rank c.target) (v : String) :
    ¬ Relation.TransGen g.Supplies v v := by
  have hstep : ∀ v w, g.Supplies v w → rank v < rank w := by
    rintro v w ⟨port, hp, s, hs, rfl⟩
    obtain ⟨c, hc, hcs⟩ := Option.bind_eq_some_iff.1 hs
    obtain ⟨hcw, rfl, rfl⟩ := of_wireInto? hc
    have hid : s.id = c.source := (g.node?_eq_some_iff.1 hcs).2
    rw [hid]
    exact h c hcw hp
  exact not_transGen_self_of_rank rank hstep v

theorem sharing_unguarded :
    (∀ v, ¬ Relation.TransGen (Edit.run ∅ Source.sharing).Supplies v v) ∧ "value" ∈ valuePorts ∧
      (Edit.run ∅ Source.sharing).Spells "0" "a" "value" "x + x" ∧
      ∀ path depth, (∀ p ∈ path, Relation.ReflTransGen (Edit.run ∅ Source.sharing).Supplies "less" p) →
        (Edit.run ∅ Source.sharing).unvisited path ≤ depth →
        ((Edit.run ∅ Source.sharing).unfoldWithin (depth + 1) path "less" "right").expr.text "0" = "x + x" := by
  have ha : ∀ v, ¬ Relation.TransGen (Edit.run ∅ Source.sharing).Supplies v v :=
    acyclic_of_rank (["x", "sum", "less", "check", "a"].idxOf ·) (by decide)
  have hp : "value" ∈ valuePorts := by decide
  have htext : "x + x" = ((Edit.run ∅ Source.sharing).unfold "a" "value").expr.text "0" := by decide
  obtain ⟨hspells, hshared⟩ := text_eq_unguarded (Edit.run ∅ Source.sharing) ha "0" "a" "value" hp
  refine ⟨ha, hp, (hspells "x + x").2 htext, fun path depth hpath hd => ?_⟩
  rw [htext]
  exact hshared "less" "right" path depth (by decide) (by decide) hpath hd

end ContractGraph.Graph
