/-
Well-formed graphs, and that validation tells them from all others.

`WellFormed` says what is asked of a graph, without mention of a check: names, the constructor, connections, operators,
parameter lists, and that no value flows back to where it comes from. A graph whose types can be used (`Readable`) is
validated: nothing is told of it just when it is well formed, and otherwise each check tells all that it finds. A type
that cannot be used ends the validation, whatever else there is to tell.

Results:
- `count_duplicateName`: of the nodes that bear a name, each but one is told;
- `duplicateNames_eq_nil_iff`, `missingNames_eq_nil_iff`, `parameterFindings_eq_nil_iff`, `valueCycles_eq_nil_iff`: when
  these checks find nothing;
- `wellFormed_iff_findings`: the seven checks together;
- `typeFault?_eq_none_iff`: when all types can be used;
- `validate_eq_nil_iff`, `validate_decides`: validation as a whole;
- `long_type_stops`: a well-formed graph that is not validated.
-/
import ContractGraph.Proofs.Analysis.Valid

namespace ContractGraph

namespace Graph

/-! ## What is asked of a graph -/

/-- a value of the first node feeds the second one -/
def Feeds (g : Graph) (v w : String) : Prop :=
  ∃ c ∈ g.wires, ∃ o, g.outputPort? c = some o ∧ o.flavor ≠ .execution ∧ c.source = v ∧ c.target = w

/-- may a node of this kind have parameters? -/
def takesParameters (k : Kind) : Bool := k.isFunction || k == .event

/-- sockets fit in what flows through them, and in their types if both state one -/
def Fit (o i : Port) : Prop :=
  o.flavor.joins i.flavor = true ∧
    ∀ s ∈ o.type, ∀ t ∈ i.type, s ≠ "" → t ≠ "" → (SolType.ofString s).fits (SolType.ofString t) = true

/-- what is asked of a graph -/
structure WellFormed (g : Graph) : Prop where
  /-- no two nodes have one name -/
  distinct : ∀ m ∈ g.nodes, ∀ n ∈ g.nodes, nameOf m ≠ "" → nameOf m = nameOf n → m = n
  named : ∀ n ∈ g.nodes, needsName n.kind = true → nameOf n ≠ ""
  constructor_le_one : (g.nodesOfKind .constructorFn).length ≤ 1
  joined : ∀ c ∈ g.wires, ∃ o i, g.outputPort? c = some o ∧ g.inputPort? c = some i ∧ Fit o i
  /-- no input is fed twice -/
  single : ∀ node port, (g.wiresInto node port).length ≤ 1
  operators : ∀ n ∈ g.nodes, n.kind.isOperator = true →
    ∃ op, Operator.ofText? (n.control "operator" "") n.kind = some op
  parameters : ∀ n ∈ g.nodes, takesParameters n.kind = true → ∀ list ∈ ["parameters", "returns"],
    ∃ ps, Parameter.ofString (n.control list "") = .ok ps
  /-- no value flows back to where it comes from -/
  acyclic : ∀ v, ¬ Relation.TransGen g.Feeds v v

/-- all types that have to be read can be used -/
structure Readable (g : Graph) : Prop where
  sockets : ∀ c ∈ g.wires, ∀ o i, g.outputPort? c = some o → g.inputPort? c = some i → o.flavor.joins i.flavor = true →
    ∀ s ∈ o.type, ∀ t ∈ i.type, s ≠ "" → t ≠ "" →
      (SolType.ofString s).fault? = none ∧ (SolType.ofString t).fault? = none
  lists : ∀ n ∈ g.nodes, takesParameters n.kind = true → ∀ list ∈ ["parameters", "returns"],
    ∀ i f, Parameter.ofString (n.control list "") ≠ .error (.type i f)

variable {g : Graph}

/-! ## Names -/

/-- of the nodes that bear a name, each but the first is told; and the first as well, when the name was seen before -/
theorem count_duplicateNamesAfter {name : String} (hname : name ≠ "") (seen : List String) (ns : List Node) :
    (duplicateNamesAfter seen ns).count (.duplicateName name) =
      if name ∈ seen then ns.countP fun n => nameOf n = name else (ns.countP fun n => nameOf n = name) - 1 := by
  induction ns generalizing seen with
  | nil => simp [duplicateNamesAfter]
  | cons n ns ih =>
    unfold duplicateNamesAfter
    by_cases hblank : nameOf n = ""
    · have hne : nameOf n ≠ name := fun h => hname (h ▸ hblank)
      rw [if_pos hblank, ih, List.countP_cons_of_neg (by simpa using hne)]
    · rw [if_neg hblank]
      by_cases hn : nameOf n = name
      · rw [List.countP_cons_of_pos (by simpa using hn)]
        subst hn
        by_cases hs : nameOf n ∈ seen
        · rw [if_pos hs, if_pos hs, List.count_cons_self, ih, if_pos hs]
        · rw [if_neg hs, if_neg hs, ih, if_pos List.mem_cons_self, Nat.add_sub_cancel]
      · rw [List.countP_cons_of_neg (by simpa using hn)]
        have hother : Finding.duplicateName (nameOf n) ≠ .duplicateName name :=
          fun h => hn (Finding.duplicateName.inj h)
        by_cases hs : nameOf n ∈ seen
        · rw [if_pos hs, List.count_cons_of_ne hother, ih]
        · have hmem : name ∈ nameOf n :: seen ↔ name ∈ seen := by simp [Ne.symm hn]
          rw [if_neg hs, ih]
          simp only [hmem]

/-- nothing is told when no node bears the name of another, nor a name that was seen before -/
theorem duplicateNamesAfter_eq_nil_iff {seen : List String} {ns : List Node} :
    duplicateNamesAfter seen ns = [] ↔
      (∀ n ∈ ns, nameOf n ≠ "" → nameOf n ∉ seen) ∧ ns.Pairwise fun m n => nameOf m ≠ "" → nameOf m ≠ nameOf n := by
  induction ns generalizing seen with
  | nil => simp [duplicateNamesAfter]
  | cons n ns ih =>
    unfold duplicateNamesAfter
    rw [List.forall_mem_cons, List.pairwise_cons]
    by_cases hblank : nameOf n = ""
    · rw [if_pos hblank, ih]
      simp [hblank]
    · rw [if_neg hblank]
      by_cases hs : nameOf n ∈ seen
      · rw [if_pos hs]
        simp [hblank, hs]
      · rw [if_neg hs, ih]
        constructor
        · rintro ⟨hseen, hpairs⟩
          refine ⟨⟨fun _ => hs, fun m hm hne hms => hseen m hm hne (List.mem_cons_of_mem _ hms)⟩, fun m hm _ he => ?_,
            hpairs⟩
          have hfirst : nameOf m ∈ nameOf n :: seen := List.mem_cons.2 (Or.inl he.symm)
          exact hseen m hm (fun h => hblank (he.trans h)) hfirst
        · rintro ⟨⟨-, hseen⟩, hn, hpairs⟩
          refine ⟨fun m hm hne hms => ?_, hpairs⟩
          rcases List.mem_cons.1 hms with he | hms
          · exact hn m hm hblank he.symm
          · exact hseen m hm hne hms

theorem duplicateNames_eq_nil_iff :
    g.duplicateNames = [] ↔ ∀ m ∈ g.nodes, ∀ n ∈ g.nodes, nameOf m ≠ "" → nameOf m = nameOf n → m = n := by
  have hnodup : g.nodes.Nodup := List.Nodup.of_map Node.id g.nodup
  rw [duplicateNames, duplicateNamesAfter_eq_nil_iff]
  constructor
  · rintro ⟨-, hpairs⟩ m hm n hn hblank he
    by_contra hne
    have hsymm : Std.Symm fun m n : Node => nameOf m ≠ "" → nameOf m ≠ nameOf n :=
      ⟨fun a b hab hb hba => hab (hba ▸ hb) hba.symm⟩
    exact hpairs.forall hm hn hne hblank he
  · intro h
    refine ⟨fun _ _ _ => List.not_mem_nil, hnodup.pairwise_of_forall_ne fun m hm n hn hne hblank he => ?_⟩
    exact hne (h m hm n hn hblank he)

theorem missingNames_eq_nil_iff :
    g.missingNames = [] ↔ ∀ n ∈ g.nodes, needsName n.kind = true → nameOf n ≠ "" := by
  simp [missingNames]

/-! ## Connections -/

theorem typesClash_eq_false_iff {s? t? : Option String} :
    typesClash s? t? = false ↔
      ∀ s ∈ s?, ∀ t ∈ t?, s ≠ "" → t ≠ "" → (SolType.ofString s).fits (SolType.ofString t) = true := by
  cases s? with
  | none => simp [typesClash]
  | some s =>
    cases t? with
    | none => simp [typesClash]
    | some t =>
      simp only [typesClash, Option.mem_some, forall_eq']
      by_cases hs : s = "" <;> by_cases ht : t = "" <;> simp [hs, ht]

theorem typeClash?_eq_none_iff {c : Connection} {o i : Port} (ho : g.outputPort? c = some o)
    (hi : g.inputPort? c = some i) : g.typeClash? c = none ↔ typesClash o.type i.type = false := by
  simp [typeClash?, ho, hi]

theorem connectionFindings_eq_nil_iff_fit :
    g.connectionFindings = [] ↔
      (∀ c ∈ g.wires, ∃ o i, g.outputPort? c = some o ∧ g.inputPort? c = some i ∧ Fit o i) ∧
        ∀ node port, (g.wiresInto node port).length ≤ 1 := by
  rw [connectionFindings_eq_nil_iff]
  constructor
  · rintro ⟨hw, ht⟩
    refine ⟨fun c hc => ?_, hw.single⟩
    obtain ⟨o, i, ho, hi, hj⟩ := hw.joins c hc
    exact ⟨o, i, ho, hi, hj, typesClash_eq_false_iff.1 ((typeClash?_eq_none_iff ho hi).1 (ht c hc))⟩
  · rintro ⟨hjoined, hsingle⟩
    refine ⟨⟨fun c hc => ?_, hsingle⟩, fun c hc => ?_⟩
    · obtain ⟨o, i, ho, hi, hj, -⟩ := hjoined c hc
      exact ⟨o, i, ho, hi, hj⟩
    · obtain ⟨o, i, ho, hi, -, ht⟩ := hjoined c hc
      exact (typeClash?_eq_none_iff ho hi).2 (typesClash_eq_false_iff.2 ht)

/-! ## Parameter lists -/

theorem listFinding?_eq_none_iff {n : Node} {list : String} :
    listFinding? n list = none ↔
      (∃ ps, Parameter.ofString (n.control list "") = .ok ps) ∨
        ∃ i f, Parameter.ofString (n.control list "") = .error (.type i f) := by
  unfold listFinding?
  split
  · next ps h => simp [h]
  · next i f h => simp [h]
  · next fault hne h => 
    simp [h]
    exact hne

theorem listTypeFault?_eq_none_iff {n : Node} {list : String} :
    listTypeFault? n list = none ↔ ∀ i f, Parameter.ofString (n.control list "") ≠ .error (.type i f) := by
  unfold listTypeFault?
  split
  · next i f h => simp [h]
  · next hne => simpa using hne

theorem parameterFindings_eq_nil_iff :
    g.parameterFindings = [] ↔ ∀ n ∈ g.nodes, takesParameters n.kind = true → ∀ list ∈ ["parameters", "returns"],
      listFinding? n list = none := by
  simp only [parameterFindings, List.flatMap_eq_nil_iff, List.mem_filter, List.filterMap_eq_nil_iff, and_imp,
    takesParameters]

/-! ## Value flow -/

/-- what feeds a node is a node -/
theorem Feeds.hasNode {v w : String} (h : g.Feeds v w) : g.hasNode v = true := by
  obtain ⟨c, -, o, ho, -, rfl, -⟩ := h
  obtain ⟨n, hn, -⟩ := g.outputPort?_eq_some_iff.1 ho
  exact g.hasNode_iff.2 ⟨n, hn⟩

theorem valueFlow_edge_iff_feeds {v w : String} :
    g.valueFlow.Edge v w ↔ g.Feeds v w ∧ g.hasNode w = true := by
  rw [valueFlow_edge_iff]
  constructor
  · rintro ⟨c, hc, hv, rfl, rfl⟩
    obtain ⟨hw, ho⟩ := Bool.and_eq_true_iff.1 hv
    obtain ⟨o, ho, hne⟩ := (Option.any_eq_true _ _).1 ho
    exact ⟨⟨c, hc, o, ho, bne_iff_ne.1 hne, rfl, rfl⟩, hw⟩
  · rintro ⟨⟨c, hc, o, ho, hne, rfl, rfl⟩, hw⟩
    refine ⟨c, hc, Bool.and_eq_true_iff.2 ⟨hw, (Option.any_eq_true _ _).2 ⟨o, ho, bne_iff_ne.2 hne⟩⟩, rfl, rfl⟩

/-- a way to a node passes nodes only -/
theorem transGen_edge_of_feeds {v w : String} (h : Relation.TransGen g.Feeds v w) (hw : g.hasNode w = true) :
    g.hasNode v = true ∧ Relation.TransGen g.valueFlow.Edge v w := by
  induction h using Relation.TransGen.head_induction_on with
  | single h => exact ⟨h.hasNode, .single (valueFlow_edge_iff_feeds.2 ⟨h, hw⟩)⟩
  | head h _ ih => exact ⟨h.hasNode, ih.2.head (valueFlow_edge_iff_feeds.2 ⟨h, ih.1⟩)⟩

theorem valueCycles_eq_nil_iff : g.valueCycles = [] ↔ ∀ v, ¬ Relation.TransGen g.Feeds v v := by
  have hcycles : g.valueCycles = [] ↔ g.valueFlow.cycles = [] := by
    rw [← List.length_eq_zero_iff, valueCycles, List.length_mergeSort, List.length_map, List.length_eq_zero_iff]
  rw [hcycles, Digraph.cycles_eq_nil_iff (valueFlow_closed g)]
  refine forall_congr' fun v => not_congr ⟨fun h => ?_, fun h => ?_⟩
  · exact Relation.TransGen.mono (fun _ _ he => (valueFlow_edge_iff_feeds.1 he).1) v v h
  · obtain ⟨w, hv, -⟩ := Relation.TransGen.head'_iff.1 h
    exact (transGen_edge_of_feeds h hv.hasNode).2

/-! ## All checks -/

theorem wellFormed_iff_findings (hr : g.Readable) : g.findings = [] ↔ g.WellFormed := by
  have hlists : (∀ n ∈ g.nodes, takesParameters n.kind = true → ∀ list ∈ ["parameters", "returns"],
      listFinding? n list = none) ↔ ∀ n ∈ g.nodes, takesParameters n.kind = true →
        ∀ list ∈ ["parameters", "returns"], ∃ ps, Parameter.ofString (n.control list "") = .ok ps := by
    refine forall₂_congr fun n hn => forall_congr' fun hk => forall₂_congr fun list hl => ?_
    rw [listFinding?_eq_none_iff, or_iff_left]
    rintro ⟨i, f, hf⟩
    exact hr.lists n hn hk list hl i f hf
  rw [findings_eq_nil_iff, duplicateNames_eq_nil_iff, missingNames_eq_nil_iff, constructorCount_eq_nil_iff,
    connectionFindings_eq_nil_iff_fit, operatorFindings_eq_nil_iff, parameterFindings_eq_nil_iff,
    valueCycles_eq_nil_iff, hlists]
  constructor
  · rintro ⟨hd, hn, hc, ⟨hj, hs⟩, ho, hp, ha⟩
    exact ⟨hd, hn, hc, hj, hs, ho, hp, ha⟩
  · rintro ⟨hd, hn, hc, hj, hs, ho, hp, ha⟩
    exact ⟨hd, hn, hc, ⟨hj, hs⟩, ho, hp, ha⟩

theorem wireTypeFault?_eq_none_iff {c : Connection} :
    g.wireTypeFault? c = none ↔
      ∀ o i, g.outputPort? c = some o → g.inputPort? c = some i → o.flavor.joins i.flavor = true →
        ∀ s ∈ o.type, ∀ t ∈ i.type, s ≠ "" → t ≠ "" →
          (SolType.ofString s).fault? = none ∧ (SolType.ofString t).fault? = none := by
  unfold wireTypeFault?
  split
  · next f s f' t ho hi =>
    constructor
    · intro h o i ho' hi' hj s' hs t' ht hne hne'
      obtain rfl := Option.some.inj (ho.symm.trans ho')
      obtain rfl := Option.some.inj (hi.symm.trans hi')
      obtain rfl := Option.some.inj hs
      obtain rfl := Option.some.inj ht
      rwa [if_pos ⟨hj, hne, hne'⟩, Option.or_eq_none_iff] at h
    · intro h
      split
      · next hc => exact Option.or_eq_none_iff.2 (h _ _ ho hi hc.1 s rfl t rfl hc.2.1 hc.2.2)
      · rfl
  · next hnone =>
    -- one of the sockets is missing, or states no type
    refine iff_of_true rfl fun o i ho hi _ s hs t ht => ?_
    obtain ⟨f, s?⟩ := o
    obtain ⟨f', t?⟩ := i
    obtain rfl : s? = some s := hs
    obtain rfl : t? = some t := ht
    exact absurd hi (hnone f s f' t ho)

/-- no type stops the validation just when all can be used -/
theorem typeFault?_eq_none_iff : g.typeFault? = none ↔ g.Readable := by
  simp only [typeFault?, Option.or_eq_none_iff, List.findSome?_eq_none_iff, wireTypeFault?_eq_none_iff,
    listTypeFault?_eq_none_iff, List.mem_filter, and_imp]
  exact ⟨fun h => ⟨h.1, h.2⟩, fun h => ⟨h.sockets, h.lists⟩⟩

theorem findings_eq : g.findings = g.duplicateNames ++ (g.missingNames ++ g.constructorCount ++ g.connectionFindings ++
    g.operatorFindings ++ g.parameterFindings ++ g.valueCycles) := by
  simp [findings, checks]

theorem wireFinding?_ne_duplicateName (c : Connection) (name : String) :
    g.wireFinding? c ≠ some (.duplicateName name) := by
  unfold wireFinding?
  split
  · split
    · simp
    · split <;> simp
  · simp

theorem listFinding?_ne_duplicateName (n : Node) (list name : String) :
    listFinding? n list ≠ some (.duplicateName name) := by
  unfold listFinding?
  split <;> simp

/-- a repeated name is told by the first check, and by no other -/
theorem count_duplicateName {name : String} (hname : name ≠ "") :
    g.findings.count (.duplicateName name) = (g.nodes.countP fun n => nameOf n = name) - 1 := by
  have hothers : Finding.duplicateName name ∉ g.missingNames ++ g.constructorCount ++ g.connectionFindings ++
      g.operatorFindings ++ g.parameterFindings ++ g.valueCycles := by
    have hcount : Finding.duplicateName name ∉ g.constructorCount := by
      simp only [constructorCount]
      split <;> simp
    simp only [List.mem_append, not_or]
    refine ⟨⟨⟨⟨⟨?_, hcount⟩, ?_⟩, ?_⟩, ?_⟩, ?_⟩
    · simp [missingNames]
    · simp [connectionFindings, wireFinding?_ne_duplicateName]
    · simp [operatorFindings]
    · simp [parameterFindings, listFinding?_ne_duplicateName]
    · simp [valueCycles]
  rw [findings_eq, List.count_append, List.count_eq_zero.2 hothers, Nat.add_zero, duplicateNames,
    count_duplicateNamesAfter hname, if_neg List.not_mem_nil]

/-- nothing is found just when the graph is well formed and all its types can be used -/
theorem validate_eq_nil_iff {g : Graph} : g.validate = .ok [] ↔ g.WellFormed ∧ g.Readable := by
  rw [validate_eq_ok_iff, typeFault?_eq_none_iff, and_comm, and_congr_left wellFormed_iff_findings]

/-- **Validation tells well-formed graphs from all others.** It finds nothing just when the graph is well formed and all
its types can be used. Whenever they can be used it tells what each of the seven checks finds, one check after the
other. A name that several nodes bear is told for each of them but one. -/
theorem validate_decides (g : Graph) :
    (g.validate = .ok [] ↔ g.WellFormed ∧ g.Readable) ∧
    (∀ fs, g.validate = .ok fs ↔ g.Readable ∧ fs = g.duplicateNames ++ g.missingNames ++ g.constructorCount ++
      g.connectionFindings ++ g.operatorFindings ++ g.parameterFindings ++ g.valueCycles) ∧
    (∀ name, name ≠ "" →
      g.findings.count (.duplicateName name) = (g.nodes.countP fun n => nameOf n = name) - 1) := by
  refine ⟨validate_eq_nil_iff, fun fs => ?_, fun name hname => count_duplicateName hname⟩
  rw [validate_eq_ok_iff, typeFault?_eq_none_iff, findings_eq, eq_comm (b := fs)]
  simp only [List.append_assoc]

/-- three variables of one name, which one of them writes with blanks around it -/
def namesakes : Graph where
  nodes := [⟨"a", .uintVar, .ofList [("name", "x")], ∅, ∅⟩, ⟨"b", .boolVar, .ofList [("name", " x ")], ∅, ∅⟩,
    ⟨"c", .uintVar, .ofList [("name", "x")], ∅, ∅⟩]
  nodup := by decide
  connections := ∅
  metadata := ∅

theorem namesakes_told : namesakes.findings.count (.duplicateName "x") = 2 := by
  obtain ⟨-, -, hcount⟩ := validate_decides namesakes
  have hbearers : (namesakes.nodes.countP fun n => nameOf n = "x") = 3 := by decide
  rw [hcount "x" (by decide), hbearers]

end Graph

namespace SolType

/-! ## A type that cannot be used -/

theorem fits_self (t : SolType) : t.fits t = true := by
  simp [fits]

/-- an integer type with a width of some nines -/
def wide (n : Nat) : String := .ofList ("uint".toList ++ List.replicate n '9')

theorem toList_wide (n : Nat) : (wide n).toList = "uint".toList ++ List.replicate n '9' := String.toList_ofList

theorem reverse_wide (n : Nat) : ("uint".toList ++ List.replicate n '9').reverse =
    List.replicate n '9' ++ "tniu".toList := by
  rw [List.reverse_append, List.reverse_replicate]
  rfl

theorem isDigit_of_mem_nines {n : Nat} {c : Char} (hc : c ∈ List.replicate n '9') : Text.isDigit c = true := by
  rw [List.eq_of_mem_replicate hc]
  decide

/-- neither end of the text is blank -/
theorem trim_wide (n : Nat) : Text.trim ("uint".toList ++ List.replicate (n + 1) '9') =
    "uint".toList ++ List.replicate (n + 1) '9' := by
  have hstart : ("uint".toList ++ List.replicate (n + 1) '9').dropWhile Text.isBlank =
      "uint".toList ++ List.replicate (n + 1) '9' := List.dropWhile_cons_of_neg (by decide)
  have hend : ("uint".toList ++ List.replicate (n + 1) '9').reverse.dropWhile Text.isBlank =
      ("uint".toList ++ List.replicate (n + 1) '9').reverse := by
    rw [reverse_wide, List.replicate_succ]
    exact List.dropWhile_cons_of_neg (by decide)
  rw [Text.trim, hstart, Text.trimEnd, hend, List.reverse_reverse]

/-- nines behind the keyword are a width -/
theorem elementary?_wide (n : Nat) : ∃ w, elementary? ("uint".toList ++ List.replicate (n + 1) '9') =
    some (.elementary (wide (n + 1)) .integer w false none) := by
  have hafter : after? "uint".toList ("uint".toList ++ List.replicate (n + 1) '9') =
      some ('9' :: List.replicate n '9') := rfl
  have hdigits : ('9' :: List.replicate n '9').all Text.isDigit = true :=
    List.all_eq_true.2 fun c hc => isDigit_of_mem_nines (n := n + 1) hc
  have hsize : size? "uint" ("uint".toList ++ List.replicate (n + 1) '9') =
      some (some (Text.numeral ('9' :: List.replicate n '9'))) := by
    rw [size?, hafter]
    simp only [Text.natural?, hdigits, ne_eq, reduceCtorEq, not_false_eq_true, and_self, if_true, Option.map_some]
  rw [elementary?, hsize]
  exact ⟨_, rfl⟩

/-- a width of too many digits keeps the type from being used -/
theorem fault?_wide {n : Nat} (hn : Text.digitLimit < n) : (ofString (wide n)).fault? = some .longNumber := by
  have hlong : beginsLong (wide n).toList.reverse = true := by
    have hdigits : (List.replicate n '9' ++ "tniu".toList).takeWhile Text.isDigit = List.replicate n '9' := by
      rw [List.takeWhile_append_of_pos fun c hc => isDigit_of_mem_nines hc]
      simp [Text.isDigit, Text.digitValue?]
    rw [toList_wide, reverse_wide, beginsLong, hdigits, List.length_replicate]
    exact decide_eq_true hn
  obtain ⟨n, rfl⟩ : ∃ m, n = m + 1 := Nat.exists_eq_add_one.2 (Nat.zero_lt_of_lt hn)
  obtain ⟨w, hw⟩ := elementary?_wide n
  have htype : ofString (wide (n + 1)) = .elementary (wide (n + 1)) .integer w false none := by
    rw [ofString, toList_wide, ofChars]
    simp only [trim_wide, hw]
  have hflat : ¬ nestingLimit < 1 := by decide
  rw [htype, fault?, depth, if_neg hflat, hasLongNumber, if_pos hlong]

theorem wide_ne_empty (n : Nat) : wide n ≠ "" := by
  intro h
  have hchars : "uint".toList ++ List.replicate n '9' = [] := (toList_wide n).symm.trans (congrArg String.toList h)
  cases hchars

end SolType

namespace Graph

/-! ## A well-formed graph that is not validated -/

/-- a value that is assigned -/
def passingWire : Connection := ⟨"a", "value", "b", "value"⟩

/-- the graph of the value and the assignment, where both sockets state one type -/
def passing (type : String) : Graph where
  nodes := [⟨"a", .literalValue, ∅, ∅, .ofList [("value", ⟨.value, some type⟩)]⟩,
    ⟨"b", .assignment, ∅, .ofList [("value", ⟨.value, some type⟩)], ∅⟩]
  nodup := by
    change ["a", "b"].Nodup
    decide
  connections := .ofList [(passingWire.id, passingWire)]
  metadata := ∅

theorem outputPort?_passing (type : String) : (passing type).outputPort? passingWire = some ⟨.value, some type⟩ := rfl

theorem inputPort?_passing (type : String) : (passing type).inputPort? passingWire = some ⟨.value, some type⟩ := rfl

theorem wires_passing (type : String) : (passing type).wires = [passingWire] := rfl

theorem eq_of_mem_wires_passing {type : String} {c : Connection} (h : c ∈ (passing type).wires) :
    c = passingWire :=
  List.mem_singleton.1 h

theorem not_feeds_back_passing (type v : String) : ¬ Relation.TransGen (passing type).Feeds v v := by
  intro h
  obtain ⟨w, ⟨c, hc, -, -, -, hv, -⟩, -⟩ := Relation.TransGen.head'_iff.1 h
  obtain ⟨u, -, ⟨d, hd, -, -, -, -, hv'⟩⟩ := Relation.TransGen.tail'_iff.1 h
  obtain rfl := eq_of_mem_wires_passing hc
  obtain rfl := eq_of_mem_wires_passing hd
  exact absurd (hv.trans hv'.symm) (by decide)

/-- whatever type it is, it fits itself -/
theorem wellFormed_passing (type : String) : (passing type).WellFormed := by
  have hunnamed : ∀ n ∈ (passing type).nodes, nameOf n = "" :=
    List.forall_mem_cons.2 ⟨rfl, List.forall_mem_singleton.2 rfl⟩
  have hkinds : ∀ n ∈ (passing type).nodes, n.kind = .literalValue ∨ n.kind = .assignment :=
    List.forall_mem_cons.2 ⟨Or.inl rfl, List.forall_mem_singleton.2 (Or.inr rfl)⟩
  constructor
  case distinct => exact fun m hm n _ hne => absurd (hunnamed m hm) hne
  case named =>
    intro n hn hk
    rcases hkinds n hn with h | h <;> rw [h] at hk <;> cases hk
  case constructor_le_one => exact Nat.zero_le 1
  case joined =>
    intro c hc
    obtain rfl := eq_of_mem_wires_passing hc
    refine ⟨_, _, outputPort?_passing type, inputPort?_passing type, rfl, fun s hs t ht _ _ => ?_⟩
    obtain rfl := Option.some.inj hs
    obtain rfl := Option.some.inj ht
    exact SolType.fits_self _
  case single => exact fun node port => (List.length_filter_le _ _).trans (Nat.le_refl 1)
  case operators =>
    intro n hn hk
    rcases hkinds n hn with h | h <;> rw [h] at hk <;> cases hk
  case parameters =>
    intro n hn hk
    rcases hkinds n hn with h | h <;> rw [h] at hk <;> cases hk
  case acyclic => exact not_feeds_back_passing type

/-- a type that cannot be used ends the validation -/
theorem validate_passing {type : String} {f : TypeFault} (hne : type ≠ "")
    (hf : (SolType.ofString type).fault? = some f) : (passing type).validate = .error f := by
  have hc : Flavor.value.joins .value = true ∧ type ≠ "" ∧ type ≠ "" := ⟨rfl, hne, hne⟩
  have hwire : (passing type).wireTypeFault? passingWire = some f := by
    simp only [wireTypeFault?, outputPort?_passing, inputPort?_passing]
    rw [if_pos hc, hf, Option.some_or]
  have htype : (passing type).typeFault? = some f := by
    rw [typeFault?, wires_passing, List.findSome?_cons, hwire, Option.some_or]
  rw [validate, htype]

/-- **A type can end the validation of a well-formed graph.** -/
theorem long_type_stops :
    (passing (SolType.wide 4301)).WellFormed ∧ (passing (SolType.wide 4301)).validate = .error .longNumber :=
  ⟨wellFormed_passing _, validate_passing (SolType.wide_ne_empty _) (SolType.fault?_wide (by decide))⟩

end Graph

end ContractGraph
