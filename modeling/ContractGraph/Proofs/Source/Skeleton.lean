/-
The source of a graph is a text of nested blocks, whatever the graph is like, as long as no text that is written into it
has braces or line feeds of its own.

Results:
- `block_flowWithin`: the statements of a flow are a block, at any level inside a contract;
- `block_sections`: so are the sections of a contract, each with what it holds;
- `blockText_emit`: the source is a text of nested blocks.
-/
import ContractGraph.Proofs.Graph.Layout
import ContractGraph.Proofs.Source.Plain

namespace ContractGraph

namespace Graph

variable {g : Graph}

/-! ## Statements -/

open Statement (lines exprText)

/-- what an assignment says is a line, or nothing -/
theorem block_assignmentStatement (h : g.IsPlain) {n : Node} (hn : n ∈ g.nodes) (level : Int) :
    Block level (lines.block level (g.assignmentStatement n)) := by
  rw [assignmentStatement]
  split
  · exact Block.nil level
  · have htarget : TextAt level (indent level ++ Text.strip (n.control "variable" "")) :=
      textAt_indent ((h n hn).control _ (by decide)).strip (begins_strip ‹_›)
    exact Block.line (((htarget.append (by decide)).append (plain_unfold h _ _)).append (by decide))

/-- the first line of a branch, before its brace -/
theorem textAt_head {condition : Expr} (hc : condition.IsPlain) (level : Int) :
    TextAt level (indent level ++ "if (" ++ exprText condition ++ ")") :=
  ((textAt_indent (by decide) (by decide)).append hc).append (by decide)

/-- what a branch says is a block, when what stands in it is -/
theorem block_branchStatement (h : g.IsPlain) (id : String) {yes no : List Statement} {level : Int} (hl : 1 ≤ level)
    (hy : Block (level + 1) (lines.block (level + 1) yes)) (hn : Block (level + 1) (lines.block (level + 1) no)) :
    Block level (lines level (g.branchStatement id yes no)) := by
  have hhead := textAt_head (plain_unfold h id "condition") level
  have hbrace : ∀ c, indent level ++ "if (" ++ exprText c ++ ") \x7b" =
      indent level ++ "if (" ++ exprText c ++ ")" ++ " \x7b" := fun c => by
    rw [show ") \x7b" = ")" ++ " \x7b" from rfl, ← String.append_assoc]
  rw [branchStatement]
  split
  · rw [lines, hbrace]
    exact Block.branches hl hhead hy hn
  · rw [lines, hbrace]
    exact Block.braces hl hhead hy

/-- the statements of a flow are a block, at any level inside a contract -/
theorem block_flowWithin (h : g.IsPlain) (depth : Nat) (start : Option String) (visited : List String) {level : Int}
    (hl : 1 ≤ level) : Block level ((g.flowWithin depth start visited).lines level) := by
  refine flowWithin_of_forms g depth (P := fun _ flow => ∀ level, 1 ≤ level → Block level (flow.lines level)) ?_ ?_ ?_ ?_
    start visited level hl
  · exact fun _ level _ => Block.nil level
  · exact fun _ _ level _ => Block.nil level
  · intro _ n rest hn hk hr level hl
    have hline := block_assignmentStatement h (g.node?_eq_some_iff.1 hn).1 level
    rw [Flow.lines, Statement.lines_block_append]
    exact hline.append (hr level hl)
  · intro _ n yes no rest hn hk hy hf hr level hl
    have hbranch := block_branchStatement h n.id hl (hy _ (by omega)) (hf _ (by omega))
    exact hbranch.append (hr level hl)

theorem block_body (h : g.IsPlain) (n : Node) : Block 2 ((Source.body g n).lines 2) := by
  rw [Source.body_eq]
  exact block_flowWithin h _ _ _ (by decide)

end Graph

/-! ## Sections -/

namespace Source

variable {g : Graph} {n : Node} {o : EmissionOptions}

theorem textAt_declaration (h : n.IsPlain) (hk : n.kind.isVariable = true) : TextAt 1 (declaration n) := by
  have hvisibility : Plain (fieldOr n "visibility" "public") := h.fieldOr _ (by decide)
  have hname : Plain (name n) := h.field _
  rw [declaration]
  split
  · have hkey : Plain (fieldOr n "keyType" "address") := h.fieldOr _ (by decide)
    have hvalue : Plain (fieldOr n "valueType" "uint256") := h.fieldOr _ (by decide)
    have hmapping : TextAt 1 (indent 1 ++ "mapping(") := textAt_indent (by decide) (by decide)
    exact (((((((hmapping.append hkey).append (by decide)).append hvalue).append (by decide)).append
      hvisibility).append (by decide)).append hname).append (by decide)
  · have htype : Plain (variableType n.kind) ∧ Begins (variableType n.kind) := by
      cases hkind : n.kind <;> simp_all [Kind.isVariable] <;> decide
    have hvalue : Plain (if field n "value" = "" ∨ field n "value" = (SolType.ofString (variableType n.kind)).zeroValue
        then "" else " = " ++ field n "value") := by
      split
      · decide
      · exact plain_append.2 ⟨by decide, h.field _⟩
    exact ((((((textAt_indent htype.1 htype.2).append (by decide)).append hvisibility).append (by decide)).append
      hname).append hvalue).append (by decide)

theorem block_stateVariables (h : g.IsPlain) : Block 1 (stateVariables g) := by
  refine Block.lines fun l hl => Or.inr ?_
  obtain ⟨n, hn, rfl⟩ := List.mem_map.1 hl
  obtain ⟨hm, hk⟩ := List.mem_filter.1 hn
  exact textAt_declaration (h n hm) (Bool.and_eq_true_iff.1 hk).1

theorem block_events (h : g.IsPlain) : Block 1 (events g) := by
  refine Block.lines fun l hl => Or.inr ?_
  obtain ⟨n, hn, rfl⟩ := List.mem_map.1 hl
  have hm : n ∈ g.nodes := (List.mem_filter.1 (List.mem_filter.1 hn).1).1
  have hevent : TextAt 1 (indent 1 ++ "event ") := textAt_indent (by decide) (by decide)
  exact (((hevent.append ((h n hm).field _)).append (by decide)).append ((h n hm).field _)).append (by decide)

theorem template?_isPlain (h : g.IsPlain) {k : Kind} (hn : template? g k = some n) : n.IsPlain :=
  h n (template?_eq_some hn).1

theorem plain_baseCall {base title symbol : String} (h : n.IsPlain) (hb : Plain base) (ht : Plain title)
    (hs : Plain symbol) : Plain (baseCall base n title symbol) := by
  simp only [baseCall, plain_append]
  exact ⟨⟨⟨⟨⟨hb, by decide⟩, (h.fieldOr _ ht).literal⟩, by decide⟩, (h.fieldOr _ hs).literal⟩, by decide⟩

theorem plain_constructorHead (h : g.IsPlain) {ctor : Option Node} (hc : ∀ n, ctor = some n → n.IsPlain) :
    ∀ w ∈ constructorHead g ctor, Plain w := by
  intro w hw
  simp only [constructorHead, List.mem_append, Option.mem_toList, Option.map_eq_some_iff,
    Option.filter_eq_some_iff] at hw
  rcases hw with (⟨n, hn, rfl⟩ | ⟨n, hn, rfl⟩) | ⟨⟨n, hn, rfl⟩, -⟩
  · exact plain_baseCall (template?_isPlain h hn) (by decide) (by decide) (by decide)
  · exact plain_baseCall (template?_isPlain h hn) (by decide) (by decide) (by decide)
  · exact (hc n hn).field _

theorem plain_join {ws : List String} (h : ∀ w ∈ ws, Plain w) : Plain (String.join ws) := by
  intro c hc
  rw [String.toList_join] at hc
  obtain ⟨w, hw, hc⟩ := List.mem_flatMap.1 hc
  exact h w hw c hc

theorem block_mintSupply (h : g.IsPlain) : Block 2 (mintSupply g) := by
  refine Block.lines fun l hl => Or.inr ?_
  obtain ⟨n, hn, rfl⟩ := Option.map_eq_some_iff.1 (Option.mem_toList.1 hl)
  have hmint : TextAt 2 (indent 2 ++ "_mint(msg.sender, ") := textAt_indent (by decide) (by decide)
  exact (hmint.append ((template?_isPlain h hn).fieldOr _ (by decide))).append (by decide)

theorem block_constructorLines (h : g.IsPlain) : Block 1 (constructorLines g) := by
  have hc : ∀ n, (g.nodesOfKind .constructorFn).head? = some n → n.IsPlain := fun n hn => template?_isPlain h hn
  rw [constructorLines]
  split
  · exact Block.nil 1
  · have hparameters : Plain (((g.nodesOfKind .constructorFn).head?.map fun n => field n "parameters").getD "") := by
      cases hn : (g.nodesOfKind .constructorFn).head? with
      | none => decide
      | some n => exact (hc n hn).field _
    have hwords : Plain (String.join ((constructorHead g (g.nodesOfKind .constructorFn).head?).map fun w => " " ++ w)) := by
      refine plain_join (List.forall_mem_map.2 fun w hw => ?_)
      exact plain_append.2 ⟨by decide, plain_constructorHead h hc w hw⟩
    have hbody : Block 2 (((g.nodesOfKind .constructorFn).head?.map fun n => (body g n).lines 2).getD []) := by
      cases (g.nodesOfKind .constructorFn).head? with
      | none => exact Block.nil 2
      | some n => exact Graph.block_body h n
    have hhead : TextAt 1 (indent 1 ++ "constructor(") := textAt_indent (by decide) (by decide)
    exact Block.braces (le_refl 1) (((hhead.append hparameters).append (by decide)).append hwords)
      ((block_mintSupply h).append hbody)

theorem plain_headWord {w : String} (hw : Plain w) : Plain (headWord w) := by
  rw [headWord]
  split
  · decide
  · exact plain_append.2 ⟨by decide, hw⟩

theorem textAt_signature (h : n.IsPlain) : TextAt 1 (signature n) := by
  have hflavor : Plain ((functionFlavor? n.kind).getD ("", "")).1 ∧ Plain ((functionFlavor? n.kind).getD ("", "")).2 := by
    cases n.kind <;> decide
  have hreturns : Plain (if field n "returns" = "" then "" else " returns (" ++ field n "returns" ++ ")") := by
    split
    · decide
    · exact plain_append.2 ⟨plain_append.2 ⟨by decide, h.field _⟩, by decide⟩
  have hfunction : TextAt 1 (indent 1 ++ "function ") := textAt_indent (by decide) (by decide)
  have hparameters : TextAt 1 (indent 1 ++ "function " ++ name n ++ "(" ++ field n "parameters" ++ ") ") :=
    (((hfunction.append (h.field _)).append (by decide)).append (h.field _)).append (by decide)
  exact (((hparameters.append hflavor.1).append (plain_headWord hflavor.2)).append (plain_headWord (h.field _))).append
    hreturns

theorem block_functionLines (h : g.IsPlain) (hn : n ∈ g.nodes) : Block 1 (functionLines g n) := by
  have hbody : Block 2 (if (body g n).lines 2 = [] then [indent 2 ++ emptyBody] else (body g n).lines 2) := by
    split
    · exact Block.line (textAt_indent (by decide) (by decide))
    · exact Graph.block_body h n
  exact Block.braces (le_refl 1) (textAt_signature (h n hn)) hbody

theorem block_spaced {depth : Int} {groups : List (List String)} (h : ∀ ls ∈ groups, Block depth ls) :
    Block depth (spaced groups) := by
  induction groups with
  | nil => exact Block.nil depth
  | cons ls groups ih =>
    rw [List.forall_mem_cons] at h
    cases groups with
    | nil => exact h.1
    | cons ms groups => exact h.1.append ((Block.empty depth).append (ih h.2))

theorem block_functions (h : g.IsPlain) : Block 1 (functions g) := by
  refine block_spaced (List.forall_mem_map.2 fun n hn => ?_)
  exact block_functionLines h (List.mem_filter.1 hn).1

theorem block_oneLiner {head statement : String} (hh : Plain head) (hs : Plain statement) (hb : Begins statement) :
    Block 1 (oneLiner head statement) := by
  have hfunction : TextAt 1 (indent 1 ++ "function ") := textAt_indent (by decide) (by decide)
  exact Block.braces (le_refl 1) (hfunction.append hh) (Block.line (textAt_indent hs hb))

theorem block_templateParts (h : g.IsPlain) : Block 1 (templateParts g) := by
  refine block_spaced fun ls hls => ?_
  rcases List.mem_append.1 hls with hls | hls
  · cases ht : template? g .erc20 with
    | none => simp [ht] at hls
    | some n =>
      rw [ht, Option.map_some, Option.getD_some, decimalsPart] at hls
      split at hls
      · cases hls
      · rw [List.mem_singleton.1 hls]
        have hp : Plain ("return " ++ field n "decimals" ++ ";") :=
          plain_append.2 ⟨plain_append.2 ⟨by decide, (template?_isPlain h ht).field _⟩, by decide⟩
        exact block_oneLiner (by decide) hp (Begins.append (Begins.append (by decide) _) _)
  · cases ht : template? g .erc721 with
    | none => simp [ht] at hls
    | some n =>
      rw [ht, Option.map_some, Option.getD_some, collectionParts] at hls
      rcases List.mem_append.1 hls with hls | hls
      · split at hls
        · cases hls
        · rw [List.mem_singleton.1 hls]
          have hp : Plain ("return " ++ Text.literal (field n "baseURI") ++ ";") :=
            plain_append.2 ⟨plain_append.2 ⟨by decide, ((template?_isPlain h ht).field _).literal⟩, by decide⟩
          exact block_oneLiner (by decide) hp (Begins.append (Begins.append (by decide) _) _)
      · rw [List.mem_singleton.1 hls]
        exact block_oneLiner (by decide) (by decide) (by decide)

theorem block_sectionLines (comments : Bool) {s : Section} (ht : Plain s.title) (h : Block 1 s.lines) :
    Block 1 (sectionLines comments s) := by
  have htitle : Block 1 (if comments then [indent 1 ++ "// " ++ s.title] else []) := by
    split
    · exact Block.line ((textAt_indent (by decide) (by decide)).append ht)
    · exact Block.nil 1
  rw [sectionLines]
  split
  · exact Block.nil 1
  · exact (htitle.append h).append (Block.empty 1)

theorem block_sections (h : g.IsPlain) (comments : Bool) : Block 1 ((sections g).flatMap (sectionLines comments)) := by
  refine Block.flatten (List.forall_mem_map.2 ?_)
  simp only [sections, List.forall_mem_cons, List.not_mem_nil, false_implies, implies_true, and_true]
  exact ⟨block_sectionLines comments (by simp [Plain]) (block_stateVariables h),
    block_sectionLines comments (by simp [Plain]) (block_events h),
    block_sectionLines comments (by simp [Plain]) (block_constructorLines h),
    block_sectionLines comments (by simp [Plain]) (block_functions h),
    block_sectionLines comments (by simp [Plain]) (block_templateParts h)⟩

/-! ## The whole source -/

/-- a block is one without the empty lines at its end -/
theorem block_dropEmptyEnd {depth : Int} {ls : List String} (h : Block depth ls) : Block depth (dropEmptyEnd ls) := by
  obtain ⟨empties, hempty, hls⟩ := exists_dropEmptyEnd_append ls
  obtain ⟨next, hfront, hback⟩ := LinesAt.split (hls.symm ▸ h : LinesAt depth (dropEmptyEnd ls ++ empties) depth)
  have hnone : empties.flatMap String.toList = [] := by
    refine List.flatMap_eq_nil_iff.2 fun l hl => ?_
    rw [hempty l hl]
    rfl
  have hnext := hback.after_eq
  rw [hnone, openBraces_nil, add_zero] at hnext
  exact hnext.symm ▸ hfront

/-- the lines before the contract's head -/
def prologue (g : Graph) (o : EmissionOptions) : List String :=
  let imports := (bases g).map fun b => "import \"" ++ b.path ++ "\";"
  ["// SPDX-License-Identifier: " ++ o.license, "", "pragma solidity " ++ versionConstraint o.languageVersion ++ ";", ""] ++
    if imports = [] then [] else imports ++ [""]

/-- the contract's head, before its brace -/
def contractHead (g : Graph) (o : EmissionOptions) : String :=
  "contract " ++ o.contractName ++
    if (bases g).isEmpty then "" else " is " ++ Text.join ", " ((bases g).map BaseContract.name)

theorem preamble_eq (g : Graph) (o : EmissionOptions) :
    preamble g o = prologue g o ++ [contractHead g o ++ " \x7b", ""] := rfl

theorem textAt_contractHead (ho : o.IsPlain) : TextAt 0 (contractHead g o) := by
  have hbases : Plain (if (bases g).isEmpty then "" else " is " ++ Text.join ", " ((bases g).map BaseContract.name)) := by
    have hlist : ∀ bs ∈ baseContracts.sublists, Plain (Text.join ", " (bs.map BaseContract.name)) := by decide
    split
    · decide
    · refine plain_append.2 ⟨by decide, hlist _ (List.mem_sublists.2 List.filter_sublist)⟩
  have hcontract : TextAt 0 "contract " := textAt_zero (by decide) (by decide)
  exact (hcontract.append ho.contractName).append hbases

theorem plain_versionConstraint {version : String} (h : Plain version) : Plain (versionConstraint version) := by
  rw [versionConstraint]
  split
  · exact h.strip
  · exact plain_append.2 ⟨by decide, h.strip⟩

theorem prologue_lines (ho : o.IsPlain) : ∀ l ∈ prologue g o, l = "" ∨ TextAt 0 l := by
  have hlicense : TextAt 0 ("// SPDX-License-Identifier: " ++ o.license) :=
    (textAt_zero (by decide) (by decide)).append ho.license
  have hpragma : TextAt 0 ("pragma solidity " ++ versionConstraint o.languageVersion ++ ";") :=
    ((textAt_zero (by decide) (by decide)).append (plain_versionConstraint ho.languageVersion)).append (by decide)
  have himports : ∀ l ∈ (bases g).map fun b => "import \"" ++ b.path ++ "\";", TextAt 0 l := by
    refine List.forall_mem_map.2 fun b hb => ?_
    have hpath : ∀ b ∈ baseContracts, Plain b.path := by decide
    exact ((textAt_zero (by decide) (by decide)).append (hpath b (List.mem_filter.1 hb).1)).append (by decide)
  intro l hl
  simp only [prologue, List.mem_append, List.mem_cons, List.not_mem_nil, or_false] at hl
  rcases hl with (rfl | rfl | rfl | rfl) | hl
  · exact Or.inr hlicense
  · exact Or.inl rfl
  · exact Or.inr hpragma
  · exact Or.inl rfl
  · split at hl
    · cases hl
    · rcases List.mem_append.1 hl with hl | hl
      · exact Or.inr (himports l hl)
      · exact Or.inl (List.mem_singleton.1 hl)

theorem lines_eq (g : Graph) (o : EmissionOptions) :
    lines g o = prologue g o ++ (contractHead g o ++ " \x7b") ::
      dropEmptyEnd ("" :: (sections g).flatMap (sectionLines o.comments)) ++ ["\x7d"] := by
  have hhead : contractHead g o ++ " \x7b" ≠ "" := by simp [String.append_eq_empty_iff]
  rw [lines, preamble_eq, List.append_assoc, List.cons_append, dropEmptyEnd_append_cons _ _ hhead]
  rfl

/-- **The source is a text of nested blocks.** Whatever the nodes, the connections and the options are, when no field and
no option has a brace or a line feed, every brace that the source opens is closed, the contract's own at the very end, and
every line is indented by four blanks for each brace that is open around it. -/
theorem blockText_emit (hg : g.IsPlain) (ho : o.IsPlain) : BlockText (emit g o).toList := by
  have hplain : ∀ l ∈ prologue g o, Plain l := fun l hl => by
    rcases prologue_lines ho l hl with rfl | h
    · decide
    · exact h.plain
  have hinner : Block 1 (dropEmptyEnd ("" :: (sections g).flatMap (sectionLines o.comments))) :=
    block_dropEmptyEnd ((Block.empty 1).append (block_sections hg o.comments))
  rw [emit, lines_eq]
  exact blockText_join (Block.lines (prologue_lines ho)) hplain (textAt_contractHead ho) hinner

/-- a constructor with branches, and ids that hold braces and line feeds -/
def bracedIds : List Edit :=
  Edit.drawing
    [("constructor-function", "\x7b", [("parameters", "uint256 x")]), ("if-statement", "\n\x7d", []),
      ("assignment", "\x7d else", [("variable", "a")]), ("event", "\n", [("name", "Done")])]
    [⟨"\x7b", "execution", "\n\x7d", "exec_in"⟩, ⟨"\n\x7d", "exec_true", "\x7d else", "exec_in"⟩,
      ⟨"\n\x7d", "exec_false", "\n\x7d", "exec_in"⟩]

theorem bracedIds_blockText : (Edit.run ∅ bracedIds).IsPlain ∧ EmissionOptions.default.IsPlain ∧
    BlockText (emit (Edit.run ∅ bracedIds) .default).toList := by
  have hg : (Edit.run ∅ bracedIds).IsPlain := by
    have hentries : ∀ n ∈ (Edit.run ∅ bracedIds).nodes, ∀ e ∈ n.controls.entries, Plain e.2 := by decide +kernel
    exact fun n hn => Node.isPlain_of_entries (hentries n hn)
  have ho : EmissionOptions.default.IsPlain := ⟨by decide, by decide, by decide⟩
  exact ⟨hg, ho, blockText_emit hg ho⟩

end Source

end ContractGraph
