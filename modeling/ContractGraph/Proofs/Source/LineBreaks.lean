/-
Where the lines of a source are broken.

When no field and no option holds a line break, those apart that are written as string literals, the breaks inside of the
lines of a source are those of its string literals. So there is one statement to a line just when no string literal is
broken, and a literal can be: a token's name may hold a line feed.

Results:
- `quoted`: what the string literals of a source hold, in the order in which they are written;
- `breaks_constructorLines`, `breaks_functions`, `breaks_templateParts`: the sections that hold string literals;
- `lines_unbroken_iff`: the lines of a source are unbroken just when its string literals are;
- `title_breaks_constructor`: a name with a line feed breaks the first line of the constructor.
-/
import ContractGraph.Proofs.Graph.Layout
import ContractGraph.Proofs.Source.Quoting

namespace ContractGraph.Source

variable {g : Graph} {n : Node} {o : EmissionOptions}

/-- the contents of the string literals in the calls of base constructors -/
def titles (g : Graph) : List String :=
  ((template? g .erc20).map fun n => [fieldOr n "name" "MyToken", fieldOr n "symbol" "MTK"]).getD [] ++
    ((template? g .erc721).map fun n => [fieldOr n "name" "MyNFT", fieldOr n "symbol" "MNFT"]).getD []

/-- the contents of the string literals in the body of a function -/
def bodyStrings (g : Graph) (n : Node) : List String := Statement.strings.block (body g n).statements

/-- the contents of the string literals of a source, in the order in which they are written -/
def quoted (g : Graph) : List String :=
  titles g ++ ((g.nodesOfKind .constructorFn).head?.map (bodyStrings g)).getD [] ++
    (g.nodes.filter isEmittedFunction).flatMap (bodyStrings g) ++
    ((template? g .erc721).map fun n => [field n "baseURI"]).getD []

/-! ## State variables and events -/

theorem unbroken_declaration (h : n.IsUnbroken) (hk : n.kind.isVariable = true) : Unbroken (declaration n) := by
  have hq : ∀ key, ¬ n.IsQuoted key :=
    Node.not_isQuoted_of_kind (by cases hkind : n.kind <;> simp_all [Kind.isVariable])
  have hvisibility : Unbroken (fieldOr n "visibility" "public") := h.fieldOr (hq _) (by decide)
  have hname : Unbroken (name n) := h.field (hq _)
  rw [declaration]
  split
  · have hkey : Unbroken (fieldOr n "keyType" "address") := h.fieldOr (hq _) (by decide)
    have hvalue : Unbroken (fieldOr n "valueType" "uint256") := h.fieldOr (hq _) (by decide)
    simp +decide only [unbroken_append, hkey, hvalue, hvisibility, hname]
  · have htype : Unbroken (variableType n.kind) := by cases n.kind <;> decide
    have hinitial : Unbroken (if field n "value" = "" ∨ field n "value" =
        (SolType.ofString (variableType n.kind)).zeroValue then "" else " = " ++ field n "value") := by
      split
      · decide
      · exact unbroken_append.2 ⟨by decide, h.field (hq _)⟩
    simp +decide only [unbroken_append, htype, hvisibility, hname, hinitial]

theorem breaks_stateVariables (h : g.IsUnbroken) : (stateVariables g).flatMap breaks = [] := by
  refine flatMap_breaks_eq_nil (List.forall_mem_map.2 fun n hn => ?_)
  obtain ⟨hm, hk⟩ := List.mem_filter.1 hn
  exact unbroken_declaration (h n hm) (Bool.and_eq_true_iff.1 hk).1

theorem breaks_events (h : g.IsUnbroken) : (events g).flatMap breaks = [] := by
  refine flatMap_breaks_eq_nil (List.forall_mem_map.2 fun n hn => ?_)
  obtain ⟨hm, hk⟩ := List.mem_filter.1 (List.mem_filter.1 hn).1
  have hq : ∀ key, ¬ n.IsQuoted key := Node.not_isQuoted_of_kind (by rw [beq_iff_eq.1 hk]; decide)
  have hname : Unbroken (name n) := (h n hm).field (hq _)
  have hparameters : Unbroken (field n "parameters") := (h n hm).field (hq _)
  simp +decide only [unbroken_append, hname, hparameters]

/-! ## Constructor and functions -/

theorem breaks_join (ws : List String) : breaks (String.join ws) = ws.flatMap breaks := by
  rw [breaks, String.toList_join, List.filter_flatMap]
  rfl

theorem breaks_baseCall {base : String} (hb : Unbroken base) (n : Node) (title symbol : String) :
    breaks (baseCall base n title symbol) = [fieldOr n "name" title, fieldOr n "symbol" symbol].flatMap breaks := by
  have hopen : Unbroken (base ++ "(") := unbroken_append.2 ⟨hb, by decide⟩
  have hcomma : breaks ", " = [] := by decide
  rw [baseCall, breaks_append_unbroken (t := ")") (by decide), breaks_append, breaks_append, breaks_append, hcomma,
    hopen, breaks_literal, breaks_literal]
  simp only [List.nil_append, List.append_nil, List.flatMap_cons, List.flatMap_nil]

/-- the calls of base constructors are broken only inside of their string literals, and modifiers are not -/
theorem breaks_constructorHead {ctor : Option Node} (hc : ∀ n, ctor = some n → Unbroken (field n "modifiers")) :
    (constructorHead g ctor).flatMap breaks = (titles g).flatMap breaks := by
  have hmodifiers : ((ctor.map fun n => field n "modifiers").filter (· != "")).toList.flatMap breaks = [] := by
    refine flatMap_breaks_eq_nil fun w hw => ?_
    simp only [Option.mem_toList, Option.filter_eq_some_iff, Option.map_eq_some_iff] at hw
    obtain ⟨⟨n, hn, rfl⟩, -⟩ := hw
    exact hc n hn
  have hcall : ∀ k base title symbol, Unbroken base →
      ((template? g k).map fun n => baseCall base n title symbol).toList.flatMap breaks =
        (((template? g k).map fun n => [fieldOr n "name" title, fieldOr n "symbol" symbol]).getD []).flatMap breaks := by
    intro k base title symbol hb
    cases template? g k with
    | none => rfl
    | some n => simp only [Option.map_some, Option.toList_some, Option.getD_some, List.flatMap_singleton, breaks_baseCall hb]
  rw [constructorHead, titles, List.flatMap_append, List.flatMap_append, List.flatMap_append, hmodifiers, List.append_nil,
    hcall .erc20 "ERC20" _ _ (by decide), hcall .erc721 "ERC721" _ _ (by decide)]

theorem titles_of_isEmpty (h : (bases g).isEmpty = true) : titles g = [] := by
  have hnone : ∀ b ∈ baseContracts, template? g b.kind = none := by
    intro b hb
    simpa using List.filter_eq_nil_iff.1 (List.isEmpty_iff.1 h) b hb
  simp only [baseContracts, List.forall_mem_cons] at hnone
  rw [titles, hnone.1, hnone.2.1]
  rfl

theorem breaks_mintSupply (h : g.IsUnbroken) : (mintSupply g).flatMap breaks = [] := by
  refine flatMap_breaks_eq_nil fun l hl => ?_
  obtain ⟨n, hn, rfl⟩ := Option.map_eq_some_iff.1 (Option.mem_toList.1 hl)
  obtain ⟨hm, hk⟩ := template?_eq_some hn
  have hsupply : Unbroken (fieldOr n "totalSupply" "1000000") :=
    (h n hm).fieldOr (Node.not_isQuoted_of_key (by rw [hk]; decide) (by decide)) (by decide)
  simp +decide only [unbroken_append, hsupply]

/-- the lines of the constructor are broken only inside of the string literals in its head and in its body -/
theorem breaks_constructorLines (h : g.IsUnbroken) :
    (constructorLines g).flatMap breaks =
      (titles g ++ ((g.nodesOfKind .constructorFn).head?.map (bodyStrings g)).getD []).flatMap breaks := by
  have hfield : ∀ n, (g.nodesOfKind .constructorFn).head? = some n → ∀ key, Unbroken (field n key) := by
    intro n hn key
    obtain ⟨hm, hk⟩ := template?_eq_some hn
    exact (h n hm).field (Node.not_isQuoted_of_kind (by rw [hk]; decide) key)
  have hparameters : Unbroken (((g.nodesOfKind .constructorFn).head?.map fun n => field n "parameters").getD "") := by
    cases hn : (g.nodesOfKind .constructorFn).head? with
    | none => decide
    | some n => exact hfield n hn _
  have hbody : (((g.nodesOfKind .constructorFn).head?.map fun n => (body g n).lines 2).getD []).flatMap breaks =
      (((g.nodesOfKind .constructorFn).head?.map (bodyStrings g)).getD []).flatMap breaks := by
    cases (g.nodesOfKind .constructorFn).head? with
    | none => rfl
    | some n => exact Graph.breaks_body h n 2
  have hwords : ((constructorHead g (g.nodesOfKind .constructorFn).head?).map fun w => " " ++ w).flatMap breaks =
      (titles g).flatMap breaks := by
    have hblank : ∀ w, breaks (" " ++ w) = breaks w := breaks_unbroken_append (by decide)
    rw [List.flatMap_map, ← breaks_constructorHead fun n hn => hfield n hn "modifiers"]
    simp only [hblank]
  rw [constructorLines]
  split
  -- without a constructor node and without templates there is no line, and no literal either
  · rename_i hnone
    obtain ⟨hctor, hbases⟩ := Bool.and_eq_true_iff.1 hnone
    rw [titles_of_isEmpty hbases, Option.isNone_iff_eq_none.1 hctor]
    rfl
  · have hopen : Unbroken (indent 1 ++ "constructor(" ++
        (((g.nodesOfKind .constructorFn).head?.map fun n => field n "parameters").getD "") ++ ")") := by
      simp +decide only [unbroken_append, hparameters]
    have hclose : breaks (indent 1 ++ "\x7d") = [] := by decide
    simp only [List.flatMap_append, List.flatMap_singleton, breaks_mintSupply h, hbody, hclose, List.append_nil]
    rw [breaks_append_unbroken (t := " \x7b") (by decide), breaks_unbroken_append hopen, breaks_join, hwords]

theorem unbroken_headWord {w : String} (hw : Unbroken w) : Unbroken (headWord w) := by
  rw [headWord]
  split
  · decide
  · exact unbroken_append.2 ⟨by decide, hw⟩

theorem unbroken_signature (h : n.IsUnbroken) (hf : isEmittedFunction n = true) : Unbroken (signature n) := by
  have hq : ∀ key, ¬ n.IsQuoted key := by
    refine Node.not_isQuoted_of_kind ?_
    have hk := (Bool.and_eq_true_iff.1 hf).1
    cases hkind : n.kind <;> simp_all [functionFlavor?]
  have hflavor : Unbroken ((functionFlavor? n.kind).getD ("", "")).1 ∧
      Unbroken ((functionFlavor? n.kind).getD ("", "")).2 := by
    cases n.kind <;> decide
  have hname : Unbroken (name n) := h.field (hq _)
  have hparameters : Unbroken (field n "parameters") := h.field (hq _)
  have hreturns : Unbroken (if field n "returns" = "" then "" else " returns (" ++ field n "returns" ++ ")") := by
    have hfield : Unbroken (field n "returns") := h.field (hq _)
    split
    · decide
    · simp +decide only [unbroken_append, hfield]
  simp +decide only [signature, unbroken_append, hname, hparameters, hreturns, hflavor.1, unbroken_headWord hflavor.2,
    unbroken_headWord (h.field (hq "modifiers"))]

theorem breaks_functionLines (h : g.IsUnbroken) (hn : n ∈ g.nodes) (hf : isEmittedFunction n = true) :
    (functionLines g n).flatMap breaks = (bodyStrings g n).flatMap breaks := by
  have hhead : breaks (signature n ++ " \x7b") = [] :=
    unbroken_append.2 ⟨unbroken_signature (h n hn) hf, by decide⟩
  have hclose : breaks (indent 1 ++ "\x7d") = [] := by decide
  have hbody : (if (body g n).lines 2 = [] then [indent 2 ++ emptyBody] else (body g n).lines 2).flatMap breaks =
      (bodyStrings g n).flatMap breaks := by
    have hstatements : ((body g n).lines 2).flatMap breaks = (bodyStrings g n).flatMap breaks := Graph.breaks_body h n 2
    split
    · rename_i hnil
      rw [← hstatements, hnil]
      decide
    · exact hstatements
  rw [functionLines, List.flatMap_append, List.flatMap_append, hbody, List.flatMap_singleton, List.flatMap_singleton,
    hhead, hclose, List.nil_append, List.append_nil]

/-- the empty lines between groups of lines hold nothing -/
theorem breaks_spaced (groups : List (List String)) :
    (spaced groups).flatMap breaks = groups.flatMap fun ls => ls.flatMap breaks := by
  induction groups with
  | nil => rfl
  | cons ls groups ih =>
    cases groups with
    | nil => rw [spaced, List.flatMap_singleton]
    | cons ms groups =>
      rw [show spaced (ls :: ms :: groups) = ls ++ "" :: spaced (ms :: groups) from rfl, List.flatMap_append,
        List.flatMap_cons, ih, List.flatMap_cons]
      rfl

theorem breaks_functions (h : g.IsUnbroken) :
    (functions g).flatMap breaks = ((g.nodes.filter isEmittedFunction).flatMap (bodyStrings g)).flatMap breaks := by
  rw [functions, breaks_spaced, List.flatMap_map, List.flatMap_assoc]
  refine List.flatMap_congr fun n hn => ?_
  obtain ⟨hm, hf⟩ := List.mem_filter.1 hn
  exact breaks_functionLines h hm hf

/-! ## Parts of token templates -/

theorem breaks_oneLiner {head : String} (hh : Unbroken head) (statement : String) :
    (oneLiner head statement).flatMap breaks = breaks statement := by
  have hhead : breaks (indent 1 ++ "function " ++ head ++ " \x7b") = [] := by
    change Unbroken _
    simp +decide only [unbroken_append, hh]
  have hclose : breaks (indent 1 ++ "\x7d") = [] := by decide
  simp only [oneLiner, List.flatMap_cons, List.flatMap_nil, hhead, hclose, List.nil_append, List.append_nil,
    breaks_unbroken_append (unbroken_indent 2)]

theorem breaks_decimalsPart (h : n.IsUnbroken) (hk : n.kind = .erc20) :
    (decimalsPart n).flatMap (fun ls => ls.flatMap breaks) = [] := by
  have hdecimals : Unbroken (field n "decimals") :=
    h.field (Node.not_isQuoted_of_key (by rw [hk]; decide) (by decide))
  have hreturn : breaks ("return " ++ field n "decimals" ++ ";") = [] := by
    change Unbroken _
    simp +decide only [unbroken_append, hdecimals]
  rw [decimalsPart]
  split
  · rfl
  · rw [List.flatMap_singleton, breaks_oneLiner (by decide), hreturn]

theorem breaks_collectionParts (n : Node) :
    (collectionParts n).flatMap (fun ls => ls.flatMap breaks) = breaks (field n "baseURI") := by
  have hmint : breaks "_mint(to, tokenId);" = [] := by decide
  have hreturn : breaks ("return " ++ Text.literal (field n "baseURI") ++ ";") = breaks (field n "baseURI") := by
    rw [breaks_append_unbroken (t := ";") (by decide), breaks_unbroken_append (s := "return ") (by decide),
      breaks_literal]
  rw [collectionParts, List.flatMap_append, List.flatMap_singleton, breaks_oneLiner (by decide), hmint, List.append_nil]
  split
  · rename_i hblank
    rw [hblank]
    rfl
  · rw [List.flatMap_singleton, breaks_oneLiner (by decide), hreturn]

theorem breaks_templateParts (h : g.IsUnbroken) :
    (templateParts g).flatMap breaks =
      (((template? g .erc721).map fun n => [field n "baseURI"]).getD []).flatMap breaks := by
  have hdecimals : (((template? g .erc20).map decimalsPart).getD []).flatMap (fun ls => ls.flatMap breaks) = [] := by
    cases ht : template? g .erc20 with
    | none => rfl
    | some n =>
      obtain ⟨hm, hk⟩ := template?_eq_some ht
      rw [Option.map_some, Option.getD_some, breaks_decimalsPart (h n hm) hk]
  have hcollection : (((template? g .erc721).map collectionParts).getD []).flatMap (fun ls => ls.flatMap breaks) =
      (((template? g .erc721).map fun n => [field n "baseURI"]).getD []).flatMap breaks := by
    cases template? g .erc721 with
    | none => rfl
    | some n => simp only [Option.map_some, Option.getD_some, breaks_collectionParts, List.flatMap_singleton]
  rw [templateParts, breaks_spaced, List.flatMap_append, hdecimals, List.nil_append, hcollection]

/-! ## All lines -/

theorem breaks_sectionLines (comments : Bool) {s : Section} (ht : Unbroken s.title) :
    (sectionLines comments s).flatMap breaks = s.lines.flatMap breaks := by
  have htitle : (if comments then [indent 1 ++ "// " ++ s.title] else []).flatMap breaks = [] := by
    split
    · refine flatMap_breaks_eq_nil (List.forall_mem_singleton.2 ?_)
      simp +decide only [unbroken_append, ht]
    · rfl
  rw [sectionLines]
  split
  · rename_i hnil
    rw [hnil]
  · rw [List.flatMap_append, List.flatMap_append, htitle, List.nil_append]
    exact List.append_nil _

/-- the sections of a contract are broken only inside of string literals -/
theorem breaks_sections (h : g.IsUnbroken) (comments : Bool) :
    ((sections g).flatMap (sectionLines comments)).flatMap breaks = (quoted g).flatMap breaks := by
  have htitles : ∀ s ∈ sections g, Unbroken s.title := by
    simp only [sections, List.forall_mem_cons, List.not_mem_nil, false_implies, implies_true, and_true]
    decide
  rw [List.flatMap_assoc, List.flatMap_congr fun s hs => breaks_sectionLines comments (htitles s hs)]
  simp only [sections, List.flatMap_cons, List.flatMap_nil, breaks_stateVariables h, breaks_events h,
    breaks_constructorLines h, breaks_functions h, breaks_templateParts h, quoted, List.flatMap_append, List.nil_append,
    List.append_nil, List.append_assoc]

theorem breaks_dropEmptyEnd (ls : List String) : (dropEmptyEnd ls).flatMap breaks = ls.flatMap breaks := by
  obtain ⟨empties, hempty, hls⟩ := exists_dropEmptyEnd_append ls
  have hnone : empties.flatMap breaks = [] := by
    refine flatMap_breaks_eq_nil fun l hl => ?_
    rw [hempty l hl]
    decide
  calc (dropEmptyEnd ls).flatMap breaks
      = (dropEmptyEnd ls ++ empties).flatMap breaks := by rw [List.flatMap_append, hnone, List.append_nil]
    _ = ls.flatMap breaks := by rw [hls]

theorem unbroken_versionConstraint {version : String} (h : Unbroken version) : Unbroken (versionConstraint version) := by
  rw [versionConstraint]
  split
  · exact h.strip
  · exact unbroken_append.2 ⟨by decide, h.strip⟩

/-- no line before the sections is broken -/
theorem unbroken_preamble (ho : o.IsUnbroken) : ∀ l ∈ preamble g o, Unbroken l := by
  have himports : ∀ l ∈ (bases g).map fun b => "import \"" ++ b.path ++ "\";", Unbroken l := by
    have hpath : ∀ b ∈ baseContracts, Unbroken b.path := by decide
    refine List.forall_mem_map.2 fun b hb => ?_
    simp +decide only [unbroken_append, hpath b (List.mem_filter.1 hb).1]
  have hbases : Unbroken (if (bases g).isEmpty then "" else " is " ++ Text.join ", " ((bases g).map BaseContract.name)) := by
    have hlist : ∀ bs ∈ baseContracts.sublists, Unbroken (Text.join ", " (bs.map BaseContract.name)) := by decide
    split
    · decide
    · exact unbroken_append.2 ⟨by decide, hlist _ (List.mem_sublists.2 List.filter_sublist)⟩
  intro l hl
  simp only [preamble, List.mem_append, List.mem_cons, List.not_mem_nil, or_false] at hl
  rcases hl with ((rfl | rfl | rfl | rfl) | hl) | rfl | rfl
  · simp +decide only [unbroken_append, ho.license]
  · decide
  · simp +decide only [unbroken_append, unbroken_versionConstraint ho.languageVersion]
  · decide
  · split at hl
    · cases hl
    · rcases List.mem_append.1 hl with hl | hl
      · exact himports l hl
      · rw [List.mem_singleton.1 hl]
        decide
  · simp +decide only [unbroken_append, ho.contractName, hbases]
  · decide

/-- **The lines of a source are broken just where its string literals are.** For every graph and all options that hold no
line break outside of the fields that are written as string literals: the line breaks inside of the lines of the source
are those of the literals' contents, one for one and in their order. So every line stands on one line just when each
literal does, for a literal keeps the line breaks of its content. -/
theorem lines_unbroken_iff (hg : g.IsUnbroken) (ho : o.IsUnbroken) :
    (lines g o).flatMap breaks = (quoted g).flatMap breaks ∧
      ((∀ l ∈ lines g o, Unbroken l) ↔ ∀ s ∈ quoted g, Unbroken (Text.literal s)) := by
  have hpreamble : (preamble g o).flatMap breaks = [] := flatMap_breaks_eq_nil (unbroken_preamble ho)
  have hclose : breaks "\x7d" = [] := by decide
  have hlines : (lines g o).flatMap breaks = (quoted g).flatMap breaks := by
    rw [lines, List.flatMap_append, List.flatMap_singleton, hclose, List.append_nil, breaks_dropEmptyEnd,
      List.flatMap_append, hpreamble, List.nil_append, breaks_sections hg]
  refine ⟨hlines, ?_⟩
  calc (∀ l ∈ lines g o, Unbroken l)
      ↔ (lines g o).flatMap breaks = [] := List.flatMap_eq_nil_iff.symm
    _ ↔ (quoted g).flatMap breaks = [] := by rw [hlines]
    _ ↔ ∀ s ∈ quoted g, breaks s = [] := List.flatMap_eq_nil_iff
    _ ↔ ∀ s ∈ quoted g, Unbroken (Text.literal s) := by simp only [Unbroken, breaks_literal]

/-- a token with a carriage return in its symbol, and a function that sets a variable to a text of two lines -/
def letter : List Edit :=
  Edit.drawing
    [("erc20-template", "token", [("symbol", "M\rT")]), ("public-function", "f", [("name", "write")]),
      ("assignment", "a", [("variable", "text")]), ("literal-value", "two", [("type", "string"), ("value", "dear\nyou")])]
    [⟨"f", "execution", "a", "exec_in"⟩, ⟨"two", "value", "a", "value"⟩]

theorem letter_breaks :
    (Edit.run ∅ letter).IsUnbroken ∧ EmissionOptions.default.IsUnbroken ∧
      (lines (Edit.run ∅ letter) .default).flatMap breaks = ['\r', '\n'] := by
  have hg : (Edit.run ∅ letter).IsUnbroken := by decide +kernel
  have ho : EmissionOptions.default.IsUnbroken := ⟨by decide, by decide, by decide⟩
  have hquoted : (quoted (Edit.run ∅ letter)).flatMap breaks = ['\r', '\n'] := by decide +kernel
  exact ⟨hg, ho, (lines_unbroken_iff hg ho).1.trans hquoted⟩

/-- a token with a line feed in its name -/
def twoLineToken : List Edit := Edit.place "erc20-template" "token" [("name", "My\nToken")]

/-- **A name can break a line.** The constructor of a token whose name has a line feed does not start with one line. -/
theorem title_breaks_constructor :
    (Edit.run ∅ twoLineToken).IsUnbroken ∧ EmissionOptions.default.IsUnbroken ∧
      "    constructor() ERC20(\"My\nToken\", \"MTK\") \x7b" ∈ lines (Edit.run ∅ twoLineToken) .default ∧
      ¬ ∀ l ∈ lines (Edit.run ∅ twoLineToken) .default, Unbroken l := by
  exact ⟨by decide +kernel, ⟨by decide, by decide, by decide⟩, by decide +kernel, by decide +kernel⟩

end ContractGraph.Source
