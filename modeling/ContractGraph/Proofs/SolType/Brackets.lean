/-
What the types of an accepted parameter list look like.

A list is accepted when the word of each type is an identifier up to its first bracket; nothing is asked of what follows
the bracket. The words that are well formed go on with groups of brackets that close, and with nothing else. So in an
accepted list all types are well formed just when, behind each opening bracket and up to the next one, there is exactly
one closing bracket, and it comes last. When digits or nothing stand in the groups, the type is then an array type for
each group, over the type that the identifier names.

Results:
- `closed_iff`: a word whose brackets close is one of groups behind a word without them;
- `ofChars_groups`: groups of digits are read as arrays, from the first group on;
- `isWellFormed_of_closed`: an entry whose brackets close is well formed;
- `isWellFormed_iff_closed`: what holds of each accepted list, and when its entries are well formed.
Witnesses:
- `grouped_wellFormed`: a payable address, and an array of arrays;
- `unclosed_accepted`: a bracket that nothing closes is accepted.
-/
import ContractGraph.Proofs.Analysis.Deletion
import ContractGraph.Proofs.SolType.Grammar
import ContractGraph.Proofs.SolType.ParameterList
import ContractGraph.Proofs.Text.Identifier

namespace ContractGraph

namespace Text

/-! ## Identifiers -/

theorem IsName.isNameRest {cs : List Char} (h : IsName cs) : ∀ c ∈ cs, Text.isNameRest c = true := by
  obtain ⟨c, r, rfl, hc, hr⟩ := h
  exact List.forall_mem_cons.2 ⟨isNameRest_of_isNameStart hc, hr⟩

end Text

namespace SolType

open ContractGraph.Text

/-! ## Groups of brackets -/

/-- groups of brackets, from what stands in them -/
def groupsText (groups : List (List Char)) : List Char := groups.flatMap fun g => '[' :: (g ++ [']'])

/-- behind each opening bracket, up to the next one, there is one closing bracket, and it comes last -/
def Closed (w : List Char) : Prop :=
  ∀ piece ∈ (pieces '[' w).tail, piece.getLast? = some ']' ∧ piece.count ']' = 1

instance (w : List Char) : Decidable (Closed w) := List.decidableBAll _ _

theorem pieces_groupsText {id : List Char} (hid : '[' ∉ id) {groups : List (List Char)}
    (h : ∀ g ∈ groups, '[' ∉ g) : pieces '[' (id ++ groupsText groups) = id :: groups.map (· ++ [']']) := by
  induction groups generalizing id with
  | nil => rw [groupsText, List.flatMap_nil, List.append_nil, pieces_of_notMem hid, List.map_nil]
  | cons g groups ih =>
    obtain ⟨hg, hgroups⟩ := List.forall_mem_cons.1 h
    have htext : id ++ groupsText (g :: groups) = id ++ '[' :: ((g ++ [']']) ++ groupsText groups) := by
      simp [groupsText]
    rw [htext, pieces_append_cons hid, ih (by simp [hg]) hgroups, List.map_cons]

/-- one closing bracket that comes last has none before it -/
theorem exists_group {piece : List Char} (hlast : piece.getLast? = some ']') (hcount : piece.count ']' = 1) :
    ∃ g, ']' ∉ g ∧ piece = g ++ [']'] := by
  obtain ⟨g, rfl⟩ := List.getLast?_eq_some_iff.1 hlast
  rw [List.count_append, List.count_singleton_self, Nat.add_eq_right, List.count_eq_zero] at hcount
  exact ⟨g, hcount, rfl⟩

/-- **Brackets that close are groups.** A word whose brackets close is one without opening brackets, with groups
behind it. -/
theorem closed_iff {w : List Char} :
    Closed w ↔ ∃ id groups, '[' ∉ id ∧ (∀ g ∈ groups, '[' ∉ g ∧ ']' ∉ g) ∧ w = id ++ groupsText groups := by
  constructor
  · intro h
    obtain ⟨id, ps, hps⟩ := List.exists_cons_of_ne_nil (pieces_ne_nil '[' w)
    have hopen : ∀ p ∈ id :: ps, '[' ∉ p := fun p hp => (of_mem_pieces (hps ▸ hp)).1
    rw [Closed, hps, List.tail_cons] at h
    -- each piece behind the first is a group, less its opening bracket
    have hgroups : ∃ groups : List (List Char), ps = groups.map (· ++ [']']) ∧ ∀ g ∈ groups, ']' ∉ g := by
      clear hps hopen
      induction ps with
      | nil => exact ⟨[], rfl, by simp⟩
      | cons p ps ih =>
        obtain ⟨⟨hlast, hcount⟩, hps⟩ := List.forall_mem_cons.1 h
        obtain ⟨g, hg, rfl⟩ := exists_group hlast hcount
        obtain ⟨groups, rfl, hgroups⟩ := ih hps
        exact ⟨g :: groups, rfl, List.forall_mem_cons.2 ⟨hg, hgroups⟩⟩
    obtain ⟨groups, rfl, hclosing⟩ := hgroups
    refine ⟨id, groups, hopen id List.mem_cons_self, fun g hg => ⟨fun hc => ?_, hclosing g hg⟩, ?_⟩
    · exact hopen _ (List.mem_cons_of_mem id (List.mem_map_of_mem hg)) (List.mem_append_left _ hc)
    · rw [eq_of_pieces hps, groupsText, List.flatMap_map]
  · rintro ⟨id, groups, hid, hgroups, rfl⟩
    rw [Closed, pieces_groupsText hid fun g hg => (hgroups g hg).1]
    intro piece hpiece
    obtain ⟨g, hg, rfl⟩ := List.mem_map.1 hpiece
    refine ⟨List.getLast?_concat, ?_⟩
    rw [List.count_append, List.count_eq_zero.2 (hgroups g hg).2, List.count_singleton_self]

/-! ## Groups of digits -/

/-- an elementary type, or a type that is known by its name only -/
def IsLeaf (t : SolType) : Prop := (∃ n b w s k, t = .elementary n b w s k) ∨ ∃ n, t = .contract n

/-- the array types over a type with the given text, one for each group -/
def wrapped (cs : List Char) (t : SolType) : List (List Char) → SolType
  | [] => t
  | g :: groups =>
    wrapped (arrayText cs g) (.array (.ofList (arrayText cs g)) t ((writtenSize g).map Int.ofNat)) groups

/-- groups of digits are read as arrays, from the first group on -/
theorem ofChars_groups {cs : List Char} (h : Tree.IsNeat cs) {groups : List (List Char)}
    (hgroups : ∀ g ∈ groups, ∀ c ∈ g, isDigit c = true) :
    ofChars (cs ++ groupsText groups) = wrapped cs (ofChars cs) groups := by
  induction groups generalizing cs with
  | nil => rw [groupsText, List.flatMap_nil, List.append_nil, wrapped]
  | cons g groups ih =>
    obtain ⟨hg, hgroups⟩ := List.forall_mem_cons.1 hgroups
    have htext : cs ++ groupsText (g :: groups) = arrayText cs g ++ groupsText groups := by
      simp [groupsText, arrayText]
    rw [htext, ih (Tree.isNeat_arrayText h hg) hgroups, ofChars_array h.ne_nil h.line h.head hg, wrapped]

/-- the type that an identifier names is put together from no others -/
theorem isLeaf_of_isName {id : List Char} (h : IsName id) : IsLeaf (ofChars id) := by
  have hword := h.isNameRest
  obtain ⟨c, r, hid, -⟩ := h
  have htrim : trim id = id := (Tree.isNeat_word (hid ▸ List.cons_ne_nil c r) hword).trimmed
  cases he : elementary? (trim id) with
  | some t =>
    obtain ⟨⟨b, w, s, n, rfl⟩, -⟩ := elementary?_eq_some he
    exact Or.inl ⟨_, _, _, _, _, ofChars_of_elementary he⟩
  | none =>
    have harray : arrayParts? (trim id) = none := by rw [htrim, Tree.arrayParts?_of_word hword]
    have hmapping : mappingParts? (trim id) = none := by rw [htrim, Tree.mappingParts?_of_word hword]
    exact Or.inr ⟨_, ofChars_of_contract he harray hmapping⟩

end SolType

namespace Parameter

open ContractGraph.Text SolType

/-! ## Well-formed entries -/

/-- the type of payable addresses, the only one of two words -/
def payableAddress : SolType := .elementary "address payable" .address none false none

/-- an identifier with groups of brackets behind it and nothing else, read as an array type for each group if digits or
nothing stand in them -/
def IsGrouped (t : SolType) : Prop :=
  ∃ id groups, IsName id ∧ (∀ g ∈ groups, '[' ∉ g ∧ ']' ∉ g) ∧ t.name.toList = id ++ groupsText groups ∧
    ((∀ g ∈ groups, ∀ c ∈ g, isDigit c = true) → IsLeaf (ofChars id) ∧ t = wrapped id (ofChars id) groups)

/-- a name that is an identifier, if there is one, and a type that is a payable address or has groups of brackets only
behind its identifier -/
structure IsWellFormed (p : Parameter) : Prop where
  name : p.name = "" ∨ IsName p.name.toList
  type : p.type = payableAddress ∨ IsGrouped p.type

/-- what the reader makes sure of: the name, and the type's word up to its first bracket -/
structure IsNamed (p : Parameter) : Prop where
  name : p.name = "" ∨ IsName p.name.toList
  type : p.type = payableAddress ∨ IsName (p.type.name.toList.takeWhile (· ≠ '['))
  read : SolType.ofString p.type.name = p.type

theorem isNamed_of_ofWords {n : Nat} {ws : List String} {p : Parameter} (h : ofWords n ws = .ok p)
    (hws : ∀ w ∈ ws, IsWord w.toList) : p.IsNamed := by
  obtain ⟨first, rest, rfl, hfirst, hread, hrest, hname⟩ := ofWords_eq_ok h
  have hword : IsWord first.toList := hws first List.mem_cons_self
  have hspelling : p.type.name = (typeWords first rest).1 := name_of_read hread (words_typeWords hword rest).2
  obtain ⟨htype, -⟩ := read_eq_ok_iff.1 hread
  refine ⟨?_, ?_, by rw [hspelling, htype]⟩
  · refine (em (p.name = "")).imp_right fun hne => ?_
    have hmodifier : p.name ∈ (typeWords first rest).2 := by
      rw [hrest, modifiers, if_neg hne]
      simp
    have hmem : p.name ∈ first :: rest := List.mem_cons_of_mem first (typeWords_subset first rest hmodifier)
    exact isName_of_isIdentifier (hname.resolve_left hne) (hws _ hmem).line
  · have hpayable : SolType.ofString "address payable" = payableAddress := ofChars_of_elementary rfl
    rcases typeWords_cases first rest with hsplit | ⟨rest', rfl, rfl, hsplit⟩
    · right
      rw [hspelling, hsplit]
      exact isName_of_isIdentifier hfirst fun hc => hword.line (List.takeWhile_subset _ hc)
    · left
      rw [htype, hsplit, hpayable]

theorem takeWhile_groupsText {id : List Char} (hid : '[' ∉ id) (groups : List (List Char)) :
    (id ++ groupsText groups).takeWhile (· ≠ '[') = id := by
  have hstays : ∀ c ∈ id, decide (c ≠ '[') = true := by
    intro c hc
    exact decide_eq_true fun h => hid (h ▸ hc)
  have hstops : (groupsText groups).takeWhile (· ≠ '[') = [] := by
    cases groups with
    | nil => rfl
    | cons g groups => exact List.takeWhile_cons_of_neg (by simp)
  rw [List.takeWhile_append_of_pos hstays, hstops, List.append_nil]

/-- **An entry whose brackets close is well formed.** -/
theorem isWellFormed_of_closed {p : Parameter} (h : p.IsNamed) (hclosed : Closed p.type.name.toList) :
    p.IsWellFormed := by
  refine ⟨h.name, h.type.imp_right fun hid => ?_⟩
  obtain ⟨id, groups, hopen, hgroups, htext⟩ := closed_iff.1 hclosed
  rw [htext, takeWhile_groupsText hopen] at hid
  refine ⟨id, groups, hid, hgroups, htext, fun hdigits => ⟨isLeaf_of_isName hid, ?_⟩⟩
  have hneat : Tree.IsNeat id := by
    refine Tree.isNeat_word ?_ hid.isNameRest
    obtain ⟨c, r, rfl, -⟩ := hid
    exact List.cons_ne_nil c r
  rw [← ofChars_groups hneat hdigits, ← htext]
  exact h.read.symm

theorem IsWellFormed.closed {p : Parameter} (h : p.IsWellFormed) : Closed p.type.name.toList := by
  rcases h.type with htype | ⟨id, groups, hid, hgroups, htext, -⟩
  · rw [htype]
    decide
  · have hopen : '[' ∉ id := fun hc => absurd (hid.isNameRest _ hc) (by decide)
    exact closed_iff.2 ⟨id, groups, hopen, hgroups, htext⟩

end Parameter

namespace Graph

/-- a list that the check of parameter lists passes is accepted, if the types of the graph can be used -/
theorem accepted_of_parameterFindings {g : Graph} (ht : g.typeFault? = none) (hp : g.parameterFindings = []) {n : Node}
    (hn : n ∈ g.nodes) (hk : takesParameters n.kind = true) {list : String} (hl : list ∈ ["parameters", "returns"]) :
    ∃ ps, Parameter.ofString (n.control list "") = .ok ps := by
  have hnone := parameterFindings_eq_nil_iff.1 hp n hn hk list hl
  refine (listFinding?_eq_none_iff.1 hnone).resolve_right ?_
  rintro ⟨i, f, hf⟩
  exact (typeFault?_eq_none_iff.1 ht).lists n hn hk list hl i f hf

end Graph

namespace Parameter

open ContractGraph.Text SolType

/-! ## Main result -/

/-- **Accepted parameter lists, and when they are well formed.** The entries of an accepted list have the words that
they are read from; each name is an identifier, and so is the word of each type up to its first bracket. All types are
well formed just when, behind each opening bracket of their words, there is one closing bracket before the next, and it
comes last. A list that validation passes is accepted. -/
theorem isWellFormed_iff_closed (s : String) :
    (∀ ps, ofString s = .ok ps →
      (trim s.toList = [] ∧ ps = [] ∨
          (pieces ',' s.toList).map words = ps.map fun p => words p.text.toList) ∧
        (∀ p ∈ ps, p.IsNamed) ∧
        ((∀ p ∈ ps, p.IsWellFormed) ↔ ∀ p ∈ ps, Closed p.type.name.toList)) ∧
      ∀ g : Graph, g.typeFault? = none → g.parameterFindings = [] → ∀ n ∈ g.nodes,
        Graph.takesParameters n.kind = true → ∀ list ∈ ["parameters", "returns"], n.control list "" = s →
          ∃ ps, ofString s = .ok ps := by
  refine ⟨fun ps h => ?_, fun g ht hp n hn hk list hl hs => hs ▸ Graph.accepted_of_parameterFindings ht hp hn hk hl⟩
  by_cases hblank : trim s.toList = []
  · rw [ofString_of_blank hblank] at h
    obtain rfl := Except.ok.inj h
    simp [hblank]
  · rw [ofString_of_not_blank hblank] at h
    have hnamed : ∀ p ∈ ps, p.IsNamed := by
      intro p hp
      obtain ⟨i, ws, hw, hws⟩ := exists_words_of_mem h p hp
      exact isNamed_of_ofWords hw hws
    refine ⟨Or.inr (words_of_ofPieces h).symm, hnamed, fun hwell p hp => (hwell p hp).closed, fun hclosed p hp => ?_⟩
    exact isWellFormed_of_closed (hnamed p hp) (hclosed p hp)

/-- a payable address, and an array of arrays -/
def groupedList : String := "address payable to, uint8[2][] memory xs"

theorem grouped_wellFormed :
    (∃ ps, ofString groupedList = .ok ps ∧ ps.map (fun p => p.type.name) = ["address payable", "uint8[2][]"] ∧
      ∀ p ∈ ps, p.IsWellFormed) ∧
      ∃ n ∈ Graph.comparingSum.nodes, n.control "parameters" "" = "uint256 x" ∧
        ∃ ps, ofString (n.control "parameters" "") = .ok ps := by
  constructor
  · have hread : (ofString groupedList).toOption.map (fun ps => ps.map fun p => p.type.name) =
        some ["address payable", "uint8[2][]"] := by decide +kernel
    cases h : ofString groupedList with
    | error f =>
      rw [h] at hread
      cases hread
    | ok ps =>
      rw [h] at hread
      have hnames : ps.map (fun p => p.type.name) = ["address payable", "uint8[2][]"] := Option.some.inj hread
      refine ⟨ps, rfl, hnames, (((isWellFormed_iff_closed groupedList).1 ps h).2.2).2 fun p hp => ?_⟩
      have hclosed : ∀ name ∈ ps.map (fun p => p.type.name), Closed name.toList := by
        rw [hnames]
        decide
      exact hclosed _ (List.mem_map_of_mem hp)
  · obtain ⟨n, hn, hk, htext⟩ : ∃ n ∈ Graph.comparingSum.nodes, Graph.takesParameters n.kind = true ∧
        n.control "parameters" "" = "uint256 x" := by decide +kernel
    refine ⟨n, hn, htext, (isWellFormed_iff_closed _).2 Graph.comparingSum ?_ ?_ n hn hk "parameters" (by simp) rfl⟩
    · decide +kernel
    · decide +kernel

/-- **A bracket that nothing closes is accepted.** -/
theorem unclosed_accepted : ∃ p, ofString "uint8[2 x" = .ok [p] ∧ p.type.name = "uint8[2" ∧ ¬ p.IsWellFormed := by
  have hread : (ofString "uint8[2 x").toOption.map (fun ps => ps.map fun p => p.type.name) = some ["uint8[2"] := by
    decide +kernel
  cases h : ofString "uint8[2 x" with
  | error f =>
    rw [h] at hread
    cases hread
  | ok ps =>
    rw [h] at hread
    obtain ⟨p, rfl, hname⟩ := List.map_eq_singleton_iff.1 (Option.some.inj hread)
    refine ⟨p, rfl, hname, fun hwell => ?_⟩
    have hclosed := hwell.closed
    rw [hname] at hclosed
    exact absurd hclosed (by decide)

end Parameter

end ContractGraph
