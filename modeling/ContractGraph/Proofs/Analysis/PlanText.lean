/-
The lines of a plan, read without regard to how they are written.

A node's line has its number in two digits or more, its id, the label of its kind between brackets, and its name, if it
has one; a connection's line has an arrow, its target, and its two ports (`IsNodeLine`, `IsWireLine`). A reader of plans
needs less: it knows a connection's line by the arrow, and finds everything else at the first point, bracket or angle. So
a plan can be read as long as no id holds a bracket or a parenthesis, no output an angle, and nothing a line feed.

Results:
- `isNodeLine_nodeLine`, `isWireLine_wireLine`: the lines of nodes and connections have this form;
- `readNode_nodeLine`, `readWire?_wireLine`: number and id, target and ports are read from them;
- `readItems_flatMap`: so the lines of entries are read as the entries;
- `readPlan_join`: and so is the text that they make below a header.
-/
import ContractGraph.Analysis.Plan
import ContractGraph.Proofs.Text.Words

namespace ContractGraph.Plan

/-- what is listed under one number: a node and the connections that leave it -/
structure Entry where
  node : Node
  out : List Connection

/-- the lines of an entry under a number -/
def Entry.lines (number : Nat) (e : Entry) : List String := nodeLine number e.node :: e.out.map wireLine

/-! ## The form of the lines -/

/-- the name of a node, or of its variable -/
def nameOf (n : Node) : String := n.control "name" (n.control "variable" "")

/-- a line that shows a node under a number: the number is written with two digits or more, and a name that is not empty
stands at the end -/
def IsNodeLine (number : Nat) (n : Node) (line : String) : Prop :=
  ∃ digits ending : String,
    line = digits ++ ". " ++ n.id ++ " [" ++ Palette.label n.kind ++ "]" ++ ending ∧
      2 ≤ digits.toList.length ∧ (∀ c ∈ digits.toList, c.isDigit = true) ∧ Text.numeral digits.toList = number ∧
      (nameOf n = "" ∧ ending = "" ∨ nameOf n ≠ "" ∧ ending = " " ++ nameOf n)

/-- a line that shows a connection -/
def IsWireLine (c : Connection) (line : String) : Prop :=
  line = "    └─▶ " ++ c.target ++ "  (" ++ c.output ++ "->" ++ c.input ++ ")"

/-- lines that show an entry under a number: its node first, and then its connections, one by one -/
def Entry.StandsIn (number : Nat) (e : Entry) : List String → Prop
  | [] => False
  | first :: rest => IsNodeLine number e.node first ∧ List.Forall₂ IsWireLine e.out rest

theorem isNodeLine_nodeLine (number : Nat) (n : Node) : IsNodeLine number n (nodeLine number n) := by
  refine ⟨Text.padded 2 number, _, rfl, Text.le_length_padded 2 number, Text.isDigit_of_mem_padded,
    Text.numeral_padded 2 number, ?_⟩
  by_cases hname : nameOf n = ""
  · exact .inl ⟨hname, if_pos hname⟩
  · exact .inr ⟨hname, if_neg hname⟩

theorem isWireLine_wireLine (c : Connection) : IsWireLine c (wireLine c) := rfl

theorem Entry.standsIn_lines (number : Nat) (e : Entry) : e.StandsIn number (e.lines number) := by
  refine ⟨isNodeLine_nodeLine number e.node, ?_⟩
  rw [List.forall₂_map_right_iff]
  exact List.forall₂_same.2 fun c _ => isWireLine_wireLine c

/-! ## Reading -/

/-- what a connection's line tells -/
structure ReadWire where
  target : String
  output : String
  input : String
deriving DecidableEq, Repr

/-- what a node's line tells, and the connections' lines below it -/
structure ReadEntry where
  number : Nat
  id : String
  out : List ReadWire
deriving DecidableEq, Repr

/-- a text before the first character of a kind, and behind it -/
def cut (c : Char) (cs : List Char) : List Char × List Char := (cs.takeWhile (· ≠ c), (cs.dropWhile (· ≠ c)).tail)

theorem cut_append {c : Char} {a : List Char} (h : c ∉ a) (b : List Char) : cut c (a ++ c :: b) = (a, b) := by
  have ha : ∀ d ∈ a, decide (d ≠ c) = true := fun d hd => decide_eq_true fun e => h (e ▸ hd)
  rw [cut, List.takeWhile_append_of_pos ha, List.dropWhile_append_of_pos ha, List.takeWhile_cons, List.dropWhile_cons]
  simp

/-- what stands before the target of a connection -/
def arrow : List Char := [' ', ' ', ' ', ' ', '└', '─', '▶', ' ']

/-- the connection of a line; it has an arrow, two spaces and a parenthesis behind the target, an angle between the
ports, and a parenthesis at the end -/
def readWire? (cs : List Char) : Option ReadWire :=
  if arrow.isPrefixOf cs then
    let (target, ports) := cut '(' (cs.drop arrow.length)
    let (output, input) := cut '>' ports
    some ⟨.ofList target.dropLast.dropLast, .ofList output.dropLast, .ofList input.dropLast⟩
  else none

/-- the number and the id of a node's line; a point stands behind the number, and a bracket behind the id -/
def readNode (cs : List Char) : Nat × String :=
  let (digits, rest) := cut '.' cs
  (Text.numeral digits, .ofList (cut '[' rest.tail).1.dropLast)

/-- the entries of lines, and the connections of the lines before the first node -/
def readItems : List (List Char) → List ReadWire × List ReadEntry
  | [] => ([], [])
  | line :: lines =>
    let (wires, entries) := readItems lines
    match readWire? line with
    | some w => (w :: wires, entries)
    | none => ([], ⟨(readNode line).1, (readNode line).2, wires⟩ :: entries)

/-- the header and the entries of a plan -/
def readPlan (text : String) : String × List ReadEntry :=
  match Text.pieces '\n' text.toList with
  | header :: lines => (.ofList header, (readItems lines).2)
  | [] => ("", [])

/-! ## What is read of the lines -/

/-- a connection whose line can be read -/
structure IsLegibleWire (c : Connection) : Prop where
  target : '(' ∉ c.target.toList ∧ '\n' ∉ c.target.toList
  output : '>' ∉ c.output.toList ∧ '\n' ∉ c.output.toList
  input : '\n' ∉ c.input.toList

/-- a node whose line can be read -/
structure IsLegibleNode (n : Node) : Prop where
  id : '[' ∉ n.id.toList ∧ '\n' ∉ n.id.toList
  name : '\n' ∉ (nameOf n).toList

/-- an entry whose lines can be read -/
structure Entry.IsLegible (e : Entry) : Prop where
  node : IsLegibleNode e.node
  out : ∀ c ∈ e.out, IsLegibleWire c

/-- what is read of a connection -/
def ReadWire.of (c : Connection) : ReadWire := ⟨c.target, c.output, c.input⟩

/-- what is read of an entry -/
def ReadEntry.of (number : Nat) (e : Entry) : ReadEntry := ⟨number, e.node.id, e.out.map .of⟩

theorem toList_wireLine (c : Connection) :
    (wireLine c).toList = arrow ++ (c.target.toList ++ [' ', ' '] ++ '(' ::
      (c.output.toList ++ ['-'] ++ '>' :: (c.input.toList ++ [')']))) := by
  have hline : wireLine c = "    └─▶ " ++ c.target ++ "  (" ++ c.output ++ "->" ++ c.input ++ ")" :=
    isWireLine_wireLine c
  rw [hline]
  simp [arrow]

theorem readWire?_wireLine {c : Connection} (h : IsLegibleWire c) : readWire? (wireLine c).toList = some (.of c) := by
  have htarget : '(' ∉ c.target.toList ++ [' ', ' '] := by simp [h.target.1]
  have houtput : '>' ∉ c.output.toList ++ ['-'] := by simp [h.output.1]
  have harrow (cs : List Char) : arrow.isPrefixOf (arrow ++ cs) = true :=
    List.isPrefixOf_iff_prefix.2 (List.prefix_append arrow cs)
  rw [toList_wireLine, readWire?, if_pos (harrow _), List.drop_left, cut_append htarget]
  simp only [cut_append houtput]
  simp [ReadWire.of]

theorem toList_nodeLine (number : Nat) (n : Node) :
    ∃ rest, (nodeLine number n).toList =
      (Text.padded 2 number).toList ++ '.' :: ' ' :: (n.id.toList ++ [' '] ++ '[' :: rest) := by
  obtain ⟨ending, hending⟩ : ∃ ending, nodeLine number n =
      Text.padded 2 number ++ ". " ++ n.id ++ " [" ++ Palette.label n.kind ++ "]" ++ ending := ⟨_, rfl⟩
  refine ⟨(Palette.label n.kind).toList ++ ']' :: ending.toList, ?_⟩
  rw [hending]
  simp [String.toList_append]

theorem readNode_nodeLine {n : Node} (h : IsLegibleNode n) (number : Nat) :
    readNode (nodeLine number n).toList = (number, n.id) := by
  obtain ⟨rest, hrest⟩ := toList_nodeLine number n
  have hpoint : '.' ∉ (Text.padded 2 number).toList := fun hp => absurd (Text.isDigit_of_mem_padded _ hp) (by decide)
  have hid : '[' ∉ n.id.toList ++ [' '] := by simp [h.id.1]
  rw [hrest, readNode, cut_append hpoint]
  simp only [List.tail_cons, cut_append hid, Text.numeral_padded]
  simp

/-- a node's line begins with a digit, so it is not taken for a connection's -/
theorem readWire?_nodeLine (number : Nat) (n : Node) : readWire? (nodeLine number n).toList = none := by
  obtain ⟨rest, hrest⟩ := toList_nodeLine number n
  obtain ⟨d, ds, hdigits⟩ :=
    List.exists_cons_of_length_pos (Nat.lt_of_lt_of_le Nat.two_pos (Text.le_length_padded 2 number))
  have hd : d.isDigit = true := Text.isDigit_of_mem_padded d (hdigits ▸ List.mem_cons_self)
  have hspace : (' ' == d) = false := beq_eq_false_iff_ne.2 fun e => absurd (e ▸ hd) (by decide)
  rw [hrest, hdigits, readWire?, List.cons_append, if_neg]
  rw [arrow, List.isPrefixOf, hspace]
  simp

/-- the lines of entries are read as the entries -/
theorem readItems_flatMap {entries : List (Entry × Nat)} (h : ∀ e ∈ entries, e.1.IsLegible) :
    readItems ((entries.flatMap fun e => e.1.lines e.2).map String.toList) =
      ([], entries.map fun e => .of e.2 e.1) := by
  have hwires (cs : List Connection) (hcs : ∀ c ∈ cs, IsLegibleWire c) (lines : List (List Char)) :
      readItems ((cs.map wireLine).map String.toList ++ lines) =
        (cs.map .of ++ (readItems lines).1, (readItems lines).2) := by
    induction cs with
    | nil => rfl
    | cons c cs ih =>
      obtain ⟨hc, hcs⟩ := List.forall_mem_cons.1 hcs
      rw [List.map_cons, List.map_cons, List.cons_append, readItems, ih hcs, readWire?_wireLine hc]
      rfl
  induction entries with
  | nil => rfl
  | cons e entries ih =>
    obtain ⟨he, hentries⟩ := List.forall_mem_cons.1 h
    rw [List.flatMap_cons, Entry.lines, List.cons_append, List.map_cons, List.map_append, readItems,
      hwires _ he.out, ih hentries, readWire?_nodeLine, readNode_nodeLine he.node, List.append_nil]
    rfl

/-! ## The whole text -/

theorem notMem_label (k : Kind) : '\n' ∉ (Palette.label k).toList := by
  cases k <;> decide

theorem notMem_nodeLine {n : Node} (h : IsLegibleNode n) (number : Nat) : '\n' ∉ (nodeLine number n).toList := by
  obtain ⟨digits, ending, hline, -, hdigits, -, hending⟩ := isNodeLine_nodeLine number n
  have hfeed : '\n' ∉ digits.toList := fun hf => absurd (hdigits _ hf) (by decide)
  have hname : '\n' ∉ ending.toList := by
    rcases hending with ⟨-, rfl⟩ | ⟨-, rfl⟩ <;> simp [h.name]
  rw [hline]
  simp [hfeed, hname, h.id.2, notMem_label]

theorem notMem_wireLine {c : Connection} (h : IsLegibleWire c) : '\n' ∉ (wireLine c).toList := by
  rw [toList_wireLine]
  simp [arrow, h.target.2, h.output.2, h.input]

/-- a plan is read as its header and its entries -/
theorem readPlan_join {header : String} (hheader : '\n' ∉ header.toList) {entries : List (Entry × Nat)}
    (h : ∀ e ∈ entries, e.1.IsLegible) :
    readPlan (Text.join "\n" (header :: entries.flatMap fun e => e.1.lines e.2)) =
      (header, entries.map fun e => .of e.2 e.1) := by
  have hlines : ∀ line ∈ header :: entries.flatMap fun e => e.1.lines e.2, '\n' ∉ line.toList := by
    rw [List.forall_mem_cons]
    refine ⟨hheader, fun line hline => ?_⟩
    obtain ⟨e, he, hline⟩ := List.mem_flatMap.1 hline
    rcases List.mem_cons.1 hline with rfl | hline
    · exact notMem_nodeLine (h e he).node e.2
    · obtain ⟨c, hc, rfl⟩ := List.mem_map.1 hline
      exact notMem_wireLine ((h e he).out c hc)
  have hpieces := Text.pieces_join (List.cons_ne_nil header _) hlines
  rw [readPlan, show "\n" = String.singleton '\n' from rfl, hpieces, List.map_cons]
  simp only [readItems_flatMap h, String.ofList_toList]

end ContractGraph.Plan
