/-
Texts of nested blocks: braces match, and every line is indented by the number of braces that are open around it.

Lines are put together from the inside: lines that stand at one depth, whatever blocks they hold, are a block, and a
block between two lines of braces is part of a block one level further out. A block leaves as many braces open as it
found, and never closes one that it did not open, so blocks do not disturb each other.

Results:
- `Block.append`, `Block.line`, `Block.braces`, `Block.branches`: how blocks are put together;
- `LinesAt.one_le`, `Block.matched`: lines never close the outermost brace, and the braces of a block match;
- `blockText_join`: one block between the braces of the outermost one is a text of nested blocks.
-/
import Mathlib.Tactic
import ContractGraph.Source.Statement

namespace ContractGraph

/-! ## Braces -/

/-- how many braces a text leaves open -/
def openBraces (cs : List Char) : Int := cs.count '\x7b' - cs.count '\x7d'

@[simp] theorem openBraces_nil : openBraces [] = 0 := rfl

@[simp] theorem openBraces_append (cs ds : List Char) : openBraces (cs ++ ds) = openBraces cs + openBraces ds := by
  simp only [openBraces, List.count_append]
  push_cast
  ring

/-- a prefix of a text closes no more braces than the text has to close -/
theorem neg_count_le_openBraces {p cs : List Char} (h : p <+: cs) : -(cs.count '\x7d' : Int) ≤ openBraces p := by
  have hle : p.count '\x7d' ≤ cs.count '\x7d' := h.sublist.count_le _
  rw [openBraces]
  omega

/-- the braces of a text match: none is closed before it is opened, and none is left open -/
structure Matched (cs : List Char) : Prop where
  nonneg : ∀ p, p <+: cs → 0 ≤ openBraces p
  closed : openBraces cs = 0

/-- a part of a line: no braces, and no line feed -/
def Plain (s : String) : Prop := ∀ c ∈ s.toList, c ∉ ['\x7b', '\x7d', '\n']

instance (s : String) : Decidable (Plain s) := List.decidableBAll (fun c => c ∉ ['\x7b', '\x7d', '\n']) s.toList

@[simp] theorem plain_append {s t : String} : Plain (s ++ t) ↔ Plain s ∧ Plain t := by
  simp only [Plain, String.toList_append, List.forall_mem_append]

theorem Plain.of_subset {s t : String} (hs : Plain s) (h : t.toList ⊆ s.toList) : Plain t := fun c hc => hs c (h hc)

theorem Plain.notMem {s : String} (hs : Plain s) {c : Char} (hc : c ∈ ['\x7b', '\x7d', '\n']) : c ∉ s.toList :=
  fun h => hs c h hc

theorem Plain.openBraces_eq {s : String} (hs : Plain s) : openBraces s.toList = 0 := by
  rw [openBraces, List.count_eq_zero.2 (hs.notMem (by decide)), List.count_eq_zero.2 (hs.notMem (by decide))]
  rfl

theorem plain_indent (level : Int) : Plain (indent level) := by
  intro c hc
  rw [indent, String.toList_ofList] at hc
  rw [List.eq_of_mem_replicate hc]
  decide

@[simp] theorem openBraces_indent (level : Int) (s : String) :
    openBraces (indent level ++ s).toList = openBraces s.toList := by
  rw [String.toList_append, openBraces_append, (plain_indent level).openBraces_eq, zero_add]

/-! ## Lines -/

/-- the braces that are open where the text of a line begins, after a brace that the line closes first -/
def beginDepth (depth : Int) (line : List Char) : Int :=
  if (line.dropWhile Text.isBlank).head? = some '\x7d' then depth - 1 else depth

/-- a line is indented by the braces that are open where its text begins; a line without text need not be -/
def Indented (depth : Int) (line : List Char) : Prop :=
  (∃ c ∈ line, Text.isBlank c = false) →
    line.takeWhile Text.isBlank = List.replicate (4 * (beginDepth depth line).toNat) ' '

/-- the text of a line, which begins with no blank -/
def Begins (s : String) : Prop := s.toList.head?.any (fun c => !Text.isBlank c) = true

instance (s : String) : Decidable (Begins s) := inferInstanceAs (Decidable (_ = true))

theorem Begins.append {s : String} (h : Begins s) (t : String) : Begins (s ++ t) := by
  rw [Begins, String.toList_append]
  cases hs : s.toList with
  | nil => simp [Begins, hs] at h
  | cons c cs => simpa [Begins, hs] using h

theorem takeWhile_indent (level : Int) {s : String} (hs : Begins s) :
    (indent level ++ s).toList.takeWhile Text.isBlank = List.replicate (4 * level.toNat) ' ' ∧
      (indent level ++ s).toList.dropWhile Text.isBlank = s.toList := by
  have hblank : ∀ c ∈ List.replicate (4 * level.toNat) ' ', Text.isBlank c = true := fun c hc => by
    rw [List.eq_of_mem_replicate hc]
    decide
  rw [String.toList_append, indent, String.toList_ofList, List.takeWhile_append_of_pos hblank,
    List.dropWhile_append_of_pos hblank]
  cases hc : s.toList with
  | nil => simp [Begins, hc] at hs
  | cons c cs =>
    have hcb : Text.isBlank c = false := by simpa [Begins, hc] using hs
    simp [hcb]

/-- a text at a level is indented, if the level is that of the braces that are open where it begins -/
theorem indented_indent {depth level : Int} {s : String} (hs : Begins s)
    (hl : level = if s.toList.head? = some '\x7d' then depth - 1 else depth) :
    Indented depth (indent level ++ s).toList := by
  intro _
  rw [beginDepth, (takeWhile_indent level hs).1, (takeWhile_indent level hs).2, hl]

/-- a line at a depth, or the beginning of one, without braces -/
def TextAt (depth : Int) (l : String) : Prop := ∃ s, Plain s ∧ Begins s ∧ l = indent depth ++ s

section TextAt

variable {depth : Int} {l s : String}

theorem textAt_indent (hs : Plain s) (hb : Begins s) : TextAt depth (indent depth ++ s) := ⟨s, hs, hb, rfl⟩

theorem textAt_zero (hs : Plain s) (hb : Begins s) : TextAt 0 s := ⟨s, hs, hb, String.empty_append.symm⟩

theorem TextAt.append (h : TextAt depth l) (hs : Plain s) : TextAt depth (l ++ s) := by
  obtain ⟨t, ht, hb, rfl⟩ := h
  exact ⟨t ++ s, plain_append.2 ⟨ht, hs⟩, hb.append s, String.append_assoc⟩

theorem TextAt.plain (h : TextAt depth l) : Plain l := by
  obtain ⟨t, ht, -, rfl⟩ := h
  exact plain_append.2 ⟨plain_indent depth, ht⟩

end TextAt

/-- a line of a contract, with the braces that are open before and after it; it closes inner braces only -/
structure LineAt (depth : Int) (line : List Char) (after : Int) : Prop where
  after_eq : after = depth + openBraces line
  oneLine : '\n' ∉ line
  inner : '\x7d' ∈ line → (line.count '\x7d' : Int) < depth
  indented : Indented depth line

theorem LineAt.empty (depth : Int) : LineAt depth [] depth :=
  ⟨by simp, by simp, by simp, fun ⟨_, h, _⟩ => absurd h (by simp)⟩

theorem LineAt.plain {depth : Int} {l : String} (h : TextAt depth l) : LineAt depth l.toList depth := by
  have hp := h.plain
  obtain ⟨s, hs, hb, rfl⟩ := h
  refine ⟨?_, hp.notMem (by decide), fun h => absurd h (hp.notMem (by decide)), indented_indent hb ?_⟩
  · rw [hp.openBraces_eq, add_zero]
  · rw [if_neg fun h => hs.notMem (by decide) (List.mem_of_head? h)]

/-- a line that opens a brace at its end -/
theorem LineAt.opening {depth : Int} {l : String} (h : TextAt depth l) :
    LineAt depth (l ++ " \x7b").toList (depth + 1) := by
  have hp : Plain (l ++ " ") := (h.append (by decide)).plain
  have hl : (l ++ " \x7b").toList = (l ++ " ").toList ++ ['\x7b'] := by simp
  have hn : '\n' ∉ (l ++ " ").toList ++ ['\x7b'] := by simpa using hp.notMem (c := '\n') (by decide)
  have hc : '\x7d' ∉ (l ++ " ").toList ++ ['\x7b'] := by simpa using hp.notMem (c := '\x7d') (by decide)
  refine ⟨?_, hl ▸ hn, fun h => absurd (hl ▸ h) hc, ?_⟩
  · rw [hl, openBraces_append, hp.openBraces_eq]
    rfl
  · obtain ⟨s, -, hb, rfl⟩ := h
    rw [← hl] at hc
    rw [String.append_assoc] at hc ⊢
    refine indented_indent (hb.append _) ?_
    rw [if_neg fun h => hc ?_]
    rw [String.toList_append (s := indent depth)]
    exact List.mem_append_right _ (List.mem_of_head? h)

/-- a line that closes the brace of an inner block first -/
theorem LineAt.closing {level : Int} (hl : 1 ≤ level) {s : String} (hs : s = "\x7d" ∨ s = "\x7d else \x7b") :
    LineAt (level + 1) (indent level ++ s).toList (level + 1 + openBraces s.toList) := by
  have hn : '\n' ∉ (indent level).toList := (plain_indent level).notMem (by decide)
  have hc : (indent level).toList.count '\x7d' = 0 := List.count_eq_zero.2 ((plain_indent level).notMem (by decide))
  refine ⟨by rw [openBraces_indent], ?_, fun _ => ?_, indented_indent ?_ ?_⟩
  · rcases hs with rfl | rfl <;> simp [hn]
  · rcases hs with rfl | rfl <;> simp [hc] <;> omega
  · rcases hs with rfl | rfl <;> decide
  · rcases hs with rfl | rfl <;> simp

/-- lines that stand one after the other, with the braces that are open before and after them -/
inductive LinesAt : Int → List String → Int → Prop where
  | nil (depth : Int) : LinesAt depth [] depth
  | cons {depth next after : Int} {l : String} {ls : List String} (line : LineAt depth l.toList next)
      (rest : LinesAt next ls after) : LinesAt depth (l :: ls) after

section LinesAt

variable {depth next after : Int} {ls ms : List String} {l : String}

theorem LinesAt.single (h : LineAt depth l.toList after) : LinesAt depth [l] after := .cons h (.nil after)

theorem LinesAt.append (h : LinesAt depth ls next) (h' : LinesAt next ms after) : LinesAt depth (ls ++ ms) after := by
  induction h with
  | nil _ => exact h'
  | cons line _ ih => exact .cons line (ih h')

theorem LinesAt.split (h : LinesAt depth (ls ++ ms) after) :
    ∃ next, LinesAt depth ls next ∧ LinesAt next ms after := by
  induction ls generalizing depth with
  | nil => exact ⟨depth, .nil depth, h⟩
  | cons l ls ih =>
    cases h with
    | cons line rest =>
      obtain ⟨next, h, h'⟩ := ih rest
      exact ⟨next, .cons line h, h'⟩

theorem LinesAt.after_eq (h : LinesAt depth ls after) : after = depth + openBraces (ls.flatMap String.toList) := by
  induction h with
  | nil depth => simp
  | cons line _ ih => rw [ih, line.after_eq, List.flatMap_cons, openBraces_append, add_assoc]

/-- a line among others, with the braces that are open before it -/
theorem LinesAt.line (h : LinesAt depth (ls ++ l :: ms) after) :
    ∃ next, LineAt (depth + openBraces (ls.flatMap String.toList)) l.toList next := by
  obtain ⟨next, hls, h⟩ := h.split
  cases h with
  | cons line _ => exact ⟨_, hls.after_eq ▸ line⟩

theorem LinesAt.oneLine (h : LinesAt depth ls after) (hl : l ∈ ls) : '\n' ∉ l.toList := by
  obtain ⟨before, more, rfl⟩ := List.append_of_mem hl
  obtain ⟨_, h⟩ := h.line
  exact h.oneLine

/-- the characters of some lines, each with a line feed after it -/
def chars (ls : List String) : List Char := ls.flatMap fun l => l.toList ++ ['\n']

theorem openBraces_lineFeed (cs : List Char) : openBraces (cs ++ ['\n']) = openBraces cs := by
  rw [openBraces_append]
  exact add_zero _

theorem openBraces_lineFeed_cons (cs : List Char) : openBraces ('\n' :: cs) = openBraces cs := by
  rw [← List.singleton_append, openBraces_append]
  exact zero_add _

theorem openBraces_chars (ls : List String) : openBraces (chars ls) = openBraces (ls.flatMap String.toList) := by
  induction ls with
  | nil => rfl
  | cons l ls ih =>
    rw [chars, List.flatMap_cons, openBraces_append, ← chars, ih, openBraces_lineFeed, List.flatMap_cons,
      openBraces_append]

/-- a prefix of two texts ends in the first of them, or after it -/
theorem prefix_of_append {p cs ds : List Char} (h : p <+: cs ++ ds) : p <+: cs ∨ ∃ q, q <+: ds ∧ p = cs ++ q := by
  rw [← List.mem_inits, List.inits_append, List.mem_append] at h
  rcases h with h | h
  · exact Or.inl ((List.mem_inits _ _).1 h)
  · obtain ⟨q, hq, rfl⟩ := List.mem_map.1 h
    exact Or.inr ⟨q, (List.mem_inits _ _).1 (List.mem_of_mem_tail hq), rfl⟩

/-- nowhere in a line is the outermost brace closed -/
theorem LineAt.one_le {line : List Char} (hd : 1 ≤ depth) (h : LineAt depth line after) {p : List Char}
    (hp : p <+: line ++ ['\n']) : 1 ≤ depth + openBraces p := by
  have hle := neg_count_le_openBraces hp
  rw [List.count_append, show List.count '\x7d' ['\n'] = 0 from rfl, add_zero] at hle
  by_cases hc : '\x7d' ∈ line
  · have := h.inner hc
    omega
  · rw [List.count_eq_zero.2 hc] at hle
    omega

/-- nowhere in lines is the outermost brace closed -/
theorem LinesAt.one_le (hd : 1 ≤ depth) (h : LinesAt depth ls after) {p : List Char} (hp : p <+: chars ls) :
    1 ≤ depth + openBraces p := by
  induction h generalizing p with
  | nil depth =>
    rw [List.prefix_nil.1 hp]
    simpa using hd
  | @cons depth next _ l _ line _ ih =>
    rw [chars, List.flatMap_cons] at hp
    rcases prefix_of_append hp with hp | ⟨q, hq, rfl⟩
    · exact line.one_le hd hp
    · have hnext := line.one_le hd (List.prefix_refl _)
      rw [openBraces_lineFeed, ← line.after_eq] at hnext
      rw [openBraces_append, openBraces_lineFeed, ← add_assoc, ← line.after_eq]
      exact ih hnext hq

end LinesAt

/-! ## Blocks -/

/-- lines at a depth that leave as many braces open as there were -/
def Block (depth : Int) (ls : List String) : Prop := LinesAt depth ls depth

section Block

variable {depth : Int} {ls ms : List String} {l : String}

theorem Block.nil (depth : Int) : Block depth [] := LinesAt.nil depth

theorem Block.append (h : Block depth ls) (h' : Block depth ms) : Block depth (ls ++ ms) := LinesAt.append h h'

theorem Block.empty (depth : Int) : Block depth [""] := .single (LineAt.empty depth)

theorem Block.line (h : TextAt depth l) : Block depth [l] := .single (LineAt.plain h)

theorem Block.flatten {lss : List (List String)} (h : ∀ ls ∈ lss, Block depth ls) : Block depth lss.flatten := by
  induction lss with
  | nil => exact Block.nil depth
  | cons ls lss ih =>
    rw [List.forall_mem_cons] at h
    exact h.1.append (ih h.2)

theorem Block.lines (h : ∀ l ∈ ls, l = "" ∨ TextAt depth l) : Block depth ls := by
  induction ls with
  | nil => exact Block.nil depth
  | cons l ls ih =>
    rw [List.forall_mem_cons] at h
    have hl : Block depth [l] := by
      rcases h.1 with rfl | hl
      · exact Block.empty depth
      · exact Block.line hl
    exact hl.append (ih h.2)

/-- lines between a line that opens a brace and one that closes it -/
theorem Block.braces (hd : 1 ≤ depth) (hl : TextAt depth l) (h : Block (depth + 1) ls) :
    Block depth ((l ++ " \x7b") :: ls ++ [indent depth ++ "\x7d"]) := by
  have hclose : LineAt (depth + 1) (indent depth ++ "\x7d").toList depth := by
    simpa [openBraces] using LineAt.closing hd (Or.inl rfl)
  exact (LinesAt.cons (LineAt.opening hl) h).append (.single hclose)

/-- two blocks of which the second follows on the brace of the first -/
theorem Block.branches (hd : 1 ≤ depth) (hl : TextAt depth l) (h : Block (depth + 1) ls) (h' : Block (depth + 1) ms) :
    Block depth ((l ++ " \x7b") :: ls ++ (indent depth ++ "\x7d else \x7b") :: ms ++ [indent depth ++ "\x7d"]) := by
  have helse : LineAt (depth + 1) (indent depth ++ "\x7d else \x7b").toList (depth + 1) := by
    simpa [openBraces] using LineAt.closing hd (Or.inr rfl)
  have hclose : LineAt (depth + 1) (indent depth ++ "\x7d").toList depth := by
    simpa [openBraces] using LineAt.closing hd (Or.inl rfl)
  exact ((LinesAt.cons (LineAt.opening hl) h).append (.cons helse h')).append (.single hclose)

/-- the braces of a block match; a line feed comes before it -/
theorem Block.matched (h : Block 1 ls) : Matched ('\n' :: chars ls) := by
  refine ⟨fun p hp => ?_, ?_⟩
  · rcases List.prefix_cons_iff.1 hp with rfl | ⟨q, rfl, hq⟩
    · exact le_refl 0
    · have := LinesAt.one_le (le_refl 1) h hq
      rw [openBraces_lineFeed_cons]
      omega
  · have := LinesAt.after_eq h
    rw [openBraces_lineFeed_cons, openBraces_chars]
    omega

end Block

/-! ## Texts of nested blocks -/

/--
A text of nested blocks. Its braces match, the first that it opens is closed at its very end, on a line of its own, and
every line is indented by four blanks for each brace that is open where its text begins.
-/
structure BlockText (text : List Char) : Prop extends Matched text where
  outermost : ∀ p, p <+: text → '\x7b' ∈ p → openBraces p = 0 → p = text
  lastLine : (Text.pieces '\n' text).getLast? = some ['\x7d']
  indented : ∀ before line after, Text.pieces '\n' text = before ++ line :: after → Indented (openBraces before.flatten) line

theorem toList_join_snoc (ls : List String) (l : String) : (Text.join "\n" (ls ++ [l])).toList = chars ls ++ l.toList := by
  induction ls with
  | nil => simp [Text.join, chars]
  | cons m ls ih =>
    have hc : m :: ls ++ [l] = m :: (ls ++ [l]) := rfl
    rw [hc, Text.join, String.intercalate_cons_of_ne_nil (by simp), String.toList_append, ← Text.join, ih]
    simp [chars]

theorem pieces_chars {ls : List String} (hls : ∀ l ∈ ls, '\n' ∉ l.toList) {cs : List Char} (hcs : '\n' ∉ cs) :
    Text.pieces '\n' (chars ls ++ cs) = ls.map String.toList ++ [cs] := by
  induction ls with
  | nil => exact Text.pieces_of_notMem hcs
  | cons l ls ih =>
    rw [List.forall_mem_cons] at hls
    rw [chars, List.flatMap_cons, ← chars, List.append_assoc, List.append_assoc, List.singleton_append,
      Text.pieces_append_cons hls.1, ih hls.2]
    rfl

/-- no brace is in lines that are plain -/
theorem notMem_chars {ls : List String} (h : ∀ l ∈ ls, Plain l) : ∀ c ∈ chars ls, c ∉ ['\x7b', '\x7d'] := by
  intro c hc hbrace
  obtain ⟨l, hl, hc⟩ := List.mem_flatMap.1 hc
  rcases List.mem_append.1 hc with hc | hc
  · exact h l hl c hc (List.mem_append_left ['\n'] hbrace)
  · rw [List.mem_singleton.1 hc] at hbrace
    exact absurd hbrace (by decide)

/-- a brace that is opened first, and closed last -/
theorem outermost_brace {before inside : List Char} (hbefore : ∀ c ∈ before, c ∉ ['\x7b', '\x7d'])
    (h : Matched inside) {p : List Char} (hp : p <+: before ++ '\x7b' :: inside ++ ['\x7d']) :
    0 ≤ openBraces p ∧ ('\x7b' ∈ p → openBraces p = 0 → p = before ++ '\x7b' :: inside ++ ['\x7d']) := by
  have hopen : ∀ cs, openBraces ('\x7b' :: cs) = 1 + openBraces cs := fun cs => openBraces_append ['\x7b'] cs
  have hnone : ∀ q, q <+: before → openBraces q = 0 ∧ '\x7b' ∉ q := fun q hq => by
    have hl : '\x7b' ∉ q := fun h => hbefore _ (hq.subset h) (by decide)
    have hr : '\x7d' ∉ q := fun h => hbefore _ (hq.subset h) (by decide)
    exact ⟨by rw [openBraces, List.count_eq_zero.2 hl, List.count_eq_zero.2 hr]; rfl, hl⟩
  obtain ⟨hzero, hnot⟩ := hnone before (List.prefix_refl _)
  rcases List.prefix_concat_iff.1 hp with rfl | hp
  · have hall : openBraces (before ++ '\x7b' :: inside ++ ['\x7d']) = 0 := by
      rw [openBraces_append, openBraces_append, hopen, hzero, h.closed]
      rfl
    exact ⟨hall.ge, fun _ _ => rfl⟩
  rcases prefix_of_append hp with hp | ⟨q, hq, rfl⟩
  · exact ⟨(hnone p hp).1.ge, fun h => absurd h (hnone p hp).2⟩
  rcases List.prefix_cons_iff.1 hq with rfl | ⟨r, rfl, hr⟩
  · rw [List.append_nil]
    exact ⟨hzero.ge, fun h => absurd h hnot⟩
  · have := h.nonneg r hr
    rw [openBraces_append, hopen, hzero]
    exact ⟨by omega, fun _ h => by omega⟩

/-- the lines of a text are indented, the last of them as well -/
theorem indented_of_pieces {ls : List String} (h : LinesAt 0 ls 1) {before after : List (List Char)} {line : List Char}
    (hp : ls.map String.toList ++ [['\x7d']] = before ++ line :: after) : Indented (openBraces before.flatten) line := by
  rcases List.eq_nil_or_concat' after with rfl | ⟨more, last, rfl⟩
  · obtain ⟨rfl, hline⟩ := List.append_inj' hp rfl
    obtain rfl := (List.cons.inj hline).1
    rw [← List.flatMap_def, ← zero_add (openBraces _), ← h.after_eq]
    exact fun _ => by decide
  · rw [← List.cons_append, ← List.append_assoc] at hp
    obtain ⟨front, back, rfl, rfl, hback⟩ := List.map_eq_append_iff.1 (List.append_inj' hp rfl).1
    obtain ⟨l, rest, rfl, rfl, -⟩ := List.map_eq_cons_iff.1 hback
    obtain ⟨_, hl⟩ := h.line
    rw [zero_add] at hl
    rw [← List.flatMap_def]
    exact hl.indented

/-- lines without braces, and then one block between two braces -/
theorem blockText_join {pre inner : List String} {head : String} (hpre : Block 0 pre) (hplain : ∀ l ∈ pre, Plain l)
    (hhead : TextAt 0 head) (h : Block 1 inner) :
    BlockText (Text.join "\n" (pre ++ (head ++ " \x7b") :: inner ++ ["\x7d"])).toList := by
  have hlines : LinesAt 0 (pre ++ (head ++ " \x7b") :: inner) 1 := LinesAt.append hpre (.cons (LineAt.opening hhead) h)
  have hpieces := pieces_chars (fun l hl => hlines.oneLine hl) (show '\n' ∉ ['\x7d'] by decide)
  have hbefore : ∀ c ∈ chars pre ++ (head ++ " ").toList, c ∉ ['\x7b', '\x7d'] := by
    have hs : Plain (head ++ " ") := (hhead.append (by decide)).plain
    exact List.forall_mem_append.2
      ⟨notMem_chars hplain, fun c hc hbrace => hs c hc (List.mem_append_left ['\n'] hbrace)⟩
  have hchars : chars (pre ++ (head ++ " \x7b") :: inner) ++ ['\x7d'] =
      (chars pre ++ (head ++ " ").toList) ++ '\x7b' :: ('\n' :: chars inner) ++ ['\x7d'] := by
    simp [chars]
  have houter : ∀ p, p <+: chars (pre ++ (head ++ " \x7b") :: inner) ++ ['\x7d'] → 0 ≤ openBraces p ∧
      ('\x7b' ∈ p → openBraces p = 0 → p = chars (pre ++ (head ++ " \x7b") :: inner) ++ ['\x7d']) := by
    rw [hchars]
    exact fun p => outermost_brace hbefore h.matched
  have hclosed : openBraces (chars (pre ++ (head ++ " \x7b") :: inner) ++ ['\x7d']) = 0 := by
    rw [openBraces_append, openBraces_chars, ← zero_add (openBraces (List.flatMap _ _)), ← hlines.after_eq]
    decide
  rw [toList_join_snoc]
  refine ⟨⟨fun p hp => (houter p hp).1, hclosed⟩, fun p hp => (houter p hp).2, ?_, fun before line after hl => ?_⟩
  · exact hpieces ▸ List.getLast?_concat
  · exact indented_of_pieces hlines (hpieces ▸ hl)

end ContractGraph
