/-
Titles of sections: what the choice of comments changes in a source.

A section that is written ends with a line that is not empty. So of the empty lines behind the sections only the one
behind the last section stands at the end and is dropped; and the source is its opening lines, the written sections with
one empty line between neighbours, and the closing brace. A title is one more line at the start of its section.

Results:
- `endsFull_of_mem_sections`: the last line of a section;
- `lines_spaced`: the lines of a source, section by section;
- `rows_join`, `rows_spaced`: the same lines read off the text, where a field with line feeds takes several of them;
- `emit_comments`: with comments there is one line more for each written section, right before it, and no other change.
-/
import ContractGraph.Proofs.Source.Skeleton
import ContractGraph.Proofs.Text.Words

namespace ContractGraph.Source

variable {g : Graph} {o : EmissionOptions}

/-! ## Lines that do not end with an empty line -/

/-- lines of which the last one is not empty -/
def EndsFull (ls : List String) : Prop := ∃ before l, ls = before ++ [l] ∧ l ≠ ""

section EndsFull

variable {ls : List String}

theorem append_ne_empty (s : String) {t : String} (ht : t ≠ "") : s ++ t ≠ "" :=
  fun h => ht (String.append_eq_empty_iff.1 h).2

theorem endsFull_append_singleton (before : List String) {l : String} (hl : l ≠ "") : EndsFull (before ++ [l]) :=
  ⟨before, l, rfl, hl⟩

theorem EndsFull.append (h : EndsFull ls) (before : List String) : EndsFull (before ++ ls) := by
  obtain ⟨inner, l, rfl, hl⟩ := h
  rw [← List.append_assoc]
  exact endsFull_append_singleton _ hl

theorem endsFull_of_forall (hne : ls ≠ []) (h : ∀ l ∈ ls, l ≠ "") : EndsFull ls :=
  ⟨ls.dropLast, ls.getLast hne, (List.dropLast_append_getLast hne).symm, h _ (List.getLast_mem hne)⟩

/-- only the empty line behind them is dropped -/
theorem EndsFull.dropEmptyEnd_append (h : EndsFull ls) : dropEmptyEnd (ls ++ [""]) = ls := by
  obtain ⟨before, l, rfl, hl⟩ := h
  have hempty : dropEmptyEnd [""] = [] := by decide
  rw [List.append_assoc, List.singleton_append, dropEmptyEnd_append_cons before [""] hl, hempty]

theorem spaced_cons_cons (ls ms : List String) (groups : List (List String)) :
    spaced (ls :: ms :: groups) = ls ++ "" :: spaced (ms :: groups) := rfl

/-- groups with an empty line behind each are the groups with an empty line between neighbours, and one at the end -/
theorem flatMap_append_empty {groups : List (List String)} (hne : groups ≠ []) :
    (groups.flatMap fun ls => ls ++ [""]) = spaced groups ++ [""] := by
  induction groups with
  | nil => exact absurd rfl hne
  | cons ls groups ih =>
    cases groups with
    | nil => simp [spaced]
    | cons ms groups =>
      rw [List.flatMap_cons, ih (List.cons_ne_nil ms groups), spaced_cons_cons]
      simp

theorem endsFull_spaced {groups : List (List String)} (hne : groups ≠ []) (h : ∀ ls ∈ groups, EndsFull ls) :
    EndsFull (spaced groups) := by
  induction groups with
  | nil => exact absurd rfl hne
  | cons ls groups ih =>
    cases groups with
    | nil => exact h ls List.mem_cons_self
    | cons ms groups =>
      have hrest := ih (List.cons_ne_nil ms groups) fun k hk => h k (List.mem_cons_of_mem ls hk)
      exact (hrest.append [""]).append ls

/-- spaced groups are empty only without groups -/
theorem endsFull_spaced_of_ne_nil {groups : List (List String)} (hne : spaced groups ≠ [])
    (h : ∀ ls ∈ groups, EndsFull ls) : EndsFull (spaced groups) := by
  refine endsFull_spaced ?_ h
  rintro rfl
  exact hne rfl

end EndsFull

/-! ## Sections -/

theorem declaration_ne_empty (n : Node) : declaration n ≠ "" := by
  unfold declaration
  split <;> exact append_ne_empty _ (by decide)

theorem endsFull_stateVariables (hne : stateVariables g ≠ []) : EndsFull (stateVariables g) :=
  endsFull_of_forall hne (List.forall_mem_map.2 fun n _ => declaration_ne_empty n)

theorem endsFull_events (hne : events g ≠ []) : EndsFull (events g) :=
  endsFull_of_forall hne (List.forall_mem_map.2 fun _ _ => append_ne_empty _ (by decide))

theorem endsFull_constructorLines (hne : constructorLines g ≠ []) : EndsFull (constructorLines g) := by
  simp only [constructorLines] at hne ⊢
  split at hne
  · exact absurd rfl hne
  · next hwritten =>
    rw [if_neg hwritten]
    exact endsFull_append_singleton _ (append_ne_empty _ (by decide))

theorem endsFull_functions (hne : functions g ≠ []) : EndsFull (functions g) :=
  endsFull_spaced_of_ne_nil hne
    (List.forall_mem_map.2 fun _ _ => endsFull_append_singleton _ (append_ne_empty _ (by decide)))

theorem endsFull_oneLiner (head statement : String) : EndsFull (oneLiner head statement) :=
  endsFull_append_singleton [indent 1 ++ "function " ++ head ++ " \x7b", indent 2 ++ statement]
    (append_ne_empty _ (by decide))

theorem endsFull_templateParts (hne : templateParts g ≠ []) : EndsFull (templateParts g) := by
  have hdecimals : ∀ n, ∀ ls ∈ decimalsPart n, EndsFull ls := by
    intro n ls hls
    simp only [decimalsPart] at hls
    split at hls
    · cases hls
    · rw [List.mem_singleton.1 hls]
      exact endsFull_oneLiner _ _
  have hcollection : ∀ n, ∀ ls ∈ collectionParts n, EndsFull ls := by
    intro n ls hls
    rcases List.mem_append.1 hls with hls | hls
    · split at hls
      · cases hls
      · rw [List.mem_singleton.1 hls]
        exact endsFull_oneLiner _ _
    · rw [List.mem_singleton.1 hls]
      exact endsFull_oneLiner _ _
  refine endsFull_spaced_of_ne_nil hne fun ls hls => ?_
  rcases List.mem_append.1 hls with hls | hls
  · cases ht : template? g .erc20 with
    | none => simp [ht] at hls
    | some n => exact hdecimals n ls (by simpa [ht] using hls)
  · cases ht : template? g .erc721 with
    | none => simp [ht] at hls
    | some n => exact hcollection n ls (by simpa [ht] using hls)

theorem endsFull_of_mem_sections {s : Section} (hs : s ∈ sections g) (hne : s.lines ≠ []) : EndsFull s.lines := by
  simp only [sections, List.mem_cons, List.not_mem_nil, or_false] at hs
  rcases hs with rfl | rfl | rfl | rfl | rfl
  · exact endsFull_stateVariables hne
  · exact endsFull_events hne
  · exact endsFull_constructorLines hne
  · exact endsFull_functions hne
  · exact endsFull_templateParts hne

/-! ## Sections that are written -/

/-- the sections that are written: those that are not empty, in their order -/
def written (g : Graph) : List Section := (sections g).filter fun s => s.lines ≠ []

/-- the line with a section's title -/
def titleLine (s : Section) : String := indent 1 ++ "// " ++ s.title

/-- the lines of a section that is written, with or without its title -/
def titled (comments : Bool) (s : Section) : List String := (if comments then [titleLine s] else []) ++ s.lines

/-- the titles of the five sections -/
def sectionTitles : List String :=
  ["State variables", "Events", "Constructor", "Functions", "Template implementations"]

theorem map_title_sections (g : Graph) : (sections g).map Section.title = sectionTitles := rfl

theorem notMem_titleLine : ∀ t ∈ sectionTitles, '\n' ∉ (indent 1 ++ "// " ++ t).toList := by decide

theorem flatMap_sectionLines (comments : Bool) (ss : List Section) :
    ss.flatMap (sectionLines comments) =
      ((ss.filter fun s => s.lines ≠ []).map (titled comments)).flatMap fun ls => ls ++ [""] := by
  induction ss with
  | nil => rfl
  | cons s ss ih =>
    rw [List.flatMap_cons, ih, sectionLines]
    by_cases hs : s.lines = []
    · rw [if_pos hs, List.filter_cons_of_neg (by simpa using hs), List.nil_append]
    · rw [if_neg hs, List.filter_cons_of_pos (by simpa using hs)]
      rfl

/-- the lines before the first section that is written; without one, there is no empty line after the contract's head -/
def opening (g : Graph) (o : EmissionOptions) : List String :=
  if written g = [] then prologue g o ++ [contractHead g o ++ " \x7b"] else preamble g o

theorem lines_spaced (g : Graph) (o : EmissionOptions) :
    lines g o = opening g o ++ spaced ((written g).map (titled o.comments)) ++ ["\x7d"] := by
  have hhead : contractHead g o ++ " \x7b" ≠ "" := append_ne_empty _ (by decide)
  rw [lines, flatMap_sectionLines, ← written, opening]
  congr 1
  by_cases hw : written g = []
  · rw [if_pos hw, hw, preamble_eq]
    simpa [spaced] using (endsFull_append_singleton (prologue g o) hhead).dropEmptyEnd_append
  · have hgroups : (written g).map (titled o.comments) ≠ [] := mt List.map_eq_nil_iff.1 hw
    have hfull : EndsFull (spaced ((written g).map (titled o.comments))) := by
      refine endsFull_spaced hgroups (List.forall_mem_map.2 fun s hs => ?_)
      obtain ⟨hs, hne⟩ := List.mem_filter.1 hs
      exact (endsFull_of_mem_sections hs (by simpa using hne)).append _
    rw [if_neg hw, flatMap_append_empty hgroups, ← List.append_assoc]
    exact (hfull.append _).dropEmptyEnd_append

/-! ## Lines of the text -/

/-- the lines of a text, parted at its line feeds -/
def rows (s : String) : List String := (Text.pieces '\n' s.toList).map .ofList

theorem rows_of_notMem {s : String} (h : '\n' ∉ s.toList) : rows s = [s] := by
  rw [rows, Text.pieces_of_notMem h, List.map_singleton, String.ofList_toList]

/-- lines that are put together with line feeds are parted again, and further where they hold line feeds themselves -/
theorem rows_join {ls : List String} (hne : ls ≠ []) : rows (Text.join "\n" ls) = ls.flatMap rows := by
  induction ls with
  | nil => exact absurd rfl hne
  | cons l ls ih =>
    cases ls with
    | nil => rw [Text.join_singleton, List.flatMap_singleton]
    | cons m ls =>
      have hfeed : "\n".toList = ['\n'] := rfl
      rw [rows, Text.toList_join_cons, hfeed, List.singleton_append, Text.pieces_append_sep, List.map_append, ← rows,
        ← rows, ih (List.cons_ne_nil m ls), List.flatMap_cons (x := l)]

theorem rows_spaced (groups : List (List String)) :
    (spaced groups).flatMap rows = spaced (groups.map fun ls => ls.flatMap rows) := by
  induction groups with
  | nil => rfl
  | cons ls groups ih =>
    cases groups with
    | nil => rfl
    | cons ms groups =>
      have hempty : rows "" = [""] := by decide
      rw [spaced_cons_cons, List.flatMap_append, List.flatMap_cons, ih, hempty]
      rfl

/-- the lines of the source, section by section; a title is one line -/
theorem rows_emit (g : Graph) (o : EmissionOptions) :
    rows (emit g o) = (opening g o).flatMap rows ++
      spaced ((written g).map fun s => (if o.comments then [titleLine s] else []) ++ s.lines.flatMap rows) ++ ["\x7d"] := by
  have htitle : ∀ s ∈ sections g, rows (titleLine s) = [titleLine s] := fun s hs =>
    rows_of_notMem (notMem_titleLine s.title (map_title_sections g ▸ List.mem_map_of_mem hs))
  have hclose : rows "\x7d" = ["\x7d"] := by decide
  have hgroups : ((written g).map (titled o.comments)).map (fun ls => ls.flatMap rows) =
      (written g).map fun s => (if o.comments then [titleLine s] else []) ++ s.lines.flatMap rows := by
    rw [List.map_map]
    refine List.map_congr_left fun s hs => ?_
    have hs := htitle s (List.mem_of_mem_filter hs)
    rw [Function.comp_apply, titled, List.flatMap_append]
    split <;> simp [hs]
  rw [emit, lines_spaced, rows_join (by simp), List.flatMap_append, List.flatMap_append, rows_spaced, hgroups,
    List.flatMap_singleton, hclose]

/-! ## With and without comments -/

/-- **Comments only add titles.** The sections that are written are some of the five, in their order. The lines of the
source without comments are opening lines, the lines of each written section with one empty line between neighbours, and
the closing brace. With comments they are the same opening lines, the same lines of each written section with its title
right before the first of them, and the closing brace. This is true of the lines that are put together, and of the lines
that the text then has when fields hold line feeds. -/
theorem emit_comments (g : Graph) (o : EmissionOptions) :
    ((written g).map Section.title).Sublist sectionTitles ∧
    (∃ first,
      lines g { o with comments := false } = first ++ spaced ((written g).map Section.lines) ++ ["\x7d"] ∧
      lines g { o with comments := true } =
        first ++ spaced ((written g).map fun s => titleLine s :: s.lines) ++ ["\x7d"]) ∧
    ∃ first,
      rows (emit g { o with comments := false }) =
        first ++ spaced ((written g).map fun s => s.lines.flatMap rows) ++ ["\x7d"] ∧
      rows (emit g { o with comments := true }) =
        first ++ spaced ((written g).map fun s => titleLine s :: s.lines.flatMap rows) ++ ["\x7d"] := by
  refine ⟨?_, ⟨opening g o, ?_, ?_⟩, (opening g o).flatMap rows, ?_, ?_⟩
  · rw [← map_title_sections g]
    exact List.filter_sublist.map Section.title
  · exact lines_spaced g { o with comments := false }
  · exact lines_spaced g { o with comments := true }
  · exact rows_emit g { o with comments := false }
  · exact rows_emit g { o with comments := true }

end ContractGraph.Source
