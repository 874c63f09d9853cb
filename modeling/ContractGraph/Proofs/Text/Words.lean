/-
Words, and texts that are put together from others.

A text is cut into words at its blanks. Two texts with a blank between them have the words of both, which tells the words
of a text that is put together from others.

Results:
- `words_append_cons`: a blank parts the words on both sides of it;
- `isWord_of_mem_words`, `words_of_isWord`: words are the texts that are not empty and have no blank;
- `flatten_words`: no character is lost but blanks;
- `words_eq_nil_iff`, `trim_eq_nil_iff`: a blank text is the one without words, and the one that trimming leaves nothing of;
- `of_mem_pieces`, `eq_of_pieces`: what is in the pieces of a text, and how they make it up;
- `words_join`, `words_pieces_join`: the words of texts that are put together with blanks, and with commas and blanks.
-/
import ContractGraph.Proofs.Text.Trimmed

namespace ContractGraph.Text

/-- a text that is not empty and has no blank -/
structure IsWord (w : List Char) : Prop where
  ne_nil : w ≠ []
  unbroken : ∀ c ∈ w, isBlank c = false

theorem IsWord.line {w : List Char} (h : IsWord w) : '\n' ∉ w := fun hc => absurd (h.unbroken _ hc) (by decide)

/-! ## Cutting a text into words -/

theorem words_cons (c : Char) (cs : List Char) :
    words (c :: cs) =
      if isBlank c then words cs
      else match cs with
        | [] => [[c]]
        | d :: _ =>
          if isBlank d then [c] :: words cs
          else match words cs with
            | [] => [[c]]
            | w :: ws => (c :: w) :: ws := rfl

theorem words_cons_of_isBlank {c : Char} (h : isBlank c = true) (cs : List Char) : words (c :: cs) = words cs := by
  rw [words_cons, if_pos h]

theorem words_singleton {c : Char} (h : isBlank c = false) : words [c] = [[c]] := by
  rw [words_cons, if_neg (by simp [h])]

/-- a character with a blank behind it is the end of a word -/
theorem words_cons_blank {c b : Char} (hc : isBlank c = false) (hb : isBlank b = true) (cs : List Char) :
    words (c :: b :: cs) = [c] :: words cs := by
  rw [words_cons, if_neg (by simp [hc])]
  simp only [hb, if_true, words_cons_of_isBlank hb]

/-- a text that starts with no blank has a word -/
theorem words_ne_nil {c : Char} (h : isBlank c = false) (cs : List Char) : words (c :: cs) ≠ [] := by
  rw [words_cons, if_neg (by simp [h])]
  split
  · simp
  · split
    · simp
    · split <;> simp

/-- a character that is no blank goes on in the word behind it -/
theorem words_cons_cons {c d : Char} (hc : isBlank c = false) (hd : isBlank d = false) (cs : List Char) :
    ∃ w ws, words (d :: cs) = w :: ws ∧ words (c :: d :: cs) = (c :: w) :: ws := by
  obtain ⟨w, ws, hws⟩ := List.exists_cons_of_ne_nil (words_ne_nil hd cs)
  refine ⟨w, ws, hws, ?_⟩
  rw [words_cons, if_neg (by simp [hc])]
  simp only [hd, hws, Bool.false_eq_true, if_false]

/-- **A blank parts words.** Two texts with a blank between them have the words of both. -/
theorem words_append_cons {b : Char} (hb : isBlank b = true) (cs ds : List Char) :
    words (cs ++ b :: ds) = words cs ++ words ds := by
  induction cs with
  | nil => exact words_cons_of_isBlank hb ds
  | cons c cs ih =>
    cases hc : isBlank c with
    | true => rw [List.cons_append, words_cons_of_isBlank hc, words_cons_of_isBlank hc, ih]
    | false =>
      cases cs with
      | nil =>
        rw [List.singleton_append, words_cons_blank hc hb, words_singleton hc, List.singleton_append]
      | cons d cs =>
        cases hd : isBlank d with
        | true =>
          rw [List.cons_append, words_cons_of_isBlank hd, words_cons_of_isBlank hd] at ih
          rw [List.cons_append, List.cons_append, words_cons_blank hc hd, words_cons_blank hc hd, ih, List.cons_append]
        | false =>
          obtain ⟨w, ws, hws, hword⟩ := words_cons_cons hc hd cs
          obtain ⟨w', ws', hws', hword'⟩ := words_cons_cons hc hd (cs ++ b :: ds)
          rw [List.cons_append, hws', hws] at ih
          obtain ⟨rfl, hrest⟩ := List.cons.inj ih
          rw [List.cons_append, List.cons_append, hword', hword, hrest, List.cons_append]
          rfl

theorem isWord_of_mem_words {cs w : List Char} (h : w ∈ words cs) : IsWord w := by
  induction cs generalizing w with
  | nil => cases h
  | cons c cs ih =>
    cases hc : isBlank c with
    | true => exact ih (words_cons_of_isBlank hc cs ▸ h)
    | false =>
      have hsingle : IsWord [c] := ⟨List.cons_ne_nil c [], by simpa using hc⟩
      cases cs with
      | nil =>
        rw [words_singleton hc, List.mem_singleton] at h
        exact h ▸ hsingle
      | cons d cs =>
        cases hd : isBlank d with
        | true =>
          rw [words_cons_blank hc hd] at h
          rcases List.mem_cons.1 h with rfl | h
          · exact hsingle
          · exact ih (words_cons_of_isBlank hd cs ▸ h)
        | false =>
          obtain ⟨v, ws, hws, hword⟩ := words_cons_cons hc hd cs
          rw [hword] at h
          rcases List.mem_cons.1 h with rfl | h
          · have hv : IsWord v := ih (hws ▸ List.mem_cons_self)
            exact ⟨List.cons_ne_nil c v, List.forall_mem_cons.2 ⟨hc, hv.unbroken⟩⟩
          · exact ih (hws ▸ List.mem_cons_of_mem v h)

/-- the words hold every character that is no blank, in its place -/
theorem flatten_words (cs : List Char) : (words cs).flatten = squeeze cs := by
  induction cs with
  | nil => rfl
  | cons c cs ih =>
    cases hc : isBlank c with
    | true => rw [words_cons_of_isBlank hc, ih, squeeze, squeeze, List.filter_cons_of_neg (by simp [hc])]
    | false =>
      have hkept : squeeze (c :: cs) = c :: squeeze cs := List.filter_cons_of_pos (by simp [hc])
      rw [hkept, ← ih]
      cases cs with
      | nil =>
        rw [words_singleton hc]
        rfl
      | cons d cs =>
        cases hd : isBlank d with
        | true =>
          rw [words_cons_blank hc hd, words_cons_of_isBlank hd]
          rfl
        | false =>
          obtain ⟨w, ws, hws, hword⟩ := words_cons_cons hc hd cs
          rw [hword, hws]
          rfl

theorem words_of_isWord {w : List Char} (h : IsWord w) : words w = [w] := by
  obtain ⟨hne, hunbroken⟩ := h
  induction w with
  | nil => exact absurd rfl hne
  | cons c w ih =>
    obtain ⟨hc, hw⟩ := List.forall_mem_cons.1 hunbroken
    cases w with
    | nil => exact words_singleton hc
    | cons d w =>
      obtain ⟨v, ws, hws, hword⟩ := words_cons_cons hc (hw d List.mem_cons_self) w
      rw [ih (List.cons_ne_nil d w) hw] at hws
      obtain ⟨rfl, rfl⟩ := List.cons.inj hws
      exact hword

theorem IsWord.trim {w : List Char} (h : IsWord w) : trim w = w :=
  trim_eq_self (fun c hc => h.unbroken c (List.mem_of_mem_head? hc)) fun c hc => h.unbroken c (List.mem_of_getLast? hc)

/-- a text has no words when all of it is blank -/
theorem words_eq_nil_iff {cs : List Char} : words cs = [] ↔ ∀ c ∈ cs, isBlank c = true := by
  constructor
  · intro h c hc
    have hnil : squeeze cs = [] := by rw [← flatten_words, h, List.flatten_nil]
    simpa using List.filter_eq_nil_iff.1 hnil c hc
  · intro h
    refine List.eq_nil_iff_forall_not_mem.2 fun w hw => ?_
    obtain ⟨c, hc⟩ := List.exists_mem_of_ne_nil w (isWord_of_mem_words hw).ne_nil
    have hin : c ∈ squeeze cs := flatten_words cs ▸ List.mem_flatten.2 ⟨w, hw, hc⟩
    have hblank := h c (List.mem_of_mem_filter hin)
    rw [(isWord_of_mem_words hw).unbroken c hc] at hblank
    cases hblank

theorem trim_eq_nil_iff {cs : List Char} : trim cs = [] ↔ ∀ c ∈ cs, isBlank c = true := by
  constructor
  · intro h c hc
    cases hb : isBlank c with
    | true => rfl
    | false =>
      -- the blanks before it do not hold it
      have hin : c ∈ cs.dropWhile isBlank := by
        rw [← List.takeWhile_append_dropWhile (p := isBlank) (l := cs)] at hc
        refine (List.mem_append.1 hc).resolve_left fun htake => ?_
        rw [List.mem_takeWhile_imp htake] at hb
        cases hb
      exact absurd h (trimEnd_ne_nil hin hb)
  · intro h
    have hdrop : cs.dropWhile isBlank = [] := List.dropWhile_eq_nil_iff.2 h
    rw [trim, hdrop]
    rfl

/-! ## Pieces -/

theorem pieces_ne_nil (sep : Char) (cs : List Char) : pieces sep cs ≠ [] := by
  cases cs with
  | nil => exact List.cons_ne_nil [] []
  | cons c cs =>
    rw [pieces]
    split
    · simp
    · split <;> simp

/-- a character that parts nothing stands in the first piece of what follows -/
theorem pieces_cons_of_ne {sep c : Char} (h : c ≠ sep) (cs : List Char) :
    ∃ p ps, pieces sep cs = p :: ps ∧ pieces sep (c :: cs) = (c :: p) :: ps := by
  obtain ⟨p, ps, hps⟩ := List.exists_cons_of_ne_nil (pieces_ne_nil sep cs)
  refine ⟨p, ps, hps, ?_⟩
  rw [pieces, if_neg h, hps]

/-- a separator between two texts parts them, whatever the pieces of each are -/
theorem pieces_append_sep (sep : Char) (cs more : List Char) :
    pieces sep (cs ++ sep :: more) = pieces sep cs ++ pieces sep more := by
  induction cs with
  | nil => exact pieces_append_cons List.not_mem_nil more
  | cons c cs ih =>
    rw [List.cons_append]
    by_cases hc : c = sep
    · rw [pieces, pieces, if_pos hc, if_pos hc, ih, List.cons_append]
    · obtain ⟨p, ps, hps, hpiece⟩ := pieces_cons_of_ne hc cs
      rw [pieces, if_neg hc, ih, hps, hpiece]
      rfl

/-- a piece is a part of the text, without the separator -/
theorem of_mem_pieces {sep : Char} {cs p : List Char} (h : p ∈ pieces sep cs) : sep ∉ p ∧ p ⊆ cs := by
  induction cs generalizing p with
  | nil =>
    rw [pieces, List.mem_singleton] at h
    simp [h]
  | cons c cs ih =>
    have hstays : ∀ {q}, q ∈ pieces sep cs → sep ∉ q ∧ q ⊆ c :: cs := by
      intro q hq
      exact ⟨(ih hq).1, List.subset_cons_of_subset c (ih hq).2⟩
    by_cases hc : c = sep
    · rw [pieces, if_pos hc] at h
      rcases List.mem_cons.1 h with rfl | h
      · simp
      · exact hstays h
    · obtain ⟨q, qs, hqs, hpiece⟩ := pieces_cons_of_ne hc cs
      rw [hpiece] at h
      rcases List.mem_cons.1 h with rfl | h
      · obtain ⟨hq, hsub⟩ := ih (hqs ▸ List.mem_cons_self)
        exact ⟨List.not_mem_cons_of_ne_of_not_mem (Ne.symm hc) hq, List.cons_subset_cons c hsub⟩
      · exact hstays (hqs ▸ List.mem_cons_of_mem q h)

/-- a text is put together again from its pieces -/
theorem eq_of_pieces {sep : Char} {cs p : List Char} {ps : List (List Char)} (h : pieces sep cs = p :: ps) :
    cs = p ++ ps.flatMap (sep :: ·) := by
  induction cs generalizing p ps with
  | nil =>
    obtain ⟨rfl, rfl⟩ := List.cons.inj h
    rfl
  | cons c cs ih =>
    by_cases hc : c = sep
    · rw [pieces, if_pos hc] at h
      obtain ⟨rfl, rfl⟩ := List.cons.inj h
      obtain ⟨q, qs, hqs⟩ := List.exists_cons_of_ne_nil (pieces_ne_nil sep cs)
      rw [hqs, List.nil_append, List.flatMap_cons, List.cons_append, ← ih hqs, hc]
    · obtain ⟨q, qs, hqs, hpiece⟩ := pieces_cons_of_ne hc cs
      obtain ⟨rfl, rfl⟩ := List.cons.inj (hpiece.symm.trans h)
      rw [List.cons_append, ← ih hqs]

/-! ## Texts that are put together -/

theorem toList_join_cons (sep s t : String) (ss : List String) :
    (join sep (s :: t :: ss)).toList = s.toList ++ (sep.toList ++ (join sep (t :: ss)).toList) := by
  rw [join, String.intercalate_cons_of_ne_nil (List.cons_ne_nil t ss), ← join]
  simp

theorem join_singleton (sep s : String) : join sep [s] = s := String.intercalate_singleton

/-- texts that are put together with a separator that none of them holds are parted again -/
theorem pieces_join {sep : Char} {ss : List String} (hne : ss ≠ []) (hs : ∀ s ∈ ss, sep ∉ s.toList) :
    pieces sep (join (.singleton sep) ss).toList = ss.map String.toList := by
  induction ss with
  | nil => exact absurd rfl hne
  | cons s ss ih =>
    obtain ⟨hsep, hss⟩ := List.forall_mem_cons.1 hs
    cases ss with
    | nil =>
      rw [join_singleton, pieces_of_notMem hsep]
      rfl
    | cons t ss =>
      rw [toList_join_cons, String.toList_singleton, List.singleton_append, pieces_append_cons hsep,
        ih (List.cons_ne_nil t ss) hss]
      rfl

/-- texts that are put together with blanks have the words of all -/
theorem words_join (ss : List String) : words (join " " ss).toList = ss.flatMap fun s => words s.toList := by
  induction ss with
  | nil => rfl
  | cons s ss ih =>
    cases ss with
    | nil => rw [join_singleton, List.flatMap_singleton]
    | cons t ss =>
      have hblank : " ".toList = [' '] := rfl
      rw [toList_join_cons, hblank, List.singleton_append, words_append_cons (by decide), ih]
      rfl

/-- a blank before a text is a blank before its first piece, which keeps its words -/
theorem words_pieces_cons {sep b : Char} (hb : isBlank b = true) (hne : b ≠ sep) (cs : List Char) :
    (pieces sep (b :: cs)).map words = (pieces sep cs).map words := by
  obtain ⟨p, ps, hps, hpiece⟩ := pieces_cons_of_ne hne cs
  rw [hps, hpiece, List.map_cons, List.map_cons, words_cons_of_isBlank hb]

/-- texts without commas that are put together with commas and blanks are parted again, with the words of each -/
theorem words_pieces_join {ss : List String} (hne : ss ≠ []) (hs : ∀ s ∈ ss, ',' ∉ s.toList) :
    (pieces ',' (join ", " ss).toList).map words = ss.map fun s => words s.toList := by
  induction ss with
  | nil => exact absurd rfl hne
  | cons s ss ih =>
    obtain ⟨hcomma, hss⟩ := List.forall_mem_cons.1 hs
    cases ss with
    | nil =>
      rw [join_singleton, pieces_of_notMem hcomma]
      rfl
    | cons t ss =>
      have hsep : ", ".toList = [',', ' '] := rfl
      rw [toList_join_cons, hsep, List.cons_append, List.singleton_append, pieces_append_cons hcomma, List.map_cons,
        words_pieces_cons (by decide) (by decide), ih (List.cons_ne_nil t ss) hss]
      rfl

end ContractGraph.Text
