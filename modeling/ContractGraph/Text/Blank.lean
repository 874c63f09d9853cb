/-
Blank characters, and the three text operations that depend on them: trimming, cutting a text into words, and removing
every blank.

Results:
- `trim_trim`: trimming twice is trimming once;
- `isBlank_of_head?_strip`: a trimmed text does not start with a blank;
- `length_trim_le`, `trim_subset`: trimming never lengthens a text, and adds no character;
- `pieces_of_notMem`, `pieces_append_cons`: a text is cut at each separator, and nowhere else.
-/

namespace ContractGraph.Text

/-- a blank: the line and page controls, the separators U+001C to U+001F, and every Unicode space -/
def isBlank (c : Char) : Bool :=
  let n := c.toNat
  (0x09 ≤ n && n ≤ 0x0D) || (0x1C ≤ n && n ≤ 0x20) || n == 0x85 || n == 0xA0 || n == 0x1680 ||
    (0x2000 ≤ n && n ≤ 0x200A) || n == 0x2028 || n == 0x2029 || n == 0x202F || n == 0x205F || n == 0x3000

/-- a text without the blanks at its end -/
def trimEnd (cs : List Char) : List Char := (cs.reverse.dropWhile isBlank).reverse

/-- a text without the blanks at its two ends -/
def trim (cs : List Char) : List Char := trimEnd (cs.dropWhile isBlank)

/-- a string without the blanks at its two ends -/
def strip (s : String) : String := .ofList (trim s.toList)

/-- a blank that may stand around a number: each but the separators U+001C to U+001F -/
def isSpace (c : Char) : Bool := isBlank c && !(0x1C ≤ c.toNat && c.toNat < 0x20)

/-- a numeral without the spaces around it -/
def unspaced (cs : List Char) : List Char := ((cs.dropWhile isSpace).reverse.dropWhile isSpace).reverse

/-- the runs of characters that are not blank -/
def words : List Char → List (List Char)
  | [] => []
  | c :: cs =>
    if isBlank c then words cs
    else match cs with
      | [] => [[c]]
      | d :: _ =>
        if isBlank d then [c] :: words cs
        else match words cs with
          | [] => [[c]]
          | w :: ws => (c :: w) :: ws

/-- a text without any of its blanks -/
def squeeze (cs : List Char) : List Char := cs.filter fun c => !isBlank c

/-- the pieces between the occurrences of a separator; there is always one piece more than there are separators -/
def pieces (sep : Char) : List Char → List (List Char)
  | [] => [[]]
  | c :: cs =>
    if c = sep then [] :: pieces sep cs
    else match pieces sep cs with
      | [] => [[c]]
      | p :: ps => (c :: p) :: ps

theorem pieces_of_notMem {sep : Char} {cs : List Char} (h : sep ∉ cs) : pieces sep cs = [cs] := by
  induction cs with
  | nil => rfl
  | cons c cs ih =>
    obtain ⟨hc, hcs⟩ := not_or.1 (mt List.mem_cons.2 h)
    rw [pieces, if_neg (Ne.symm hc), ih hcs]

theorem pieces_append_cons {sep : Char} {cs : List Char} (h : sep ∉ cs) (more : List Char) :
    pieces sep (cs ++ sep :: more) = cs :: pieces sep more := by
  induction cs with
  | nil => rw [List.nil_append, pieces, if_pos rfl]
  | cons c cs ih =>
    obtain ⟨hc, hcs⟩ := not_or.1 (mt List.mem_cons.2 h)
    rw [List.cons_append, pieces, if_neg (Ne.symm hc), ih hcs]

/-- a text in which every line ends with a line feed: carriage returns, alone or before a line feed, become one -/
def withLineFeeds : List Char → List Char
  | [] => []
  | '\r' :: '\n' :: cs => '\n' :: withLineFeeds cs
  | '\r' :: cs => '\n' :: withLineFeeds cs
  | c :: cs => c :: withLineFeeds cs

/-- texts put together with a separator between neighbours -/
def join (sep : String) (parts : List String) : String := sep.intercalate parts

theorem dropWhile_dropWhile {α : Type} (p : α → Bool) (l : List α) : (l.dropWhile p).dropWhile p = l.dropWhile p := by
  induction l with
  | nil => rfl
  | cons a l ih =>
    by_cases h : p a = true
    · simp [h, ih]
    · simp [h]

@[simp] theorem trimEnd_trimEnd (cs : List Char) : trimEnd (trimEnd cs) = trimEnd cs := by
  simp [trimEnd, dropWhile_dropWhile]

theorem trimEnd_isPrefixOf (cs : List Char) : trimEnd cs <+: cs := by
  have h := List.dropWhile_suffix isBlank (l := cs.reverse)
  simpa [trimEnd] using List.reverse_prefix.2 h

theorem length_trim_le (cs : List Char) : (trim cs).length ≤ cs.length :=
  Nat.le_trans (trimEnd_isPrefixOf _).length_le (List.dropWhile_suffix isBlank).length_le

theorem trim_subset (cs : List Char) : trim cs ⊆ cs :=
  fun _ h => (List.dropWhile_suffix isBlank).subset ((trimEnd_isPrefixOf _).subset h)

/-- what is left after trimming the end starts as it did, if it is not empty -/
theorem trimEnd_dropWhile (cs : List Char) (h : cs.dropWhile isBlank = cs) :
    (trimEnd cs).dropWhile isBlank = trimEnd cs := by
  obtain ⟨t, ht⟩ := trimEnd_isPrefixOf cs
  cases hc : trimEnd cs with
  | nil => rfl
  | cons a r =>
    rw [hc] at ht
    rw [← ht] at h
    by_cases ha : isBlank a = true
    · have := congrArg List.length h
      simp only [List.cons_append, List.dropWhile_cons, ha, if_true] at this
      have hle := (List.dropWhile_suffix isBlank (l := r ++ t)).length_le
      simp at this hle
      omega
    · simp [ha]

theorem dropWhile_trim (cs : List Char) : (trim cs).dropWhile isBlank = trim cs :=
  trimEnd_dropWhile _ (dropWhile_dropWhile _ _)

@[simp] theorem trim_trim (cs : List Char) : trim (trim cs) = trim cs := by
  rw [trim, dropWhile_trim, trim, trimEnd_trimEnd]

theorem isBlank_of_head?_strip {s : String} {c : Char} (h : (strip s).toList.head? = some c) : isBlank c = false := by
  rw [strip, String.toList_ofList, ← dropWhile_trim] at h
  have hc := List.head?_dropWhile_not isBlank (trim s.toList)
  rw [h] at hc
  exact hc

end ContractGraph.Text
