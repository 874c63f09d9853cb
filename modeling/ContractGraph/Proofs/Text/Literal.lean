/-
String literals: where they end, and what they say.

A backslash escapes the character after it, also when that is a backslash. So a quote is escaped when an odd number of
backslashes stands right before it, and a literal ends at its first quote that is not. A scanner that goes through the
text once, and only remembers whether the last character escapes the next one, finds that quote.

Results:
- `escapes_append_singleton`: whether the next character is escaped, character by character;
- `endsBehind_cons_iff`: where a content ends, character by character;
- `scan_eq_some_iff`: the scanner stops at the first quote that is not escaped;
- `flatMap_literalChar`: a content is escaped in two passes over the whole text, backslashes first;
- `scan_literalChars`, `unescape_literalChars`: what is escaped is passed over, and undone;
- `literal_closed`: no text breaks out of its literal, and each literal says its text.
-/
import ContractGraph.Text.Identifier

namespace ContractGraph.Text

/-! ## Where a literal ends -/

/-- what comes next is escaped: an odd number of backslashes stands right before it -/
def escapes (before : List Char) : Bool := (before.reverse.takeWhile (· = '\\')).length % 2 = 1

/-- what stands in a literal: the quote after it is the first one that is not escaped -/
structure IsContent (content : List Char) : Prop where
  unescaped : escapes content = false
  first : ∀ before after, content = before ++ '"' :: after → escapes before = true

/-- the characters up to the first quote that is not escaped, and those after it -/
def scan : (escaped : Bool) → List Char → Option (List Char × List Char)
  | _, [] => none
  | escaped, c :: cs =>
    if c = '"' ∧ escaped = false then some ([], cs)
    else (scan (c = '\\' ∧ escaped = false) cs).map fun r => (c :: r.1, r.2)

/-- a backslash that is not escaped itself escapes what comes next, and nothing else does -/
theorem escapes_append_singleton (before : List Char) (c : Char) :
    escapes (before ++ [c]) = decide (c = '\\' ∧ escapes before = false) := by
  rw [escapes, escapes, List.reverse_append, List.reverse_singleton, List.singleton_append]
  by_cases hc : c = '\\'
  · rw [List.takeWhile_cons_of_pos (by simpa using hc), List.length_cons]
    simp only [hc, true_and, decide_eq_false_iff_not, decide_eq_decide]
    omega
  · rw [List.takeWhile_cons_of_neg (by simpa using hc)]
    simp [hc]

/-- as `IsContent`, of a content with `before` right before it -/
structure EndsBehind (before content : List Char) : Prop where
  unescaped : escapes (before ++ content) = false
  first : ∀ inner after, content = inner ++ '"' :: after → escapes (before ++ inner) = true

theorem endsBehind_nil_iff {before : List Char} : EndsBehind before [] ↔ escapes before = false := by
  constructor
  · intro h
    simpa using h.unescaped
  · intro h
    exact ⟨by simpa using h, fun inner after he => absurd he.symm (by simp)⟩

/-- one more character of a content: it is no quote that ends the content, and what follows it ends behind it -/
theorem endsBehind_cons_iff {before content : List Char} {c : Char} :
    EndsBehind before (c :: content) ↔ (c = '"' → escapes before = true) ∧ EndsBehind (before ++ [c]) content := by
  constructor
  · intro h
    refine ⟨?_, ⟨by simpa using h.unescaped, fun inner after he => ?_⟩⟩
    · rintro rfl
      simpa using h.first [] content rfl
    · simpa using h.first (c :: inner) after (congrArg (c :: ·) he)
  · rintro ⟨hc, h⟩
    refine ⟨by simpa using h.unescaped, fun inner after he => ?_⟩
    cases inner with
    | nil =>
      obtain ⟨rfl, -⟩ := List.cons.inj he
      simpa using hc rfl
    | cons d inner =>
      obtain ⟨rfl, htail⟩ := List.cons.inj he
      simpa using h.first inner after htail

/-- the scanner knows of what stands before only whether it escapes what comes next, and stops at the first quote that
is not escaped -/
theorem scan_eq_some_iff (before : List Char) {cs content rest : List Char} :
    scan (escapes before) cs = some (content, rest) ↔ cs = content ++ '"' :: rest ∧ EndsBehind before content := by
  induction cs generalizing before content with
  | nil => simp [scan]
  | cons c cs ih =>
    rw [scan]
    split
    · next hq =>
      obtain ⟨rfl, hescaped⟩ := hq
      cases content with
      | nil => simp [endsBehind_nil_iff, hescaped, eq_comm]
      | cons d content =>
        -- the content would begin with this quote, which is not escaped
        rw [endsBehind_cons_iff, hescaped, List.cons_append, List.cons.injEq]
        constructor
        · intro h
          cases h
        · rintro ⟨⟨hd, -⟩, hopen, -⟩
          cases hopen hd.symm
    · next hq =>
      rw [← escapes_append_singleton, Option.map_eq_some_iff]
      cases content with
      | nil =>
        rw [endsBehind_nil_iff]
        constructor
        · rintro ⟨r, -, h⟩
          cases h
        · rintro ⟨hcs, hescaped⟩
          exact absurd ⟨(List.cons.inj hcs).1, hescaped⟩ hq
      | cons d content =>
        have hd : c = '"' → escapes before = true := by simpa using hq
        rw [endsBehind_cons_iff, List.cons_append, List.cons.injEq]
        constructor
        · rintro ⟨r, hscan, h⟩
          obtain ⟨hcontent, rfl⟩ := Prod.mk.inj h
          obtain ⟨rfl, rfl⟩ := List.cons.inj hcontent
          obtain ⟨hcs, hends⟩ := (ih _).1 hscan
          exact ⟨⟨rfl, hcs⟩, hd, hends⟩
        · rintro ⟨⟨rfl, hcs⟩, -, hends⟩
          exact ⟨(content, rest), (ih _).2 ⟨hcs, hends⟩, rfl⟩

/-! ## What a literal says -/

/-- a text with a backslash before each occurrence of a character -/
def escapeAll (c : Char) (cs : List Char) : List Char := cs.flatMap fun d => if d = c then ['\\', c] else [d]

/-- the text that a content stands for; only backslashes and quotes may be escaped -/
def unescape : List Char → Option (List Char)
  | [] => some []
  | ['\\'] => none
  | '\\' :: c :: cs => if c = '\\' ∨ c = '"' then (unescape cs).map (c :: ·) else none
  | c :: cs => (unescape cs).map (c :: ·)

theorem literalChar_of_escaped {c : Char} (h : c = '\\' ∨ c = '"') : literalChar c = ['\\', c] := if_pos h

theorem literalChar_of_plain {c : Char} (h : ¬ (c = '\\' ∨ c = '"')) : literalChar c = [c] := if_neg h

theorem unescape_cons {c : Char} (h : c ≠ '\\') (cs : List Char) : unescape (c :: cs) = (unescape cs).map (c :: ·) := by
  rw [unescape]
  · exact fun hc => absurd hc h
  · exact fun _ _ hc => absurd hc h

/-- the quotes are escaped after the backslashes, so the backslashes of their escapes are not escaped again -/
theorem flatMap_literalChar (cs : List Char) : cs.flatMap literalChar = escapeAll '"' (escapeAll '\\' cs) := by
  rw [escapeAll, escapeAll, List.flatMap_assoc]
  congr 1
  funext c
  by_cases hb : c = '\\'
  · subst hb
    decide
  · by_cases hq : c = '"'
    · subst hq
      decide
    · simp [literalChar, hb, hq]

-- escaped in the other order, a quote is not escaped at all
example : unescape (escapeAll '\\' (escapeAll '"' ['"'])) = some ['\\', '"'] := by decide

theorem scan_literalChars (cs rest : List Char) :
    scan false (cs.flatMap literalChar ++ '"' :: rest) = some (cs.flatMap literalChar, rest) := by
  induction cs with
  | nil => rfl
  | cons c cs ih =>
    rw [List.flatMap_cons]
    by_cases hc : c = '\\' ∨ c = '"'
    · simp [literalChar_of_escaped hc, scan, ih]
    · obtain ⟨hb, hq⟩ := not_or.1 hc
      simp [literalChar_of_plain hc, scan, hb, hq, ih]

theorem unescape_literalChars (cs : List Char) : unescape (cs.flatMap literalChar) = some cs := by
  induction cs with
  | nil => rfl
  | cons c cs ih =>
    rw [List.flatMap_cons]
    by_cases hc : c = '\\' ∨ c = '"'
    · rw [literalChar_of_escaped hc, List.cons_append, List.singleton_append, unescape, if_pos hc, ih]
      rfl
    · rw [literalChar_of_plain hc, List.singleton_append, unescape_cons (not_or.1 hc).1, ih]
      rfl

theorem isContent_literalChars (cs : List Char) : IsContent (cs.flatMap literalChar) := by
  obtain ⟨-, hends⟩ := (scan_eq_some_iff []).1 (scan_literalChars cs [])
  exact ⟨hends.unescaped, hends.first⟩

/-- **A literal cannot be broken out of, and says its text.** Whatever the text, its literal is a quote, the text with
its backslashes and then its quotes escaped, and a quote, which is the first one since the opening one that is not
escaped. Undoing the escapes gives the text, so different texts have different literals; and a scanner that reads the
literal with anything behind it stops at the literal's end. -/
theorem literal_closed : Function.Injective literal ∧ ∀ s : String,
    ∃ content, content = escapeAll '"' (escapeAll '\\' s.toList) ∧
      (literal s).toList = '"' :: (content ++ ['"']) ∧ IsContent content ∧ unescape content = some s.toList ∧
      ∀ more : String, scan false ((literal s ++ more).toList.drop 1) = some (content, more.toList) := by
  have htoList : ∀ s, (literal s).toList = '"' :: (s.toList.flatMap literalChar ++ ['"']) := fun s => by
    rw [literal, String.toList_ofList, List.cons_append]
  constructor
  · intro s t h
    have hcontent := (List.cons.inj ((htoList s).symm.trans ((congrArg String.toList h).trans (htoList t)))).2
    have hunescaped := congrArg unescape (List.append_cancel_right hcontent)
    rw [unescape_literalChars, unescape_literalChars] at hunescaped
    exact String.toList_inj.1 (Option.some.inj hunescaped)
  · intro s
    refine ⟨s.toList.flatMap literalChar, flatMap_literalChar _, htoList s, isContent_literalChars _,
      unescape_literalChars _, fun more => ?_⟩
    rw [String.toList_append, htoList, List.cons_append, List.drop_one, List.tail_cons, List.append_assoc,
      List.singleton_append]
    exact scan_literalChars _ _

end ContractGraph.Text
