/-
Identifiers, and what the test for them lets pass.

The test looks for an identifier up to the end of the text or up to a line feed that ends it. So besides identifiers it
lets an identifier with one line feed behind it pass, and nothing else.

Results:
- `isIdentifier_iff`: the texts that pass;
- `isName_of_isIdentifier`: on one line these are the identifiers.
-/
import ContractGraph.Text.Identifier

namespace ContractGraph.Text

/-- an identifier: a letter, a low line or a dollar sign, and after it digits as well -/
def IsName (cs : List Char) : Prop := ∃ c r, cs = c :: r ∧ isNameStart c = true ∧ ∀ d ∈ r, isNameRest d = true

theorem isNameStart_lineFeed : isNameStart '\n' = false := by decide

theorem isNameRest_lineFeed : isNameRest '\n' = false := by decide

theorem IsName.notMem_lineFeed {cs : List Char} (h : IsName cs) : '\n' ∉ cs := by
  obtain ⟨c, r, rfl, hc, hr⟩ := h
  intro hm
  rcases List.mem_cons.1 hm with rfl | hm
  · exact absurd hc (by rw [isNameStart_lineFeed]; nofun)
  · exact absurd (hr _ hm) (by rw [isNameRest_lineFeed]; nofun)

/-- a text passes when it is an identifier without one line feed at its end -/
theorem isIdentifier_iff_isName (cs : List Char) : isIdentifier cs = true ↔ IsName (dropFinalLineFeed cs) := by
  rw [isIdentifier]
  cases dropFinalLineFeed cs with
  | nil => exact ⟨nofun, fun ⟨_, _, h, _⟩ => absurd h (List.cons_ne_nil _ _).symm⟩
  | cons c r =>
    rw [Bool.and_eq_true, List.all_eq_true]
    constructor
    · rintro ⟨hc, hr⟩
      exact ⟨c, r, rfl, hc, hr⟩
    · rintro ⟨_, _, h, hc, hr⟩
      obtain ⟨rfl, rfl⟩ := List.cons.inj h
      exact ⟨hc, hr⟩

theorem dropFinalLineFeed_of_notMem {cs : List Char} (h : '\n' ∉ cs) : dropFinalLineFeed cs = cs :=
  if_neg fun hlast => h (List.mem_of_getLast? hlast)

theorem dropFinalLineFeed_append (cs : List Char) : dropFinalLineFeed (cs ++ ['\n']) = cs := by
  rw [dropFinalLineFeed, if_pos List.getLast?_concat, List.dropLast_concat]

/-- a text passes when it is an identifier, or an identifier and a line feed -/
theorem isIdentifier_iff (cs : List Char) :
    isIdentifier cs = true ↔ IsName cs ∨ ∃ name, IsName name ∧ cs = name ++ ['\n'] := by
  rw [isIdentifier_iff_isName]
  constructor
  · intro h
    by_cases hlast : cs.getLast? = some '\n'
    · obtain ⟨name, rfl⟩ := List.getLast?_eq_some_iff.1 hlast
      rw [dropFinalLineFeed_append] at h
      exact Or.inr ⟨name, h, rfl⟩
    · rw [dropFinalLineFeed, if_neg hlast] at h
      exact Or.inl h
  · rintro (h | ⟨name, h, rfl⟩)
    · rw [dropFinalLineFeed_of_notMem h.notMem_lineFeed]
      exact h
    · rw [dropFinalLineFeed_append]
      exact h

/-- on one line the test for identifiers lets nothing else pass -/
theorem isName_of_isIdentifier {cs : List Char} (h : isIdentifier cs = true) (hline : '\n' ∉ cs) : IsName cs := by
  rw [isIdentifier_iff_isName, dropFinalLineFeed_of_notMem hline] at h
  exact h

end ContractGraph.Text
