/-
Which version of the compiler is asked for.

A language version is a range: one or more constraints with spaces between them, and blanks around them. The source states
it without the outer blanks, with `^` before the first constraint if that has no operator. The version to ask for is the
same text without the operator at its start, taken in two ways: a generation trims the outer blanks first, the command line
trims spaces only, and at the start only.

Only the first operator is dropped, and nothing behind the first number. So the text is a number of the range just when
the range has no other constraint.

Results:
- `trim_chars`, `words_append_following`: without the blanks around it, a range has the constraints as its words;
- `bareVersion_text`, `versionConstraint_text`: what a generation asks for, and what the source states;
- `statedNumbers_versionConstraint`: the numbers that the source states are those of the range;
- `opening_mem_numbers_iff`: when what a generation asks for is one of them;
- `eq_opening_iff`: when the command line asks for the same;
- `asks_for_stated_iff`: all of it together, for what is asked of the toolchain.
Witnesses:
- `indented_asked`: one constraint behind spaces, asked for in both ways;
- `several_constraints_asked`: two constraints, and a blank that the command line does not trim.
-/
import ContractGraph.CommandLine.Command
import ContractGraph.Proofs.Compiler.Submission
import ContractGraph.Proofs.Text.Words

namespace ContractGraph

/-! ## Ranges of versions -/

/-- the operators that a constraint can start with -/
inductive Bound where
  | compatible
  | close
  | above
  | below
  | exactly
  | atLeast
  | atMost
deriving DecidableEq, Repr

def Bound.chars : Bound → List Char
  | compatible => ['^']
  | close => ['~']
  | above => ['>']
  | below => ['<']
  | exactly => ['=']
  | atLeast => ['>', '=']
  | atMost => ['<', '=']

/-- the characters of operators -/
def Bound.signs : List Char := ['^', '~', '>', '<', '=']

/-- a version number: decimal numerals with dots between them -/
def IsVersionNumber (cs : List Char) : Prop := ∀ p ∈ Text.pieces '.' cs, p ≠ [] ∧ ∀ c ∈ p, c.isDigit = true

-- among the instances there is also one that goes through all characters
instance (cs : List Char) : Decidable (IsVersionNumber cs) :=
  have (p : List Char) : Decidable (∀ c ∈ p, c.isDigit = true) := List.decidableBAll _ p
  List.decidableBAll _ _

/-- an operator, if there is one, and a number -/
structure Constraint where
  bound : Option Bound
  number : List Char
  isVersionNumber : IsVersionNumber number

/-- constraints with spaces between them, and blanks around them -/
structure VersionRange where
  before : List Char
  first : Constraint
  /-- the other constraints, each with the number of spaces before it, not counting one -/
  more : List (Nat × Constraint)
  after : List Char
  before_blank : ∀ c ∈ before, Text.isBlank c = true
  after_blank : ∀ c ∈ after, Text.isBlank c = true

namespace Constraint

def chars (c : Constraint) : List Char := (c.bound.map Bound.chars).getD [] ++ c.number

/-- the constraint with an operator: one without an operator allows every later version that is compatible -/
def stated (c : Constraint) : Constraint := { c with bound := some (c.bound.getD .compatible) }

end Constraint

namespace VersionRange

/-- constraints with the spaces before them -/
def following (more : List (Nat × Constraint)) : List Char :=
  more.flatMap fun m => List.replicate (m.1 + 1) ' ' ++ m.2.chars

def chars (r : VersionRange) : List Char := r.before ++ (r.first.chars ++ following r.more) ++ r.after

/-- the text of a range -/
def text (r : VersionRange) : String := .ofList r.chars

/-- the version numbers of a range -/
def numbers (r : VersionRange) : List String := (r.first :: r.more.map Prod.snd).map fun c => .ofList c.number

/-- the first number of a range, and all constraints behind it -/
def opening (r : VersionRange) : String := .ofList (r.first.number ++ following r.more)

end VersionRange

/-- the numbers that a constraint states: its words without what stands before their first digits -/
def statedNumbers (constraint : String) : List String :=
  (Text.words constraint.toList).map fun w => .ofList (w.dropWhile fun c => !c.isDigit)

/-! ## Numbers and constraints -/

theorem isBlank_of_isDigit {c : Char} (h : c.isDigit = true) : Text.isBlank c = false := by
  have hrange : '0' ≤ c ∧ c ≤ '9' := by
    simpa [Char.isDigit, Char.le_def] using h
  have h0 : 48 ≤ c.toNat := hrange.1
  have h9 : c.toNat ≤ 57 := hrange.2
  simp only [Text.isBlank, Bool.or_eq_false_iff, Bool.and_eq_false_iff, decide_eq_false_iff_not, beq_eq_false_iff_ne]
  omega

theorem Bound.of_mem_signs {c : Char} (hc : c ∈ signs) : c.isDigit = false ∧ Text.isBlank c = false := by
  simp only [signs, List.mem_cons, List.not_mem_nil, or_false] at hc
  rcases hc with rfl | rfl | rfl | rfl | rfl <;> exact ⟨by decide, by decide⟩

/-- what is dropped at the start of a constraint: the characters of operators, and spaces -/
theorem isConstraintChar_iff {c : Char} : Compiler.isConstraintChar c = true ↔ c ∈ Bound.signs ∨ c = ' ' := by
  simp only [Compiler.isConstraintChar, Bound.signs, decide_eq_true_eq, List.mem_cons, List.not_mem_nil, or_false]
  tauto

theorem isConstraintChar_of_isDigit {c : Char} (h : c.isDigit = true) : Compiler.isConstraintChar c = false := by
  refine Bool.eq_false_iff.2 fun hc => ?_
  rcases isConstraintChar_iff.1 hc with hc | rfl
  · exact absurd h (by simp [(Bound.of_mem_signs hc).1])
  · exact absurd h (by decide)

namespace IsVersionNumber

variable {cs : List Char} (h : IsVersionNumber cs)

include h

/-- a number starts with a digit -/
theorem exists_cons : ∃ d r, cs = d :: r ∧ d.isDigit = true := by
  obtain ⟨p, ps, hps⟩ := List.exists_cons_of_ne_nil (Text.pieces_ne_nil '.' cs)
  obtain ⟨hne, hdigits⟩ := h p (hps ▸ List.mem_cons_self)
  obtain ⟨d, r, rfl⟩ := List.exists_cons_of_ne_nil hne
  exact ⟨d, r ++ ps.flatMap ('.' :: ·), Text.eq_of_pieces hps, hdigits d List.mem_cons_self⟩

theorem isDigit_or_dot : ∀ c ∈ cs, c.isDigit = true ∨ c = '.' := by
  obtain ⟨p, ps, hps⟩ := List.exists_cons_of_ne_nil (Text.pieces_ne_nil '.' cs)
  intro c hc
  rw [Text.eq_of_pieces hps, List.mem_append, List.mem_flatMap] at hc
  rcases hc with hc | ⟨q, hq, hc⟩
  · exact Or.inl ((h p (hps ▸ List.mem_cons_self)).2 c hc)
  · rcases List.mem_cons.1 hc with rfl | hc
    · exact Or.inr rfl
    · exact Or.inl ((h q (hps ▸ List.mem_cons_of_mem p hq)).2 c hc)

theorem isBlank_eq_false : ∀ c ∈ cs, Text.isBlank c = false := by
  intro c hc
  rcases h.isDigit_or_dot c hc with hd | rfl
  · exact isBlank_of_isDigit hd
  · decide

/-- what is dropped before digits only is dropped before a number -/
theorem dropWhile_append {p : Char → Bool} (hp : ∀ c, c.isDigit = true → p c = false) {sign : List Char}
    (hs : ∀ c ∈ sign, p c = true) (rest : List Char) : (sign ++ cs ++ rest).dropWhile p = cs ++ rest := by
  obtain ⟨d, r, rfl, hd⟩ := h.exists_cons
  rw [List.append_assoc, List.dropWhile_append_of_pos hs, List.cons_append]
  exact List.dropWhile_cons_of_neg (by simp [hp d hd])

end IsVersionNumber

namespace Constraint

variable (c : Constraint)

theorem sign_chars {d : Char} (hd : d ∈ (c.bound.map Bound.chars).getD []) : d ∈ Bound.signs := by
  have hall : ∀ b : Bound, b.chars ⊆ Bound.signs := by
    intro b
    cases b <;> simp [Bound.chars, Bound.signs]
  cases hb : c.bound with
  | none => simp [hb] at hd
  | some b => exact hall b (by simpa [hb] using hd)

theorem isWord_chars : Text.IsWord c.chars where
  ne_nil := by
    obtain ⟨d, r, hr, -⟩ := c.isVersionNumber.exists_cons
    simp [chars, hr]
  unbroken := by
    intro d hd
    rcases List.mem_append.1 hd with hd | hd
    · exact (Bound.of_mem_signs (c.sign_chars hd)).2
    · exact c.isVersionNumber.isBlank_eq_false d hd

theorem dropOperators_append (rest : List Char) : Compiler.dropOperators (c.chars ++ rest) = c.number ++ rest :=
  c.isVersionNumber.dropWhile_append (fun _ => isConstraintChar_of_isDigit)
    (fun _ hd => isConstraintChar_iff.2 (Or.inl (c.sign_chars hd))) rest

theorem dropWhile_chars : c.chars.dropWhile (fun d => !d.isDigit) = c.number := by
  have hsign : ∀ d ∈ (c.bound.map Bound.chars).getD [], (!d.isDigit) = true := fun d hd => by
    simp [(Bound.of_mem_signs (c.sign_chars hd)).1]
  have hdrop := c.isVersionNumber.dropWhile_append (p := fun d => !d.isDigit) (fun d hd => by simp [hd]) hsign []
  rwa [List.append_nil, List.append_nil] at hdrop

/-- the first character tells whether there is an operator -/
theorem head?_chars : c.chars.head?.any (fun d => d ∈ ['^', '~', '>', '<', '=']) = c.bound.isSome := by
  obtain ⟨d, r, hr, hd⟩ := c.isVersionNumber.exists_cons
  cases hb : c.bound with
  | some b => cases b <;> simp [chars, hb, Bound.chars]
  | none =>
    have hnot : d ∉ ['^', '~', '>', '<', '='] := fun hm => by simp [(Bound.of_mem_signs hm).1] at hd
    simpa [chars, hb, hr] using hnot

/-- a constraint that is stated has its own operator, or `^` before it -/
theorem chars_stated : c.stated.chars = if c.bound.isSome then c.chars else '^' :: c.chars := by
  cases hb : c.bound <;> simp [stated, chars, hb, Bound.chars]

end Constraint

/-! ## The text of a range -/

namespace VersionRange

theorem following_cons (n : Nat) (c : Constraint) (more : List (Nat × Constraint)) :
    following ((n, c) :: more) = ' ' :: (List.replicate n ' ' ++ (c.chars ++ following more)) := by
  simp [following, List.replicate_succ]

theorem words_replicate_append (n : Nat) (cs : List Char) : Text.words (List.replicate n ' ' ++ cs) = Text.words cs := by
  induction n with
  | zero => rfl
  | succ n ih => rw [List.replicate_succ, List.cons_append, Text.words_cons_of_isBlank (by decide), ih]

/-- the constraints are the words -/
theorem words_append_following {w : List Char} (hw : Text.IsWord w) (more : List (Nat × Constraint)) :
    Text.words (w ++ following more) = w :: more.map fun m => m.2.chars := by
  induction more generalizing w with
  | nil => rw [following, List.flatMap_nil, List.append_nil, Text.words_of_isWord hw, List.map_nil]
  | cons m more ih =>
    obtain ⟨n, c⟩ := m
    rw [following_cons, Text.words_append_cons (by decide), Text.words_of_isWord hw, words_replicate_append,
      ih c.isWord_chars]
    rfl

/-- a range ends with the end of a constraint -/
theorem isBlank_getLast {w : List Char} (hw : Text.IsWord w) (more : List (Nat × Constraint)) :
    ∀ d ∈ (w ++ following more).getLast?, Text.isBlank d = false := by
  induction more generalizing w with
  | nil =>
    intro d hd
    rw [following, List.flatMap_nil, List.append_nil] at hd
    exact hw.unbroken d (List.mem_of_getLast? hd)
  | cons m more ih =>
    obtain ⟨n, c⟩ := m
    have hne : c.chars ++ following more ≠ [] := List.append_ne_nil_of_left_ne_nil c.isWord_chars.ne_nil _
    have hlast : (w ++ following ((n, c) :: more)).getLast? = (c.chars ++ following more).getLast? := by
      rw [following_cons, ← List.cons_append, ← List.append_assoc, List.getLast?_append_of_ne_nil _ hne]
    intro d hd
    exact ih c.isWord_chars d (hlast ▸ hd)

variable (r : VersionRange)

/-- a range starts with no blank but those around it -/
theorem isBlank_head {w : List Char} (hw : Text.IsWord w) (rest : List Char) :
    ∀ d ∈ (w ++ rest).head?, Text.isBlank d = false := by
  obtain ⟨d, v, rfl⟩ := List.exists_cons_of_ne_nil hw.ne_nil
  intro x hx
  obtain rfl : d = x := by simpa using hx
  exact hw.unbroken d List.mem_cons_self

/-- trimming takes the blanks around the constraints, and nothing else -/
theorem trim_chars : Text.trim r.chars = r.first.chars ++ following r.more := by
  have hword := r.first.isWord_chars
  have hstart : (r.first.chars ++ following r.more ++ r.after).dropWhile Text.isBlank =
      r.first.chars ++ following r.more ++ r.after := by
    rw [List.append_assoc]
    exact Text.dropWhile_eq_self (isBlank_head hword _)
  rw [Text.trim, chars, List.append_assoc, List.dropWhile_append_of_pos r.before_blank, hstart,
    Text.trimEnd_append r.after_blank, Text.trimEnd_eq_self (isBlank_getLast hword r.more)]

/-- a generation asks for all from the first number on -/
theorem bareVersion_text : Compiler.bareVersion r.text = r.opening := by
  rw [Compiler.bareVersion, text, String.toList_ofList, trim_chars, r.first.dropOperators_append, opening]

/-- the source states the constraints -/
theorem versionConstraint_text :
    Source.versionConstraint r.text = .ofList (r.first.stated.chars ++ following r.more) := by
  have hstrip : Text.strip r.text = .ofList (r.first.chars ++ following r.more) := by
    rw [Text.strip, text, String.toList_ofList, trim_chars]
  have hhead : (r.first.chars ++ following r.more).head? = r.first.chars.head? := by
    rw [List.head?_append_of_ne_nil _ r.first.isWord_chars.ne_nil]
  rw [Source.versionConstraint, hstrip, String.toList_ofList, hhead, r.first.head?_chars, r.first.chars_stated]
  cases r.first.bound.isSome with
  | true => rfl
  | false =>
    rw [if_neg Bool.false_ne_true, if_neg Bool.false_ne_true, List.cons_append, ← List.singleton_append]
    exact String.ofList_append.symm

/-- the numbers that the source states are those of the range -/
theorem statedNumbers_versionConstraint : statedNumbers (Source.versionConstraint r.text) = r.numbers := by
  have hfirst := r.first.stated.dropWhile_chars
  rw [versionConstraint_text, statedNumbers, String.toList_ofList, words_append_following r.first.stated.isWord_chars,
    List.map_cons, hfirst, numbers, List.map_cons, List.map_map, List.map_map]
  refine congrArg₂ List.cons rfl (List.map_congr_left fun m _ => ?_)
  exact congrArg String.ofList m.2.dropWhile_chars

/-! ## The text that is asked for -/

/-- a number has no space in it, so what is asked for is one just when nothing stands behind the first -/
theorem opening_mem_numbers_iff : r.opening ∈ r.numbers ↔ r.more = [] := by
  constructor
  · intro hm
    obtain ⟨c, -, hc⟩ := List.mem_map.1 hm
    cases hmore : r.more with
    | nil => rfl
    | cons m more =>
      have hspace : ' ' ∈ c.number := by
        rw [String.ofList_injective hc, hmore, following_cons]
        exact List.mem_append_right _ List.mem_cons_self
      exact absurd (c.isVersionNumber.isBlank_eq_false ' ' hspace) (by decide)
  · intro hmore
    have hopening : r.opening = .ofList r.first.number := by
      rw [opening, hmore, following, List.flatMap_nil, List.append_nil]
    rw [hopening, numbers, List.map_cons]
    exact List.mem_cons_self

/-- spaces before a range are dropped with its first operator -/
theorem dropOperators_of_spaces (h : ∀ c ∈ r.before, c = ' ') :
    Compiler.dropOperators r.chars = r.first.number ++ following r.more ++ r.after := by
  have hbefore : ∀ c ∈ r.before, Compiler.isConstraintChar c = true :=
    fun c hc => isConstraintChar_iff.2 (Or.inr (h c hc))
  rw [Compiler.dropOperators, chars, List.append_assoc, List.dropWhile_append_of_pos hbefore, List.append_assoc,
    ← Compiler.dropOperators, r.first.dropOperators_append, List.append_assoc]

/-- any other blank before a range stops the dropping, so that a blank stands at the start -/
theorem dropOperators_of_blank {c : Char} (hc : c ∈ r.before) (hs : c ≠ ' ') :
    ∃ b rest, Compiler.dropOperators r.chars = b :: rest ∧ Text.isBlank b = true := by
  have hstays : Compiler.isConstraintChar c = false := by
    refine Bool.eq_false_iff.2 fun hsign => ?_
    rcases isConstraintChar_iff.1 hsign with hsign | rfl
    · exact absurd (r.before_blank c hc) (by simp [(Bound.of_mem_signs hsign).2])
    · exact hs rfl
  have hne : r.before.dropWhile Compiler.isConstraintChar ≠ [] := by
    intro hnil
    have hall := List.dropWhile_eq_nil_iff.1 hnil c hc
    rw [hstays] at hall
    cases hall
  obtain ⟨b, rest, hrest⟩ := List.exists_cons_of_ne_nil hne
  have hb : b ∈ r.before := (List.dropWhile_suffix _).subset (hrest ▸ List.mem_cons_self)
  refine ⟨b, rest ++ (r.first.chars ++ following r.more ++ r.after), ?_, r.before_blank b hb⟩
  rw [Compiler.dropOperators, chars, List.append_assoc, List.dropWhile_append, hrest]
  rfl

/-- the command line asks for the same as a generation when no blanks but spaces at the start are around the range -/
theorem eq_opening_iff :
    String.ofList (Compiler.dropOperators r.text.toList) = r.opening ↔ (∀ c ∈ r.before, c = ' ') ∧ r.after = [] := by
  rw [text, String.toList_ofList, opening]
  by_cases hspaces : ∀ c ∈ r.before, c = ' '
  · rw [r.dropOperators_of_spaces hspaces]
    constructor
    · intro h
      exact ⟨hspaces, List.append_right_eq_self.1 (String.ofList_injective h)⟩
    · rintro ⟨-, hafter⟩
      rw [hafter, List.append_nil]
  · refine iff_of_false (fun h => ?_) fun h => hspaces h.1
    -- one text starts with a blank, the other with a digit
    obtain ⟨c, hc, hs⟩ := not_forall₂.1 hspaces
    obtain ⟨b, rest, hdrop, hb⟩ := r.dropOperators_of_blank hc hs
    obtain ⟨d, r', hnumber, hd⟩ := r.first.isVersionNumber.exists_cons
    have heq : b :: rest = d :: (r' ++ following r.more) := by
      rw [← hdrop, String.ofList_injective h, hnumber, List.cons_append]
    rw [(List.cons.inj heq).1, isBlank_of_isDigit hd] at hb
    cases hb

end VersionRange

/-! ## What is asked of the toolchain -/

/-- the version that something is asked for -/
def ToolchainCall.version? : ToolchainCall → Option String
  | install v => some v
  | compile _ c => c.version

/-- all that is asked is asked for one version, and something is asked just when there is something to compile -/
def AsksFor (calls : List ToolchainCall) (version : String) (toCompile : Prop) : Prop :=
  (calls ≠ [] ↔ toCompile) ∧ ∀ call ∈ calls, call.version? = some version

/-- a compiler of a version, with leave to install it, is asked for in that version -/
theorem LocalCompiler.asksFor_compile {c : LocalCompiler} {v : String} (hv : c.version = some v)
    (hm : c.mayInstall = true) (t : Toolchain) (request : Value) : AsksFor (c.compile t request).calls v True := by
  rw [compile]
  cases hmissing : c.missingVersion? t with
  | none => simp [AsksFor, ToolchainCall.version?, hv]
  | some w =>
    obtain rfl : v = w := by
      have hw := (Option.filter_eq_some_iff.1 hmissing).1
      exact Option.some.inj (hv.symm.trans hw)
    simp [AsksFor, ToolchainCall.version?, hv, hm]

namespace Generation

/-- a generation asks for its compiler when its source can be written and its name can be sent -/
theorem asksFor_calls {c : LocalCompiler} {v : String} (hv : c.version = some v) (hm : c.mayInstall = true)
    (g : Graph) (o : EmissionOptions) (s : CompilerSettings) (service : CompilerService) (t : Toolchain) :
    AsksFor (calls (run g o s service) c t) v
      (Source.IsWithinBounds g ∧ Text.isIdentifier o.contractName.toList = true) := by
  rw [calls, request_run, requestOf]
  by_cases hsent : Source.IsWithinBounds g ∧ Text.isIdentifier o.contractName.toList = true
  · rw [if_pos hsent]
    obtain ⟨hsome, hall⟩ := c.asksFor_compile hv hm t (Compiler.request (Source.emit g o) o.contractName s)
    exact ⟨iff_of_true (hsome.2 trivial) hsent, hall⟩
  · rw [if_neg hsent]
    exact ⟨iff_of_false (fun h => h rfl) hsent, by simp⟩

/-- what a generation without a compiler of its own asks of a toolchain -/
def defaultCalls (g : Graph) (o : EmissionOptions) (s : CompilerSettings) (t : Toolchain) : List ToolchainCall :=
  let c := defaultCompiler o s
  calls (run g o s (localService c t)) c t

/-- without a version in the settings, that of the language is taken -/
theorem version_defaultCompiler {s : CompilerSettings} (hs : ∀ v ∈ s.version, v = "") (o : EmissionOptions) :
    (defaultCompiler o s).version = some (Compiler.bareVersion o.languageVersion) := by
  have hnone : s.version.filter (· != "") = none := by
    refine Option.filter_eq_none_iff.2 fun v hv => ?_
    simp [hs v hv]
  rw [defaultCompiler, hnone, Option.getD_none]

end Generation

/-- what the command line compiles is a graph that was loaded, if its source can be written and its name can be sent -/
theorem CommandLine.asksFor_compile (e : Surroundings) (file : String) (v : Overrides) (s : CompilerSettings)
    (directory : String) : AsksFor (compile e file v s directory).calls
      (.ofList (Compiler.dropOperators (emissionOptions e (.ofText file) v true).languageVersion.toList))
      ((∃ g, loadGraph e (.ofText file) = .ok g ∧ Source.IsWithinBounds g) ∧
        Text.isIdentifier (emissionOptions e (.ofText file) v true).contractName.toList = true) := by
  rw [compile]
  cases hload : loadGraph e (.ofText file) with
  | error f =>
    have hcalls : (loadFailed (.ofText file) f).calls = [] := by
      rw [loadFailed]
      split <;> rfl
    refine ⟨iff_of_false (fun h => h hcalls) ?_, by simp [hcalls]⟩
    rintro ⟨⟨g, hg, -⟩, -⟩
    cases hg
  | ok g =>
    let o := emissionOptions e (.ofText file) v true
    let c : LocalCompiler :=
      ⟨some (.ofList (Compiler.dropOperators o.languageVersion.toList)), true, some e.directory, none⟩
    obtain ⟨hsome, hall⟩ :=
      Generation.asksFor_calls (c := c) rfl rfl g o s (Generation.localService c e.toolchain) e.toolchain
    refine ⟨hsome.trans ⟨fun h => ⟨⟨g, rfl, h.1⟩, h.2⟩, ?_⟩, hall⟩
    rintro ⟨⟨g', hg, hbounds⟩, hname⟩
    obtain rfl := Except.ok.inj hg
    exact ⟨hbounds, hname⟩

/-- the source has a line with the constraints on its version -/
theorem Source.versionLine_mem_lines (g : Graph) (o : EmissionOptions) :
    "pragma solidity " ++ versionConstraint o.languageVersion ++ ";" ∈ lines g o := by
  have hline : "pragma solidity " ++ versionConstraint o.languageVersion ++ ";" ≠ "" := by
    simp [String.append_eq_empty_iff]
  obtain ⟨before, rest, hparts⟩ : ∃ before rest, preamble g o =
      before ++ ("pragma solidity " ++ versionConstraint o.languageVersion ++ ";") :: rest :=
    ⟨["// SPDX-License-Identifier: " ++ o.license, ""], _, rfl⟩
  rw [lines, hparts, List.append_assoc, List.cons_append, dropEmptyEnd_append_cons before _ hline]
  simp

section Asked

variable (r : VersionRange) {o : EmissionOptions} (ho : o.languageVersion = r.text)
  {s : CompilerSettings} (hs : ∀ v ∈ s.version, v = "") {e : CommandLine.Surroundings} {file : String}
  {v : CommandLine.Overrides} (he : (CommandLine.emissionOptions e (.ofText file) v true).languageVersion = r.text)

include ho hs he

/-- **The version that is asked for is one of the source's just when it states one constraint.** The source states the
numbers of the range. A generation without a compiler of its own, and without a version in its settings, asks the
toolchain for all from the first number of the range on, and for nothing else; that is one of the numbers just when there
is no other constraint. The command line, for a file with this range, asks for one version as well, which is the same
just when there are no blanks around the range but spaces before it. -/
theorem asks_for_stated_iff (g : Graph) (t : Toolchain) (settings : CompilerSettings) (directory : String) :
    "pragma solidity " ++ Source.versionConstraint r.text ++ ";" ∈ Source.lines g o ∧
      statedNumbers (Source.versionConstraint r.text) = r.numbers ∧
      AsksFor (Generation.defaultCalls g o s t) r.opening
        (Source.IsWithinBounds g ∧ Text.isIdentifier o.contractName.toList = true) ∧
      (r.opening ∈ r.numbers ↔ r.more = []) ∧
      ∃ there, AsksFor (CommandLine.compile e file v settings directory).calls there
          ((∃ g, CommandLine.loadGraph e (.ofText file) = .ok g ∧ Source.IsWithinBounds g) ∧
            Text.isIdentifier (CommandLine.emissionOptions e (.ofText file) v true).contractName.toList = true) ∧
        (there = r.opening ↔ (∀ c ∈ r.before, c = ' ') ∧ r.after = []) := by
  have hversion : (Generation.defaultCompiler o s).version = some r.opening := by
    rw [Generation.version_defaultCompiler hs, ho, r.bareVersion_text]
  have hline := Source.versionLine_mem_lines g o
  have hcommand := CommandLine.asksFor_compile e file v settings directory
  rw [ho] at hline
  rw [he] at hcommand
  exact ⟨hline, r.statedNumbers_versionConstraint, Generation.asksFor_calls hversion rfl g o s _ t,
    r.opening_mem_numbers_iff, _, hcommand, r.eq_opening_iff⟩

end Asked

/-- the default options for a range -/
def VersionRange.options (r : VersionRange) : EmissionOptions := { EmissionOptions.default with languageVersion := r.text }

/-- arguments that override the range of a file -/
def VersionRange.overrides (r : VersionRange) : CommandLine.Overrides := ⟨none, none, some r.text⟩

/-- a toolchain without any compiler, and one text in every file -/
def bareMachine (text : String) : CommandLine.Surroundings :=
  ⟨fun _ => .bytes text.toUTF8.toList, "/", ⟨[], fun _ => .answers .emptyMap⟩, ⟨.ofUnix 0 0, "fresh"⟩⟩

/-- a file that lists no nodes holds a graph whose source can be written -/
theorem exists_loadGraph_bareMachine :
    ∃ g, CommandLine.loadGraph (bareMachine "nodes: []\n") (.ofText "g.yaml") = .ok g ∧ Source.IsWithinBounds g := by
  have hsmall : (CommandLine.loadGraph (bareMachine "nodes: []\n") (.ofText "g.yaml")).toOption.any
      (·.nodes.length ≤ 323) = true := by decide +kernel
  cases hg : CommandLine.loadGraph (bareMachine "nodes: []\n") (.ofText "g.yaml") with
  | ok g =>
    rw [hg] at hsmall
    exact ⟨g, rfl, Source.isWithinBounds_of_length_le (of_decide_eq_true hsmall)⟩
  | error f =>
    rw [hg] at hsmall
    cases hsmall

/-- one constraint with spaces before it -/
def indented : VersionRange :=
  ⟨[' ', ' '], ⟨some .compatible, "0.8.19".toList, by decide⟩, [], [], by simp [Text.isBlank], List.forall_mem_nil _⟩

theorem indented_asked :
    indented.options.languageVersion = indented.text ∧ (∀ v ∈ CompilerSettings.default.version, v = "") ∧
      (CommandLine.emissionOptions (bareMachine "nodes: []\n") (.ofText "g.yaml") indented.overrides true).languageVersion =
        indented.text ∧
      AsksFor (Generation.defaultCalls ∅ indented.options .default (bareMachine "").toolchain) "0.8.19" True ∧
      AsksFor (CommandLine.compile (bareMachine "nodes: []\n") "g.yaml" indented.overrides .default "build").calls
        "0.8.19" True := by
  have he : (CommandLine.emissionOptions (bareMachine "nodes: []\n") (.ofText "g.yaml") indented.overrides
      true).languageVersion = indented.text := by rfl
  have hname : Text.isIdentifier (CommandLine.emissionOptions (bareMachine "nodes: []\n") (.ofText "g.yaml")
      indented.overrides true).contractName.toList = true := by decide +kernel
  have hs : ∀ v ∈ CompilerSettings.default.version, v = "" := fun v hv => nomatch hv
  obtain ⟨-, -, hasked, -, there, hthere, hsame⟩ := asks_for_stated_iff indented (o := indented.options) rfl hs he ∅
    (bareMachine "").toolchain .default "build"
  obtain rfl := hsame.2 ⟨by simp [indented], rfl⟩
  have hopening : indented.opening = "0.8.19" := by decide
  rw [hopening] at hasked hthere
  have hsent : Source.IsWithinBounds ∅ ∧ Text.isIdentifier indented.options.contractName.toList = true :=
    ⟨Source.isWithinBounds_of_length_le (by decide), by decide⟩
  exact ⟨rfl, hs, he, ⟨hasked.1.trans (iff_true_intro hsent), hasked.2⟩,
    ⟨hthere.1.trans (iff_true_intro ⟨exists_loadGraph_bareMachine, hname⟩), hthere.2⟩⟩

/-- at least one version, and below another -/
def between : VersionRange :=
  ⟨[], ⟨some .atLeast, "0.8.0".toList, by decide⟩, [(0, ⟨some .below, "0.9.0".toList, by decide⟩)], [],
    List.forall_mem_nil _, List.forall_mem_nil _⟩

/-- one number with a space behind it -/
def trailing : VersionRange :=
  ⟨[], ⟨none, "0.8.19".toList, by decide⟩, [], [' '], List.forall_mem_nil _, by simp [Text.isBlank]⟩

/-- **A range is asked for as if it were a version.** A generation asks for the second constraint with the first number,
and the command line for the space behind a number. -/
theorem several_constraints_asked :
    statedNumbers (Source.versionConstraint between.text) = ["0.8.0", "0.9.0"] ∧
      (Generation.defaultCalls ∅ between.options .default (bareMachine "").toolchain).map ToolchainCall.version? =
        [some "0.8.0 <0.9.0", some "0.8.0 <0.9.0"] ∧
      statedNumbers (Source.versionConstraint trailing.text) = ["0.8.19"] ∧
      (CommandLine.compile (bareMachine "nodes: []\n") "g.yaml" trailing.overrides .default "build").calls.map
        ToolchainCall.version? = [some "0.8.19 ", some "0.8.19 "] := by
  refine ⟨by decide +kernel, by decide +kernel, by decide +kernel, by decide +kernel⟩

end ContractGraph
