/-
Reading a Solidity type from its spelling.

Every text spells a type: one that is no elementary type, array or mapping names a contract or another user-defined type.
Blanks around a type, around the two halves of a mapping and before its parenthesis have no meaning; digits may be of
any script. Only a number with too many digits, or types that are nested too deeply, keep a type from being used (`read`).
-/
import ContractGraph.SolType.Basic
import ContractGraph.Text.Blank

namespace ContractGraph.SolType

open ContractGraph.Text

/-- what follows a literal at the start of a text -/
def after? : List Char → List Char → Option (List Char)
  | [], cs => some cs
  | _ :: _, [] => none
  | l :: ls, c :: cs => if l = c then after? ls cs else none

theorem length_of_after? {l cs r : List Char} (h : after? l cs = some r) : cs.length = l.length + r.length := by
  induction l generalizing cs with
  | nil => simp_all [after?]
  | cons a l ih =>
    cases cs with
    | nil => simp [after?] at h
    | cons c cs =>
      simp only [after?] at h
      split at h
      · simp [ih h]; omega
      · simp at h

/-- the digits behind a type's keyword: `some none` when there are none -/
def size? (keyword : String) (cs : List Char) : Option (Option Nat) :=
  match after? keyword.toList cs with
  | some [] => some none
  | some ds => (natural? ds).map some
  | none => none

/-- an elementary type, from a text without blanks around it -/
def elementary? (cs : List Char) : Option SolType :=
  let name := String.ofList cs
  match size? "uint" cs, size? "int" cs with
  | some w, _ => some (.elementary name .integer (some (w.getD 256)) false none)
  | none, some w => some (.elementary name .integer (some (w.getD 256)) true none)
  | none, none =>
    if name = "address" ∨ name = "address payable" then some (.elementary name .address none false none)
    else if name = "bool" then some (.elementary name .boolean none false none)
    else if name = "string" then some (.elementary name .string none false none)
    else (size? "bytes" cs).map fun n => .elementary name .bytes none false (n.map Int.ofNat)

/-- the element and the size of an array type: one line, and digits or nothing between brackets at the end -/
def arrayParts? (cs : List Char) : Option (List Char × Option Nat) :=
  match cs.reverse with
  | ']' :: r =>
    match r.dropWhile isDigit with
    | '[' :: e =>
      let ds := (r.takeWhile isDigit).reverse
      if e = [] ∨ '\n' ∈ e then none else some (e.reverse, if ds = [] then none else some (numeral ds))
    | _ => none
  | _ => none

theorem length_of_arrayParts? {cs e : List Char} {n : Option Nat} (h : arrayParts? cs = some (e, n)) :
    e.length < cs.length := by
  unfold arrayParts? at h
  split at h
  · next r hr =>
    split at h
    · next e' he =>
      split at h
      · simp at h
      · simp only [Option.some.injEq, Prod.mk.injEq] at h
        have h1 := (List.dropWhile_suffix isDigit (l := r)).length_le
        have h2 := congrArg List.length hr
        rw [he] at h1
        simp at h1 h2
        rw [← h.1]
        simp
        omega
    · simp at h
  · simp at h

/-- the value half of a mapping: one line, not empty, although it may be blank -/
def valueHalf? (cs : List Char) : Option (List Char) :=
  let v := trim cs
  if '\n' ∈ v ∨ cs.all (· = '\n') then none else some v

/-- the halves around the first arrow that has one line on each side; `seen` is what stands before, in reverse -/
def aroundArrow? (seen : List Char) : List Char → Option (List Char × List Char)
  | [] => none
  | '=' :: '>' :: r =>
    let key := trimEnd seen.reverse
    match (if key = [] ∨ '\n' ∈ key then none else valueHalf? r) with
    | some value => some (key, value)
    | none => aroundArrow? ('=' :: seen) ('>' :: r)
  | c :: r => aroundArrow? (c :: seen) r

/-- the halves of what stands between a mapping's parentheses; a blank key is taken only when nothing else will do -/
def halves? (body : List Char) : Option (List Char × List Char) :=
  let text := body.dropWhile isBlank
  match aroundArrow? [] text with
  | some halves => some halves
  | none =>
    match after? ['=', '>'] text with
    | some r => if (body.takeWhile isBlank).all (· = '\n') then none else (valueHalf? r).map ([], ·)
    | none => none

/-- the key and the value of a mapping type -/
def mappingParts? (cs : List Char) : Option (List Char × List Char) :=
  match after? "mapping".toList cs with
  | some r =>
    match r.dropWhile isBlank with
    | '(' :: r' => if r'.getLast? = some ')' then halves? r'.dropLast else none
    | _ => none
  | none => none

theorem length_of_valueHalf? {cs v : List Char} (h : valueHalf? cs = some v) : v.length ≤ cs.length := by
  unfold valueHalf? at h
  simp only at h
  split at h
  · simp at h
  · simp only [Option.some.injEq] at h
    exact h ▸ length_trim_le cs

theorem length_of_aroundArrow? {seen cs k v : List Char} (h : aroundArrow? seen cs = some (k, v)) :
    k.length ≤ seen.length + cs.length ∧ v.length ≤ cs.length := by
  fun_induction aroundArrow? seen cs with
  | case1 => simp at h
  | case2 seen r key value hv =>
    simp only [Option.some.injEq, Prod.mk.injEq] at h
    have hk : key.length ≤ seen.length := by simpa using (trimEnd_isPrefixOf seen.reverse).length_le
    split at hv
    · simp at hv
    · have := length_of_valueHalf? hv
      simp only [List.length_cons]
      rw [← h.1, ← h.2]
      omega
  | case3 seen r key hv ih =>
    have := ih h
    simp only [List.length_cons] at this ⊢
    omega
  | case4 seen c r hc ih =>
    have := ih h
    simp only [List.length_cons] at this ⊢
    omega

theorem length_of_mappingParts? {cs k v : List Char} (h : mappingParts? cs = some (k, v)) :
    k.length < cs.length ∧ v.length < cs.length := by
  unfold mappingParts? at h
  split at h
  · next r hr =>
    have h0 := length_of_after? hr
    have h1 := (List.dropWhile_suffix isBlank (l := r)).length_le
    have h7 : ("mapping".toList).length = 7 := by decide
    split at h
    · next r' hr' =>
      rw [hr'] at h1
      simp only [List.length_cons] at h1
      split at h
      · have hb : r'.dropLast.length ≤ r'.length := by simp
        have h2 := (List.dropWhile_suffix isBlank (l := r'.dropLast)).length_le
        unfold halves? at h
        simp only at h
        split at h
        · next hs ha =>
          have := length_of_aroundArrow? (ha.trans h)
          simp only [List.length_nil] at this
          omega
        · split at h
          · next r'' ha =>
            have h3 := length_of_after? ha
            split at h
            · simp at h
            · obtain ⟨v', hv', he⟩ := Option.map_eq_some_iff.1 h
              have := length_of_valueHalf? hv'
              simp only [Prod.mk.injEq] at he
              rw [← he.1, ← he.2]
              simp only [List.length_cons, List.length_nil] at h3 ⊢
              omega
          · simp at h
      · simp at h
    · simp at h
  · simp at h

/-- the type that a text spells -/
def ofChars (text : List Char) : SolType :=
  let cs := trim text
  match elementary? cs with
  | some t => t
  | none =>
    match _ha : arrayParts? cs with
    | some (e, n) => .array (.ofList cs) (ofChars e) (n.map Int.ofNat)
    | none =>
      match _hm : mappingParts? cs with
      | some (k, v) => .mapping (.ofList cs) (ofChars k) (ofChars v)
      | none => .contract (.ofList cs)
termination_by text.length
decreasing_by
  · exact Nat.lt_of_lt_of_le (length_of_arrayParts? _ha) (length_trim_le text)
  · exact Nat.lt_of_lt_of_le (length_of_mappingParts? _hm).1 (length_trim_le text)
  · exact Nat.lt_of_lt_of_le (length_of_mappingParts? _hm).2 (length_trim_le text)

/-- the type that a string spells -/
def ofString (s : String) : SolType := ofChars s.toList

end ContractGraph.SolType

namespace ContractGraph

/-- why a type that a text spells cannot be used -/
inductive TypeFault where
  /-- a width or a size has too many digits -/
  | longNumber
  /-- types are nested too deeply -/
  | tooDeep
deriving DecidableEq, Repr

end ContractGraph

namespace ContractGraph.SolType

open ContractGraph.Text

/-- how deep the types of a text may be nested -/
def nestingLimit : Nat := 985

/-- does a text begin with too many digits? -/
def beginsLong (cs : List Char) : Bool := digitLimit < (cs.takeWhile isDigit).length

/-- has a width or a size too many digits in the name that it is written in? -/
def hasLongNumber : SolType → Bool
  | elementary n .. => beginsLong n.toList.reverse
  | array n element _ => element.hasLongNumber || beginsLong (n.toList.reverse.drop 1)
  | mapping _ key value => key.hasLongNumber || value.hasLongNumber
  | _ => false

/-- why a type cannot be used, if it cannot -/
def fault? (t : SolType) : Option TypeFault :=
  if nestingLimit < t.depth then some .tooDeep else if t.hasLongNumber then some .longNumber else none

/-- the type that a string spells, if it can be used -/
def read (s : String) : Except TypeFault SolType :=
  match (ofString s).fault? with
  | some f => .error f
  | none => .ok (ofString s)

theorem read_eq_ok_iff {s : String} {t : SolType} : read s = .ok t ↔ t = ofString s ∧ t.fault? = none := by
  unfold read
  split
  · next f h =>
    simp only [reduceCtorEq, false_iff, not_and]
    intro e
    simp [e, h]
  · next h =>
    simp only [Except.ok.injEq]
    constructor
    · rintro rfl
      exact ⟨rfl, h⟩
    · exact fun e => e.1.symm

end ContractGraph.SolType
