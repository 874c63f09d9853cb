/-
The types of the grammar are read from their canonical spellings.

A tree of the grammar is an elementary type, the name of a user-defined type, an array, or a mapping whose key has no
mapping in it. Trees that are no such types cannot be built: the index of `Tree` says whether there is a mapping in it.
The reader knows no grammar, so each form is shown to be taken for itself: only a leaf has no closing bracket or
parenthesis at its end, and the first arrow in a mapping is its own, since none stands in a key.

Results:
- `Tree.ofChars_chars`: the spelling of a tree is read as that tree, at any nesting depth;
- `Tree.fault?_type`: the type can be used when it is not nested too deeply and no number in it has too many digits;
- `Tree.read_spelling`: both, and the canonical spelling of what is read is the spelling again.
Witness:
- `Tree.long_width_not_read`: the type of a width with one digit too many is a tree, and cannot be used.
-/
import ContractGraph.Text.Identifier
import ContractGraph.Proofs.SolType.Forms

namespace ContractGraph

namespace Text

theorem bounds_of_isNameRest {c : Char} (h : isNameRest c = true) : 0x21 ≤ c.toNat ∧ c.toNat ≤ 0x7A := by
  have hends : 'A'.toNat = 0x41 ∧ 'Z'.toNat = 0x5A ∧ 'a'.toNat = 0x61 ∧ 'z'.toNat = 0x7A ∧ '0'.toNat = 0x30 ∧
      '9'.toNat = 0x39 := by decide
  rcases Bool.or_eq_true_iff.1 h with h | h
  · rcases Bool.or_eq_true_iff.1 h with h | h
    · rcases Bool.or_eq_true_iff.1 h with hletter | hdigit
      · rcases Bool.or_eq_true_iff.1 hletter with hupper | hlower
        · have hbounds : 'A'.toNat ≤ c.toNat ∧ c.toNat ≤ 'Z'.toNat := of_decide_eq_true hupper
          omega
        · obtain ⟨hfirst, hlast⟩ := Bool.and_eq_true_iff.1 hlower
          have hbounds : 'a'.toNat ≤ c.toNat ∧ c.toNat ≤ 'z'.toNat :=
            ⟨of_decide_eq_true hfirst, of_decide_eq_true hlast⟩
          omega
      · obtain ⟨hfirst, hlast⟩ := Bool.and_eq_true_iff.1 hdigit
        have hbounds : '0'.toNat ≤ c.toNat ∧ c.toNat ≤ '9'.toNat :=
          ⟨of_decide_eq_true hfirst, of_decide_eq_true hlast⟩
        omega
    · rw [beq_iff_eq.1 h]
      decide
  · rw [beq_iff_eq.1 h]
    decide

theorem isBlank_of_isNameRest {c : Char} (h : isNameRest c = true) : isBlank c = false := by
  obtain ⟨h1, h2⟩ := bounds_of_isNameRest h
  simp only [isBlank]
  grind

theorem isNameRest_of_isNameStart {c : Char} (h : isNameStart c = true) : isNameRest c = true := by
  simp only [isNameStart, Bool.or_eq_true] at h
  simp only [isNameRest, Char.isAlphanum, Bool.or_eq_true]
  tauto

theorem isNameRest_of_mem_decimal {n : Nat} : ∀ c ∈ decimal n, isNameRest c = true := by
  intro c hc
  have hd : c.isDigit = true := Nat.isDigit_of_mem_toDigits (by decide) (by decide) hc
  simp [isNameRest, Char.isAlphanum, hd]

/-- a digit that may stand in a name is an ASCII digit -/
theorem isDigit_ascii {c : Char} (h : isNameRest c = true) (hd : isDigit c = true) : c.isDigit = true := by
  have hlt : c.toNat < 128 := Nat.lt_of_le_of_lt (bounds_of_isNameRest h).2 (by decide)
  rw [isDigit, digitValue?, if_pos hlt] at hd
  split at hd
  · next hrange => simpa [Char.isDigit, Char.le_def] using hrange
  · cases hd

end Text

namespace SolType

open ContractGraph.Text

/-! ## Trees of the grammar -/

/-- an identifier that names no elementary type -/
structure IsUserName (id : List Char) : Prop where
  start : ∃ c r, id = c :: r ∧ isNameStart c = true ∧ ∀ d ∈ r, isNameRest d = true
  not_word : id ∉ ["address", "bool", "string"].map String.toList
  /-- something else than digits follows the keyword of a sized type -/
  not_sized : ∀ keyword ∈ ["uint", "int", "bytes"], ∀ ds, id = keyword.toList ++ ds → ∃ c ∈ ds, c.isDigit = false

/-- a type of the grammar; the index tells whether there is a mapping in it -/
inductive Tree : Bool → Type where
  | integer (signed : Bool) (width : Option Nat) : Tree false
  | address (payable : Bool) : Tree false
  | bool : Tree false
  | string : Tree false
  | bytes (size : Option Nat) : Tree false
  | named (id : List Char) (isUserName : IsUserName id) : Tree false
  | array {m : Bool} (element : Tree m) (size : Option Nat) : Tree m
  | mapping {m : Bool} (key : Tree false) (value : Tree m) : Tree true

namespace Tree

variable {m : Bool}

/-- the characters of the canonical spelling -/
def chars : {m : Bool} → Tree m → List Char
  | _, integer signed width => (if signed then "int" else "uint").toList ++ sizeDigits width
  | _, address payable => (if payable then "address payable" else "address").toList
  | _, bool => "bool".toList
  | _, string => "string".toList
  | _, bytes size => "bytes".toList ++ sizeDigits size
  | _, named id _ => id
  | _, array element size => arrayText element.chars (sizeDigits size)
  | _, mapping key value => mappingText key.chars value.chars

/-- the canonical spelling -/
def spelling (t : Tree m) : String := .ofList t.chars

/-- the type that is built from a tree; each part has its own spelling as its name -/
def type : {m : Bool} → Tree m → SolType
  | _, t@(integer signed width) => .elementary t.spelling .integer (some (width.getD 256)) signed none
  | _, t@(address _) => .elementary t.spelling .address none false none
  | _, t@bool => .elementary t.spelling .boolean none false none
  | _, t@string => .elementary t.spelling .string none false none
  | _, t@(bytes size) => .elementary t.spelling .bytes none false (size.map Int.ofNat)
  | _, t@(named _ _) => .contract t.spelling
  | _, t@(array element size) => .array t.spelling element.type (size.map Int.ofNat)
  | _, t@(mapping key value) => .mapping t.spelling key.type value.type

/-- the widths and sizes that are written in a tree -/
def numbers : {m : Bool} → Tree m → List Nat
  | _, integer _ width => width.toList
  | _, bytes size => size.toList
  | _, array element size => element.numbers ++ size.toList
  | _, mapping key value => key.numbers ++ value.numbers
  | _, address _ | _, bool | _, string | _, named _ _ => []

/-! ## Spellings -/

/-- a text that is not empty, has no blank at its ends and stands on one line -/
structure IsNeat (cs : List Char) : Prop where
  ne_nil : cs ≠ []
  trimmed : trim cs = cs
  line : '\n' ∉ cs

theorem IsNeat.head {cs : List Char} (h : IsNeat cs) : ∀ c ∈ cs.head?, isBlank c = false := by
  intro c hc
  rw [← h.trimmed] at hc
  exact isBlank_of_head?_trim c hc

/-- a word of characters that may stand in names -/
theorem isNeat_word {cs : List Char} (hne : cs ≠ []) (h : ∀ c ∈ cs, isNameRest c = true) : IsNeat cs := by
  refine ⟨hne, trim_eq_self ?_ ?_, fun hc => absurd (h _ hc) (by decide)⟩
  · intro c hc
    exact isBlank_of_isNameRest (h c (List.mem_of_mem_head? hc))
  · intro c hc
    exact isBlank_of_isNameRest (h c (List.mem_of_getLast? hc))

/-- a keyword and the digits of a size -/
theorem isNameRest_sized {keyword : List Char} (h : ∀ c ∈ keyword, isNameRest c = true) (n : Option Nat) :
    ∀ c ∈ keyword ++ sizeDigits n, isNameRest c = true := by
  intro c hc
  rcases List.mem_append.1 hc with hc | hc
  · exact h c hc
  · cases n with
    | none => cases hc
    | some n => exact isNameRest_of_mem_decimal c hc

theorem isNeat_sized {keyword : List Char} (hne : keyword ≠ []) (h : ∀ c ∈ keyword, isNameRest c = true)
    (n : Option Nat) : IsNeat (keyword ++ sizeDigits n) :=
  isNeat_word (List.append_ne_nil_of_left_ne_nil hne _) (isNameRest_sized h n)

theorem isNeat_arrayText {e ds : List Char} (h : IsNeat e) (hds : ∀ c ∈ ds, isDigit c = true) :
    IsNeat (arrayText e ds) := by
  refine ⟨?_, trim_arrayText h.head ds, ?_⟩
  · simp [arrayText]
  · have hline : '\n' ∉ ds := fun hc => absurd (hds _ hc) (by decide)
    simp [arrayText, h.line, hline]

theorem isNeat_mappingText {k v : List Char} (hk : '\n' ∉ k) (hv : '\n' ∉ v) : IsNeat (mappingText k v) := by
  refine ⟨?_, trim_mappingText k v, ?_⟩
  · intro h
    have hlast := getLast?_mappingText k v
    rw [h] at hlast
    cases hlast
  · unfold mappingText arrowText
    simp only [List.mem_append, not_or]
    exact ⟨by decide, ⟨⟨hk, by decide⟩, hv⟩, by decide⟩

theorem isNameRest_of_isUserName {id : List Char} (h : IsUserName id) : ∀ c ∈ id, Text.isNameRest c = true := by
  obtain ⟨c, r, rfl, hc, hr⟩ := h.start
  intro d hd
  rcases List.mem_cons.1 hd with rfl | hd
  · exact isNameRest_of_isNameStart hc
  · exact hr d hd

theorem isNeat_chars (t : Tree m) : IsNeat t.chars := by
  induction t with
  | integer signed width =>
    apply isNeat_sized
    · cases signed <;> decide
    · apply List.all_eq_true.1
      cases signed <;> rfl
  | address payable =>
    cases payable with
    | false => exact isNeat_word (by decide) (List.all_eq_true.1 rfl)
    | true => exact ⟨by decide, by decide, by decide⟩
  | bool => exact isNeat_word (by decide) (List.all_eq_true.1 rfl)
  | string => exact isNeat_word (by decide) (List.all_eq_true.1 rfl)
  | bytes size => exact isNeat_sized (by decide) (List.all_eq_true.1 rfl) size
  | named id h =>
    apply isNeat_word
    · obtain ⟨c, r, rfl, -⟩ := h.start
      exact List.cons_ne_nil c r
    · exact isNameRest_of_isUserName h
  | array element size ih => exact isNeat_arrayText ih isDigit_of_mem_sizeDigits
  | mapping key value ihk ihv => exact isNeat_mappingText ihk.line ihv.line

/-- no arrow stands in a type without a mapping -/
theorem notMem_chars (t : Tree m) (hm : m = false) : '>' ∉ t.chars := by
  induction t with
  | integer signed width =>
    intro hc
    refine absurd (isNameRest_sized (List.all_eq_true.1 ?_) width _ hc) (by decide)
    cases signed <;> rfl
  | address payable => cases payable <;> decide
  | bool => decide
  | string => decide
  | bytes size =>
    intro hc
    exact absurd (isNameRest_sized (List.all_eq_true.1 rfl) size _ hc) (by decide)
  | named id h =>
    intro hc
    exact absurd (isNameRest_of_isUserName h _ hc) (by decide)
  | array element size ih =>
    have hdigits : '>' ∉ sizeDigits size := fun hc => absurd (isDigit_of_mem_sizeDigits _ hc) (by decide)
    change '>' ∉ arrayText element.chars (sizeDigits size)
    simp [arrayText, ih hm, hdigits]
  | mapping key value _ _ => cases hm

/-! ## Leaves -/

theorem size?_self (keyword : String) (n : Option Nat) : size? keyword (keyword.toList ++ sizeDigits n) = some n :=
  size?_eq_some_iff.2 ⟨sizeDigits n, rfl, isDigit_of_mem_sizeDigits, (writtenSize_sizeDigits n).symm⟩

theorem elementary?_integer (signed : Bool) (width : Option Nat) :
    elementary? (integer signed width).chars = some (integer signed width).type := by
  cases signed with
  | false =>
    have hsize : size? "uint" (integer false width).chars = some width := size?_self "uint" width
    simp only [elementary?, hsize]
    rfl
  | true =>
    have hother : size? "uint" (integer true width).chars = none := rfl
    have hsize : size? "int" (integer true width).chars = some width := size?_self "int" width
    simp only [elementary?, hother, hsize]
    rfl

theorem elementary?_bytes (size : Option Nat) : elementary? (bytes size).chars = some (bytes size).type := by
  have huint : size? "uint" (bytes size).chars = none := rfl
  have hint : size? "int" (bytes size).chars = none := rfl
  have hsize : size? "bytes" (bytes size).chars = some size := size?_self "bytes" size
  have hword : ∀ w : String, w.toList.head? ≠ some 'b' → String.ofList (bytes size).chars ≠ w := by
    rintro w hw rfl
    rw [String.toList_ofList] at hw
    exact hw rfl
  have hbool : String.ofList (bytes size).chars ≠ "bool" := by
    intro h
    have hchars : (bytes size).chars = "bool".toList := by rw [← h, String.toList_ofList]
    cases hchars
  simp only [elementary?, huint, hint, hsize]
  rw [if_neg (not_or.2 ⟨hword _ (by decide), hword _ (by decide)⟩), if_neg hbool, if_neg (hword _ (by decide))]
  rfl

/-- digits of any script in a user's name are ASCII digits, so no keyword is taken for its start -/
theorem size?_of_isUserName {id : List Char} (h : IsUserName id) {keyword : String}
    (hk : keyword ∈ ["uint", "int", "bytes"]) : size? keyword id = none := by
  cases hs : size? keyword id with
  | none => rfl
  | some n =>
    obtain ⟨ds, hid, hds, -⟩ := size?_eq_some_iff.1 hs
    obtain ⟨c, hc, hdigit⟩ := h.not_sized keyword hk ds hid
    have hname : isNameRest c = true := by
      apply isNameRest_of_isUserName h
      rw [hid]
      exact List.mem_append_right _ hc
    rw [isDigit_ascii hname (hds c hc)] at hdigit
    cases hdigit

theorem elementary?_of_isUserName {id : List Char} (h : IsUserName id) : elementary? id = none := by
  have hword : ∀ w ∈ ["address", "bool", "string"], String.ofList id ≠ w := by
    rintro w hw rfl
    exact h.not_word (List.mem_map.2 ⟨_, hw, String.toList_ofList⟩)
  have hpayable : String.ofList id ≠ "address payable" := by
    intro hid
    have hblank : ' ' ∈ id := by
      rw [← String.toList_ofList (l := id), hid]
      decide
    exact absurd (isNameRest_of_isUserName h _ hblank) (by decide)
  have huint : size? "uint" id = none := size?_of_isUserName h (by simp)
  have hint : size? "int" id = none := size?_of_isUserName h (by simp)
  have hbytes : size? "bytes" id = none := size?_of_isUserName h (by simp)
  simp only [elementary?, huint, hint, hbytes]
  rw [if_neg (not_or.2 ⟨hword _ (by simp), hpayable⟩), if_neg (hword _ (by simp)), if_neg (hword _ (by simp))]
  rfl

/-- a word of characters that may stand in names has no bracket -/
theorem arrayParts?_of_word {cs : List Char} (h : ∀ c ∈ cs, isNameRest c = true) : arrayParts? cs = none := by
  cases ha : arrayParts? cs with
  | none => rfl
  | some parts =>
    obtain ⟨ds, hcs, -⟩ := arrayParts?_eq_some_iff (e := parts.1) (n := parts.2).1 ha
    have hbracket : '[' ∈ cs := by simp [hcs]
    exact absurd (h _ hbracket) (by decide)

/-- nor a parenthesis -/
theorem mappingParts?_of_word {cs : List Char} (h : ∀ c ∈ cs, isNameRest c = true) : mappingParts? cs = none := by
  cases hm : mappingParts? cs with
  | none => rfl
  | some parts =>
    obtain ⟨w, body, hcs, -⟩ := mappingParts?_eq_some_iff (k := parts.1) (v := parts.2).1 hm
    have hparenthesis : '(' ∈ cs := by simp [hcs]
    exact absurd (h _ hparenthesis) (by decide)

theorem ofChars_of_isUserName {id : List Char} (h : IsUserName id) : ofChars id = .contract (.ofList id) := by
  have htrim : trim id = id := (isNeat_chars (named id h)).trimmed
  have hword := isNameRest_of_isUserName h
  rw [ofChars_of_contract (by rw [htrim, elementary?_of_isUserName h]) (by rw [htrim, arrayParts?_of_word hword])
    (by rw [htrim, mappingParts?_of_word hword]), htrim]

/-! ## Reading a spelling -/

/-- a leaf with an elementary type is read as that type -/
theorem ofChars_leaf (t : Tree m) (h : elementary? t.chars = some t.type) : ofChars t.chars = t.type := by
  apply ofChars_of_elementary
  rw [(isNeat_chars t).trimmed, h]

/-- **A spelling of the grammar is read as the tree that it spells.** -/
theorem ofChars_chars (t : Tree m) : ofChars t.chars = t.type := by
  induction t with
  | integer signed width => exact ofChars_leaf _ (elementary?_integer signed width)
  | address payable =>
    apply ofChars_leaf
    cases payable <;> rfl
  | bool => exact ofChars_leaf _ rfl
  | string => exact ofChars_leaf _ rfl
  | bytes size => exact ofChars_leaf _ (elementary?_bytes size)
  | named id h => exact ofChars_of_isUserName h
  | array element size ih =>
    have hneat := isNeat_chars element
    have hread := ofChars_array hneat.ne_nil hneat.line hneat.head (isDigit_of_mem_sizeDigits (n := size))
    rw [ih, writtenSize_sizeDigits] at hread
    exact hread
  | mapping key value ihk ihv =>
    have hkey := isNeat_chars key
    have hvalue := isNeat_chars value
    have hhalves : IsHalves key.chars value.chars := by
      refine ⟨hkey.trimmed, hvalue.trimmed, hkey.line, hvalue.line, fun harrow => ?_, fun hnil => ?_⟩
      · exact notMem_chars key rfl (List.mem_of_mem_tail (mem_of_hasArrow harrow))
      · exact absurd hnil hkey.ne_nil
    have hread := ofChars_mapping hhalves
    rw [ihk, ihv] at hread
    exact hread

theorem toList_render_type (t : Tree m) : t.type.render.toList = t.chars := by
  induction t with
  | array element size ih =>
    rw [type, toList_render_array, ih]
    rfl
  | mapping key value ihk ihv =>
    rw [type, toList_render_mapping, ihk, ihv]
    rfl
  | _ => exact String.toList_ofList

/-! ## Limits -/

/-- a size is short when each number that it states has few digits -/
theorem short_iff (n : Option Nat) :
    decide (digitLimit < (sizeDigits n).length) = false ↔ ∀ k ∈ n.toList, (decimal k).length ≤ digitLimit := by
  cases n with
  | none => simp [sizeDigits]
  | some n =>
    rw [sizeDigits, decide_eq_false_iff_not, Nat.not_lt]
    simp

theorem hasLongNumber_sized {keyword : List Char} (h : keyword.reverse.takeWhile isDigit = []) (n : Option Nat)
    (base : Base) (width : Option Int) (signed : Bool) (size : Option Int) :
    (elementary (.ofList (keyword ++ sizeDigits n)) base width signed size).hasLongNumber = false ↔
      ∀ k ∈ n.toList, (decimal k).length ≤ digitLimit := by
  rw [hasLongNumber, String.toList_ofList, beginsLong_sized h isDigit_of_mem_sizeDigits]
  exact short_iff n

theorem hasLongNumber_type (t : Tree m) :
    t.type.hasLongNumber = false ↔ ∀ n ∈ t.numbers, (decimal n).length ≤ digitLimit := by
  induction t with
  | integer signed width =>
    apply hasLongNumber_sized
    cases signed <;> decide
  | address payable =>
    refine ⟨fun _ n hn => absurd hn List.not_mem_nil, fun _ => ?_⟩
    cases payable <;> rfl
  | bool => exact ⟨fun _ n hn => absurd hn List.not_mem_nil, fun _ => rfl⟩
  | string => exact ⟨fun _ n hn => absurd hn List.not_mem_nil, fun _ => rfl⟩
  | bytes size => exact hasLongNumber_sized (by decide) size _ _ _ _
  | named id h => exact ⟨fun _ n hn => absurd hn List.not_mem_nil, fun _ => rfl⟩
  | array element size ih =>
    have hlong : (array element size).type.hasLongNumber =
        (element.type.hasLongNumber || decide (digitLimit < (sizeDigits size).length)) :=
      hasLongNumber_array (e := element.chars) String.toList_ofList isDigit_of_mem_sizeDigits _ _
    rw [hlong, Bool.or_eq_false_iff, ih, short_iff, ← List.forall_mem_append]
    rfl
  | mapping key value ihk ihv =>
    change (key.type.hasLongNumber || value.type.hasLongNumber) = false ↔
      ∀ n ∈ key.numbers ++ value.numbers, (decimal n).length ≤ digitLimit
    rw [Bool.or_eq_false_iff, ihk, ihv, List.forall_mem_append]

theorem fault?_type (t : Tree m) :
    t.type.fault? = none ↔ t.type.depth ≤ nestingLimit ∧ ∀ n ∈ t.numbers, (decimal n).length ≤ digitLimit := by
  rw [fault?_eq_none_iff, hasLongNumber_type]

/-! ## Main result -/

theorem ofString_spelling (t : Tree m) : ofString t.spelling = t.type := by
  rw [ofString, spelling, String.toList_ofList, ofChars_chars]

/-- **The reader knows the grammar.** The spelling of every tree is read as the tree itself, with each part's own
spelling as its name, and is the canonical spelling of what is read, at any nesting depth. The type can be used just
when it is nested no deeper than types may be, and no width or size in it has too many digits. -/
theorem read_spelling (t : Tree m) :
    ofString t.spelling = t.type ∧ t.type.render = t.spelling ∧
      (read t.spelling = .ok t.type ↔
        t.type.depth ≤ nestingLimit ∧ ∀ n ∈ t.numbers, (decimal n).length ≤ digitLimit) := by
  have hrender : t.type.render = t.spelling := by
    rw [spelling, ← toList_render_type, String.ofList_toList]
  refine ⟨ofString_spelling t, hrender, ?_⟩
  rw [read_eq_ok_iff, ofString_spelling, fault?_type]
  exact and_iff_right rfl

example : (mapping (address false) (array (integer false (some 8)) (some 4))).spelling =
    "mapping(address => uint8[4])" := by decide

/-- **Not every type of the grammar can be used.** The width of this integer type has one digit too many. -/
theorem long_width_not_read :
    read (integer false (some (10 ^ digitLimit))).spelling = .error .longNumber := by
  have hlong : (integer false (some (10 ^ digitLimit))).type.hasLongNumber = true := by
    by_contra h
    have hshort := (hasLongNumber_type _).1 (Bool.not_eq_true _ ▸ h) (10 ^ digitLimit) (by simp [numbers])
    exact lt_irrefl _ ((Nat.length_toDigits_le_iff (by decide) (by decide)).1 hshort)
  exact read_of_hasLongNumber (ofString_spelling _) (by decide) hlong

end Tree

end SolType

end ContractGraph
