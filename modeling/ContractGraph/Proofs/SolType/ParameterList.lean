/-
Parameter lists are read from their words, and are written with the words that they are read from.

Each part of an entry takes its words from the start of those that are left: the type one or two, the location and
`indexed` one each if they stand there, and the name what is left. So the parts of what is read, written in this order,
are the words again, whichever of them are left out and also when a name is one of the words that have a meaning before
it. What is read depends on the words of the entries only.

Results:
- `ofWords_eq_ok`: what the words of an entry are read from;
- `words_text`: an entry is written with the words that it is read from;
- `entries_listText`: so is a list, entry by entry;
- `ofString_listText`: a list that is written anew is read as the same list.
Witness:
- `keywords_reread`: names that are `payable`, `memory` and `indexed`.
-/
import ContractGraph.SolType.Parameter
import ContractGraph.Proofs.SolType.Forms
import ContractGraph.Proofs.Text.Words

namespace ContractGraph

open ContractGraph.Text

namespace Parameter

/-! ## Writing parameters -/

/-- what stands after the type of a parameter: its location, the word `indexed` and its name, as far as it has them -/
def modifiers (p : Parameter) : List String :=
  p.location.toList.map DataLocation.text ++ (if p.indexed then ["indexed"] else []) ++
    if p.name = "" then [] else [p.name]

/-- a parameter as it is written, with the name of its type -/
def text (p : Parameter) : String := join " " (p.type.name :: p.modifiers)

/-- a parameter list as it is written -/
def listText (ps : List Parameter) : String := join ", " (ps.map text)

/-! ## The words of an entry -/

theorem text_of_ofText? {w : String} {l : DataLocation} (h : DataLocation.ofText? w = some l) : l.text = w := by
  unfold DataLocation.ofText? at h
  simpa using List.find?_some h

/-- the location takes its word from the start -/
theorem locationWords_eq (ws : List String) :
    (locationWords ws).1.toList.map DataLocation.text ++ (locationWords ws).2 = ws := by
  cases ws with
  | nil => rfl
  | cons w ws =>
    rw [locationWords]
    split
    · next l h => rw [← text_of_ofText? h]; rfl
    · rfl

/-- `indexed` is taken from the start -/
theorem indexedWords_eq (ws : List String) :
    (if (indexedWords ws).1 then ["indexed"] else []) ++ (indexedWords ws).2 = ws := by
  unfold indexedWords
  split <;> rfl

/-- the type is one word, or the two of a payable address -/
theorem typeWords_cases (first : String) (rest : List String) :
    typeWords first rest = (first, rest) ∨
      ∃ rest', first = "address" ∧ rest = "payable" :: rest' ∧ typeWords first rest = ("address payable", rest') := by
  unfold typeWords
  split
  · split
    · next rest' h => exact Or.inr ⟨rest', h, rfl, rfl⟩
    · exact Or.inl rfl
  · exact Or.inl rfl

/-- what is left when the type is taken was there -/
theorem typeWords_subset (first : String) (rest : List String) : (typeWords first rest).2 ⊆ rest := by
  rcases typeWords_cases first rest with htype | ⟨rest', rfl, rfl, htype⟩
  · rw [htype]
    exact List.Subset.refl rest
  · rw [htype]
    exact List.subset_cons_self "payable" rest'

/-- the spelling of the type has the words that it is taken from, and no blanks around them -/
theorem words_typeWords {first : String} (h : IsWord first.toList) (rest : List String) :
    words (typeWords first rest).1.toList ++ (typeWords first rest).2.map String.toList =
        first.toList :: rest.map String.toList ∧
      trim (typeWords first rest).1.toList = (typeWords first rest).1.toList := by
  rcases typeWords_cases first rest with htype | ⟨rest', rfl, rfl, htype⟩
  · rw [htype, words_of_isWord h, List.singleton_append]
    exact ⟨rfl, h.trim⟩
  · have hwords : words "address payable".toList = ["address".toList, "payable".toList] := by decide
    have htrim : trim "address payable".toList = "address payable".toList := by decide
    rw [htype, hwords]
    exact ⟨rfl, htrim⟩

/-- what is left when the location and `indexed` are taken is the name, if anything -/
theorem modifiers_eq {ws : List String} {name : String}
    (h : (indexedWords (locationWords ws).2).2 = if name = "" then [] else [name]) (t : SolType) :
    modifiers ⟨t, name, (locationWords ws).1, (indexedWords (locationWords ws).2).1⟩ = ws := by
  rw [modifiers, ← h, List.append_assoc, indexedWords_eq, locationWords_eq]

theorem eq_ok_of_read {n : Nat} {spelling name : String} {l : Option DataLocation} {i : Bool} {p : Parameter}
    (h : ((SolType.read spelling).mapError (ParameterFault.type n)).map (fun t => Parameter.mk t name l i) = .ok p) :
    ∃ t, SolType.read spelling = .ok t ∧ ⟨t, name, l, i⟩ = p := by
  cases ht : SolType.read spelling with
  | error f => rw [ht] at h; cases h
  | ok t =>
    rw [ht] at h
    exact ⟨t, rfl, Except.ok.inj h⟩

/-- the words that an entry is read from: its type, and what stands after it -/
theorem ofWords_eq_ok {n : Nat} {ws : List String} {p : Parameter} (h : ofWords n ws = .ok p) :
    ∃ first rest, ws = first :: rest ∧ isIdentifier (first.toList.takeWhile (· ≠ '[')) = true ∧
      SolType.read (typeWords first rest).1 = .ok p.type ∧ (typeWords first rest).2 = p.modifiers ∧
      (p.name = "" ∨ isIdentifier p.name.toList = true) := by
  cases ws with
  | nil => cases h
  | cons first rest =>
    rw [ofWords] at h
    split at h
    · cases h
    · next hfirst =>
      refine ⟨first, rest, rfl, by simpa using hfirst, ?_⟩
      simp only at h
      split at h
      · next hrest =>
        obtain ⟨t, ht, rfl⟩ := eq_ok_of_read h
        exact ⟨ht, (modifiers_eq hrest t).symm, Or.inl rfl⟩
      · next name surplus hrest =>
        split at h
        · cases h
        · next hname =>
          split at h
          · next hsurplus =>
            obtain ⟨t, ht, rfl⟩ := eq_ok_of_read h
            subst hsurplus
            have hne : name ≠ "" := by
              rintro rfl
              exact hname rfl
            exact ⟨ht, (modifiers_eq (by rw [hrest, if_neg hne]) t).symm, Or.inr (by simpa using hname)⟩
          · cases h

/-- a type is named by the spelling that it is read from -/
theorem name_of_read {s : String} {t : SolType} (h : SolType.read s = .ok t) (hs : trim s.toList = s.toList) :
    t.name = s := by
  obtain ⟨rfl, -⟩ := SolType.read_eq_ok_iff.1 h
  rw [SolType.ofString, SolType.name_ofChars, hs, String.ofList_toList]

/-- **An entry is written with the words that it is read from.** -/
theorem words_text {n : Nat} {ws : List String} {p : Parameter} (h : ofWords n ws = .ok p)
    (hws : ∀ w ∈ ws, IsWord w.toList) : words p.text.toList = ws.map String.toList := by
  obtain ⟨first, rest, rfl, -, hread, hrest, -⟩ := ofWords_eq_ok h
  obtain ⟨hwords, htrim⟩ := words_typeWords (hws first List.mem_cons_self) rest
  have hmodifiers : ∀ w ∈ p.modifiers, IsWord w.toList := by
    intro w hw
    rw [← hrest] at hw
    exact hws w (List.mem_cons_of_mem first (typeWords_subset first rest hw))
  have hsingle : p.modifiers.flatMap (fun w => words w.toList) = p.modifiers.map String.toList := by
    rw [List.map_eq_flatMap]
    exact List.flatMap_congr fun w hw => words_of_isWord (hmodifiers w hw)
  rw [text, words_join, List.flatMap_cons, hsingle, name_of_read hread htrim, ← hrest]
  exact hwords

/-! ## The entries of a list -/

/-- the words of a piece, as strings -/
theorem isWord_of_mem_piece {cs : List Char} : ∀ w ∈ (words cs).map String.ofList, IsWord w.toList := by
  intro w hw
  obtain ⟨v, hv, rfl⟩ := List.mem_map.1 hw
  rw [String.toList_ofList]
  exact isWord_of_mem_words hv

theorem ofPieces_cons_eq_ok {n : Nat} {cs : List Char} {pieces : List (List Char)} {ps : List Parameter}
    (h : ofPieces n (cs :: pieces) = .ok ps) :
    ∃ p ps', ofWords n ((words cs).map .ofList) = .ok p ∧ ofPieces (n + 1) pieces = .ok ps' ∧ ps = p :: ps' := by
  rw [ofPieces] at h
  cases hp : ofWords n ((words cs).map .ofList) with
  | error f => rw [hp] at h; cases h
  | ok p =>
    cases hps : ofPieces (n + 1) pieces with
    | error f => rw [hp, hps] at h; cases h
    | ok ps' =>
      rw [hp, hps] at h
      exact ⟨p, ps', rfl, rfl, (Except.ok.inj h).symm⟩

/-- what is read depends on the words of the entries only -/
theorem ofPieces_congr {n : Nat} {as bs : List (List Char)} (h : as.map words = bs.map words) :
    ofPieces n as = ofPieces n bs := by
  induction as generalizing n bs with
  | nil =>
    obtain rfl := List.map_eq_nil_iff.1 h.symm
    rfl
  | cons a as ih =>
    obtain ⟨b, bs, rfl, hb, hbs⟩ := List.map_eq_cons_iff.1 h.symm
    rw [ofPieces, ofPieces, hb, ih hbs.symm]

/-- entries are written with the words that they are read from -/
theorem words_of_ofPieces {n : Nat} {pieces : List (List Char)} {ps : List Parameter}
    (h : ofPieces n pieces = .ok ps) : ps.map (fun p => words p.text.toList) = pieces.map words := by
  induction pieces generalizing n ps with
  | nil =>
    obtain rfl := Except.ok.inj h
    rfl
  | cons cs pieces ih =>
    obtain ⟨p, ps, hp, hps, rfl⟩ := ofPieces_cons_eq_ok h
    have hwords := words_text hp isWord_of_mem_piece
    rw [List.map_cons, List.map_cons, ih hps, hwords, List.map_map]
    simp [Function.comp_def]

/-- each parameter of a list is read from words -/
theorem exists_words_of_mem {n : Nat} {pieces : List (List Char)} {ps : List Parameter}
    (h : ofPieces n pieces = .ok ps) :
    ∀ p ∈ ps, ∃ i ws, ofWords i ws = .ok p ∧ ∀ w ∈ ws, IsWord w.toList := by
  induction pieces generalizing n ps with
  | nil =>
    obtain rfl := Except.ok.inj h
    exact fun p hp => absurd hp List.not_mem_nil
  | cons cs pieces ih =>
    obtain ⟨p, ps, hp, hps, rfl⟩ := ofPieces_cons_eq_ok h
    exact List.forall_mem_cons.2 ⟨⟨n, _, hp, isWord_of_mem_piece⟩, ih hps⟩

/-- no entry is without words -/
theorem words_ne_nil_of_ofPieces {n : Nat} {pieces : List (List Char)} {ps : List Parameter}
    (h : ofPieces n pieces = .ok ps) : ∀ cs ∈ pieces, words cs ≠ [] := by
  induction pieces generalizing n ps with
  | nil => exact fun cs hcs => absurd hcs List.not_mem_nil
  | cons cs pieces ih =>
    obtain ⟨p, ps, hp, hps, rfl⟩ := ofPieces_cons_eq_ok h
    refine List.forall_mem_cons.2 ⟨fun hnil => ?_, ih hps⟩
    rw [hnil] at hp
    cases hp

theorem ofString_of_blank {s : String} (h : trim s.toList = []) : ofString s = .ok [] := by
  rw [ofString, if_pos h]

theorem ofString_of_not_blank {s : String} (h : trim s.toList ≠ []) :
    ofString s = ofPieces 1 (pieces ',' s.toList) := by
  rw [ofString, if_neg h]

/-- no entry is written with a comma -/
theorem notMem_text {s : String} {ps : List Parameter} (h : ofPieces 1 (pieces ',' s.toList) = .ok ps) :
    ∀ p ∈ ps, ',' ∉ p.text.toList := by
  intro p hp hcomma
  have hkept : ',' ∈ (words p.text.toList).flatten := by
    rw [flatten_words]
    exact List.mem_filter.2 ⟨hcomma, by decide⟩
  have hentry : words p.text.toList ∈ (pieces ',' s.toList).map words := by
    rw [← words_of_ofPieces h]
    exact List.mem_map_of_mem hp
  obtain ⟨cs, hcs, hwords⟩ := List.mem_map.1 hentry
  rw [← hwords, flatten_words] at hkept
  exact (of_mem_pieces hcs).1 (List.mem_of_mem_filter hkept)

/-- a list is written with the words that it is read from, entry by entry -/
theorem entries_listText {s : String} {ps : List Parameter} (h : ofPieces 1 (pieces ',' s.toList) = .ok ps) :
    (pieces ',' (listText ps).toList).map words = (pieces ',' s.toList).map words := by
  have hwords := words_of_ofPieces h
  have hne : ps.map text ≠ [] := by
    intro hnil
    rw [List.map_eq_nil_iff.1 hnil] at hwords
    exact pieces_ne_nil ',' s.toList (List.map_eq_nil_iff.1 hwords.symm)
  have hcommas : ∀ t ∈ ps.map text, ',' ∉ t.toList := by
    intro t ht
    obtain ⟨p, hp, rfl⟩ := List.mem_map.1 ht
    exact notMem_text h p hp
  rw [listText, words_pieces_join hne hcommas, List.map_map, ← hwords]
  rfl

/-! ## Main result -/

/-- **Parameter lists survive being written anew.** Writing each parameter of an accepted list as the name of its type,
then its location, `indexed` and its name, as far as it has them, gives a text that is accepted with the same list. -/
theorem ofString_listText {s : String} {ps : List Parameter} (h : ofString s = .ok ps) :
    ofString (listText ps) = .ok ps := by
  by_cases hblank : trim s.toList = []
  · rw [ofString_of_blank hblank] at h
    obtain rfl := Except.ok.inj h
    exact ofString_of_blank rfl
  · rw [ofString_of_not_blank hblank] at h
    have hentries := entries_listText h
    have hwritten : trim (listText ps).toList ≠ [] := by
      intro hnil
      obtain ⟨cs, more, hcs⟩ := List.exists_cons_of_ne_nil (pieces_ne_nil ',' s.toList)
      have hcsmem : cs ∈ pieces ',' s.toList := hcs ▸ List.mem_cons_self
      obtain ⟨q, hq, hqwords⟩ := List.mem_map.1 (hentries ▸ List.mem_map_of_mem hcsmem)
      have hq : words q = [] := words_eq_nil_iff.2 fun c hc => trim_eq_nil_iff.1 hnil c ((of_mem_pieces hq).2 hc)
      exact words_ne_nil_of_ofPieces h cs hcsmem (hqwords ▸ hq)
    rw [ofString_of_not_blank hwritten, ofPieces_congr hentries, h]

/-- a list with blanks of several kinds, and with names that are words which have a meaning before them -/
def keywordList : String := " address  payable payable,uint8[2]\tmemory memory , address indexed indexed\n,T"

theorem keywords_reread :
    ∃ ps, ofString keywordList = .ok ps ∧ ps.map name = ["payable", "memory", "indexed", ""] ∧
      ofString "address payable payable, uint8[2] memory memory, address indexed indexed, T" = .ok ps := by
  have hread : (ofString keywordList).toOption.map (fun ps => (listText ps, ps.map name)) =
      some ("address payable payable, uint8[2] memory memory, address indexed indexed, T",
        ["payable", "memory", "indexed", ""]) := by decide +kernel
  cases h : ofString keywordList with
  | error f =>
    rw [h] at hread
    cases hread
  | ok ps =>
    rw [h] at hread
    obtain ⟨htext, hnames⟩ := Prod.mk.inj (Option.some.inj hread)
    exact ⟨ps, rfl, hnames, htext ▸ ofString_listText h⟩

end Parameter

end ContractGraph
