/-
Where the two halves of a mapping type part.

Any number of arrows can stand in the text between the parentheses. On one line, the first that has something before it
and something after it parts the halves; behind a blank key, the arrow at the start does, if no other can.

Results:
- `aroundArrow?_of_first`, `aroundArrow?_eq_none_iff`: which arrow parts a line that has begun;
- `halves?_of_isHalves`: halves that are written with an arrow between them are found again;
- `isHalves_of_halves?`: halves that are found on one line are such halves.
-/
import ContractGraph.SolType.Reader
import ContractGraph.Proofs.Text.Trimmed

namespace ContractGraph.SolType

open ContractGraph.Text

theorem after?_eq_some_iff {l cs r : List Char} : after? l cs = some r ↔ cs = l ++ r := by
  induction l generalizing cs with
  | nil => simp [after?]
  | cons a l ih =>
    cases cs with
    | nil => simp [after?]
    | cons c cs =>
      by_cases h : a = c
      · simp [after?, h, ih]
      · simp [after?, h, Ne.symm h]

@[simp] theorem after?_append (l r : List Char) : after? l (l ++ r) = some r := after?_eq_some_iff.2 rfl

/-! ## Arrows -/

/-- an arrow stands somewhere in the text -/
def HasArrow (cs : List Char) : Prop := ['=', '>'] <:+: cs

theorem HasArrow.mono {x y : List Char} (h : HasArrow x) (hxy : x <:+: y) : HasArrow y := List.IsInfix.trans h hxy

theorem hasArrow_append (p q : List Char) : HasArrow (p ++ '=' :: '>' :: q) :=
  ⟨p, q, by simp⟩

theorem mem_of_hasArrow {cs : List Char} (h : HasArrow cs) : '>' ∈ cs := h.subset (by simp)

theorem not_hasArrow_nil : ¬ HasArrow [] := by
  simp [HasArrow]

theorem hasArrow_cons_iff {c : Char} {cs : List Char} :
    HasArrow (c :: cs) ↔ (c = '=' ∧ cs.head? = some '>') ∨ HasArrow cs := by
  rw [HasArrow, List.infix_cons_iff, List.cons_prefix_cons,
    List.singleton_prefix_iff_head?_eq_some, eq_comm, ← HasArrow]

/-- a text without an arrow's point completes no arrow -/
theorem HasArrow.of_append {p q : List Char} (h : HasArrow (p ++ q)) (hq : '>' ∉ q) : HasArrow p := by
  induction p with
  | nil =>
    obtain ⟨s, t, rfl⟩ := h
    exact absurd (by simp) hq
  | cons c p ih =>
    rcases hasArrow_cons_iff.1 h with ⟨hc, hp⟩ | h
    · cases p with
      | nil => exact absurd (List.mem_of_mem_head? hp) hq
      | cons d p => exact hasArrow_cons_iff.2 (Or.inl ⟨hc, hp⟩)
    · exact hasArrow_cons_iff.2 (Or.inr (ih h))

theorem dropLast_infix_dropLast {x y : List Char} (h : x <:+: y) : x.dropLast <:+: y.dropLast := by
  obtain ⟨s, t, rfl⟩ := h
  rcases List.eq_nil_or_concat' t with rfl | ⟨t, c, rfl⟩
  · rcases List.eq_nil_or_concat' x with rfl | ⟨x, c, rfl⟩
    · exact List.nil_infix
    · refine ⟨s, [], ?_⟩
      rw [List.append_nil, List.append_nil, ← List.append_assoc, List.dropLast_concat, List.dropLast_concat]
  · rw [← List.append_assoc, List.dropLast_concat]
    exact (List.dropLast_prefix x).isInfix.trans ⟨s, t, rfl⟩

/-- the first arrow with something after it -/
theorem exists_first_arrow {cs : List Char} (h : HasArrow cs.dropLast) :
    ∃ p q, cs = p ++ '=' :: '>' :: q ∧ ¬ HasArrow p ∧ q ≠ [] := by
  induction cs with
  | nil => exact absurd h not_hasArrow_nil
  | cons c r ih =>
    by_cases hc : c = '=' ∧ r.head? = some '>'
    · obtain ⟨rfl, hr⟩ := hc
      obtain ⟨q, rfl⟩ := List.head?_eq_some_iff.1 hr
      refine ⟨[], q, rfl, not_hasArrow_nil, ?_⟩
      rintro rfl
      revert h
      simp [hasArrow_cons_iff, not_hasArrow_nil]
    · have hr : HasArrow r.dropLast := by
        cases r with
        | nil => exact absurd h not_hasArrow_nil
        | cons d r =>
          rw [List.dropLast_cons_cons] at h
          rcases hasArrow_cons_iff.1 h with ⟨rfl, hd⟩ | h
          · refine absurd ⟨rfl, ?_⟩ hc
            obtain ⟨t, ht⟩ := List.dropLast_prefix (d :: r)
            rw [← ht, List.head?_append, hd]
            rfl
          · exact h
      obtain ⟨p, q, rfl, hp, hq⟩ := ih hr
      refine ⟨c :: p, q, rfl, fun hcp => ?_, hq⟩
      rcases hasArrow_cons_iff.1 hcp with ⟨rfl, hd⟩ | hcp
      · refine hc ⟨rfl, ?_⟩
        rw [List.head?_append, hd]
        rfl
      · exact hp hcp

/-! ## Around an arrow -/

theorem valueHalf?_eq_some_iff {cs v : List Char} :
    valueHalf? cs = some v ↔ v = trim cs ∧ '\n' ∉ v ∧ ¬ cs.all (· = '\n') = true := by
  unfold valueHalf?
  simp only
  split
  · next h =>
    simp only [reduceCtorEq, false_iff]
    rintro ⟨rfl, hline, hfeeds⟩
    exact h.elim hline hfeeds
  · next h =>
    rw [not_or] at h
    simp only [Option.some.injEq]
    constructor
    · rintro rfl
      exact ⟨rfl, h⟩
    · exact fun hv => hv.1.symm

theorem ne_nil_of_valueHalf? {cs v : List Char} (h : valueHalf? cs = some v) : cs ≠ [] := by
  rintro rfl
  cases h

/-- every half of one line will do as a value, if there is anything -/
theorem valueHalf?_of_line {cs : List Char} (hne : cs ≠ []) (hline : '\n' ∉ cs) : valueHalf? cs = some (trim cs) := by
  refine valueHalf?_eq_some_iff.2 ⟨rfl, fun h => hline (trim_subset cs h), fun h => ?_⟩
  obtain ⟨c, r, rfl⟩ := List.exists_cons_of_ne_nil hne
  have hc : c = '\n' := by simpa using List.all_eq_true.1 h c List.mem_cons_self
  exact hline (hc ▸ List.mem_cons_self)

/-- a character that begins no arrow is passed over -/
theorem aroundArrow?_cons {seen r : List Char} {c : Char} (h : ¬ (c = '=' ∧ r.head? = some '>')) :
    aroundArrow? seen (c :: r) = aroundArrow? (c :: seen) r := by
  rw [aroundArrow?]
  rintro r' rfl rfl
  exact h ⟨rfl, rfl⟩

/-- an arrow at the start has no key before it -/
theorem aroundArrow?_start (c : Char) (r : List Char) : aroundArrow? [] (c :: r) = aroundArrow? [c] r := by
  by_cases h : c = '=' ∧ r.head? = some '>'
  · obtain ⟨rfl, hr⟩ := h
    obtain ⟨q, rfl⟩ := List.head?_eq_some_iff.1 hr
    rw [aroundArrow?]
    rfl
  · exact aroundArrow?_cons h

/-- the halves that are found stand around an arrow, each on one line -/
theorem aroundArrow?_eq_some {seen cs k v : List Char} (h : aroundArrow? seen cs = some (k, v)) :
    ∃ p q, cs = p ++ '=' :: '>' :: q ∧ k = trimEnd (seen.reverse ++ p) ∧ k ≠ [] ∧ '\n' ∉ k ∧
      valueHalf? q = some v := by
  fun_induction aroundArrow? seen cs with
  | case1 => cases h
  | case2 seen r key value hv =>
    obtain ⟨rfl, rfl⟩ := Prod.mk.inj (Option.some.inj h)
    split at hv
    · cases hv
    · next hkey =>
      obtain ⟨hne, hline⟩ := not_or.1 hkey
      exact ⟨[], r, rfl, by rw [List.append_nil], hne, hline, hv⟩
  | case3 seen r key hv ih =>
    obtain ⟨p, q, hr, hk, hrest⟩ := ih h
    exact ⟨'=' :: p, q, by rw [hr, List.cons_append], by simpa using hk, hrest⟩
  | case4 seen c r hc ih =>
    obtain ⟨p, q, hr, hk, hrest⟩ := ih h
    exact ⟨c :: p, q, by rw [hr, List.cons_append], by simpa using hk, hrest⟩

section line

variable {seen p q cs : List Char}

/-- on a line that has begun, the first arrow with something after it parts the halves -/
theorem aroundArrow?_of_first (hs : ∃ c ∈ seen, isBlank c = false) (hseen : '\n' ∉ seen) (hp : ¬ HasArrow p)
    (hpline : '\n' ∉ p) (hq : q ≠ []) (hqline : '\n' ∉ q) :
    aroundArrow? seen (p ++ '=' :: '>' :: q) = some (trimEnd (seen.reverse ++ p), trim q) := by
  induction p generalizing seen with
  | nil =>
    obtain ⟨c, hc, hb⟩ := hs
    have hne : trimEnd seen.reverse ≠ [] := trimEnd_ne_nil (List.mem_reverse.2 hc) hb
    have hline : '\n' ∉ trimEnd seen.reverse := by
      intro h
      exact hseen (List.mem_reverse.1 ((trimEnd_isPrefixOf _).subset h))
    rw [List.nil_append, List.append_nil, aroundArrow?, if_neg (not_or.2 ⟨hne, hline⟩), valueHalf?_of_line hq hqline]
  | cons c p ih =>
    obtain ⟨hc, hp⟩ := not_or.1 (mt hasArrow_cons_iff.2 hp)
    obtain ⟨hcline, hpline⟩ := not_or.1 (mt List.mem_cons.2 hpline)
    have hpass : ¬ (c = '=' ∧ (p ++ '=' :: '>' :: q).head? = some '>') := by
      rintro ⟨hceq, hhead⟩
      cases p with
      | nil => simp at hhead
      | cons d p => exact hc ⟨hceq, hhead⟩
    obtain ⟨b, hb, hblank⟩ := hs
    rw [List.cons_append, aroundArrow?_cons hpass, ih ⟨b, List.mem_cons_of_mem c hb, hblank⟩ _ hp hpline]
    · simp
    · exact fun h => (List.mem_cons.1 h).elim hcline hseen

/-- on a line that has begun, halves are found unless nothing stands after any arrow -/
theorem aroundArrow?_eq_none_iff (hs : ∃ c ∈ seen, isBlank c = false) (hseen : '\n' ∉ seen) (hline : '\n' ∉ cs) :
    aroundArrow? seen cs = none ↔ ¬ HasArrow cs.dropLast := by
  constructor
  · intro h harrow
    obtain ⟨p, q, rfl, hp, hq⟩ := exists_first_arrow harrow
    have hpline : '\n' ∉ p := fun hc => hline (List.mem_append_left _ hc)
    have hqline : '\n' ∉ q := fun hc => hline (by simp [hc])
    rw [aroundArrow?_of_first hs hseen hp hpline hq hqline] at h
    cases h
  · intro harrow
    cases h : aroundArrow? seen cs with
    | none => rfl
    | some halves =>
      obtain ⟨p, q, rfl, -, -, -, hv⟩ := aroundArrow?_eq_some (k := halves.1) (v := halves.2) h
      refine absurd ?_ harrow
      have hdrop : (p ++ '=' :: '>' :: q).dropLast = p ++ '=' :: '>' :: q.dropLast := by
        rw [List.dropLast_append_of_ne_nil (by simp), List.dropLast_cons_cons,
          List.dropLast_cons_of_ne_nil (ne_nil_of_valueHalf? hv)]
      rw [hdrop]
      exact hasArrow_append p _

end line

/-! ## Halves -/

/-- two texts that the halves of a mapping type can be, written on one line with an arrow between them -/
structure IsHalves (k v : List Char) : Prop where
  key_trimmed : trim k = k
  value_trimmed : trim v = v
  key_line : '\n' ∉ k
  value_line : '\n' ∉ v
  /-- an arrow at the start of a key has no key before it -/
  key_arrow : ¬ HasArrow k.tail
  /-- after a blank key, any other arrow with something after it would part the halves -/
  value_arrow : k = [] → ¬ HasArrow v.dropLast

/-- two halves with an arrow between them -/
def arrowText (k v : List Char) : List Char := k ++ " => ".toList ++ v

/-- halves are found in a text that starts with no blank from its second character on -/
theorem halves?_cons {c : Char} (hb : isBlank c = false) (r : List Char) {halves : List Char × List Char}
    (h : aroundArrow? [c] r = some halves) : halves? (c :: r) = some halves := by
  have hdrop : (c :: r).dropWhile isBlank = c :: r := List.dropWhile_cons_of_neg (by simp [hb])
  simp only [halves?, hdrop, aroundArrow?_start, h]

theorem arrowText_cons (c : Char) (k v : List Char) :
    arrowText (c :: k) v = c :: ((k ++ [' ']) ++ '=' :: '>' :: ' ' :: v) := by
  simp [arrowText]

theorem trim_blank_cons (v : List Char) : trim (' ' :: v) = trim v := by
  rw [trim, List.dropWhile_cons_of_pos (by decide), ← trim]

/-- a key that is blank is taken when nothing else will do -/
theorem halves?_arrowText_nil {v : List Char} (hv : trim v = v) (hline : '\n' ∉ v) :
    halves? (arrowText [] v) = some ((aroundArrow? ['='] ('>' :: ' ' :: v)).getD ([], v)) := by
  have hdrop : (arrowText [] v).dropWhile isBlank = '=' :: '>' :: ' ' :: v := rfl
  have hblank : ¬ ((arrowText [] v).takeWhile isBlank).all (· = '\n') = true := by
    change ¬ [' '].all (· = '\n') = true
    decide
  have hafter : after? ['=', '>'] ('=' :: '>' :: ' ' :: v) = some (' ' :: v) := rfl
  have hvalue : valueHalf? (' ' :: v) = some v := by
    rw [valueHalf?_of_line (by simp) (by simp [hline]), trim_blank_cons, hv]
  simp only [halves?, hdrop, aroundArrow?_start]
  cases aroundArrow? ['='] ('>' :: ' ' :: v) with
  | some halves => rfl
  | none =>
    simp only [hafter]
    rw [if_neg hblank, hvalue]
    rfl

/-- behind a blank key and its arrow, only an arrow with something after it parts the halves -/
theorem not_hasArrow_behind {v : List Char} (h : ¬ HasArrow v.dropLast) : ¬ HasArrow ('>' :: ' ' :: v).dropLast := by
  intro ha
  rw [List.dropLast_cons_cons] at ha
  rcases hasArrow_cons_iff.1 ha with ⟨hc, -⟩ | ha
  · cases hc
  · cases v with
    | nil => exact not_hasArrow_nil ha
    | cons d v =>
      rw [List.dropLast_cons_cons] at ha
      rcases hasArrow_cons_iff.1 ha with ⟨hc, -⟩ | ha
      · cases hc
      · exact h ha

/-- halves that are written with an arrow between them are found again -/
theorem halves?_of_isHalves {k v : List Char} (h : IsHalves k v) : halves? (arrowText k v) = some (k, v) := by
  cases k with
  | nil =>
    have hnone : aroundArrow? ['='] ('>' :: ' ' :: v) = none :=
      (aroundArrow?_eq_none_iff ⟨'=', List.mem_singleton_self _, by decide⟩ (by decide) (by simp [h.value_line])).2
        (not_hasArrow_behind (h.value_arrow rfl))
    rw [halves?_arrowText_nil h.value_trimmed h.value_line, hnone, Option.getD_none]
  | cons c k =>
    obtain ⟨hcline, hkline⟩ := not_or.1 (mt List.mem_cons.2 h.key_line)
    have hb : isBlank c = false := isBlank_of_head?_trim c (by rw [h.key_trimmed]; rfl)
    have harrow : ¬ HasArrow (k ++ [' ']) := fun ha => h.key_arrow (ha.of_append (by decide))
    have hfound : aroundArrow? [c] ((k ++ [' ']) ++ '=' :: '>' :: ' ' :: v) =
        some (trimEnd ([c].reverse ++ (k ++ [' '])), trim (' ' :: v)) :=
      aroundArrow?_of_first ⟨c, List.mem_singleton_self c, hb⟩ (by simpa using hcline) harrow (by simpa using hkline)
        (by simp) (by simpa using h.value_line)
    have hkey : trimEnd ([c].reverse ++ (k ++ [' '])) = c :: k := by
      have hlast : trimEnd (c :: k) = c :: k := by
        rw [← trim_eq_trimEnd (by rintro d ⟨⟩; exact hb), h.key_trimmed]
      rw [← List.append_assoc, trimEnd_append (List.all_eq_true.1 rfl)]
      exact hlast
    rw [hkey, trim_blank_cons, h.value_trimmed] at hfound
    rw [arrowText_cons, halves?_cons hb _ hfound]

/-- some halves are found in every line that holds an arrow between trimmed texts -/
theorem exists_halves? {k v : List Char} (hk : trim k = k) (hv : trim v = v) (hkline : '\n' ∉ k)
    (hvline : '\n' ∉ v) : ∃ halves, halves? (arrowText k v) = some halves := by
  cases k with
  | nil => exact ⟨_, halves?_arrowText_nil hv hvline⟩
  | cons c k =>
    obtain ⟨hcline, hkline⟩ := not_or.1 (mt List.mem_cons.2 hkline)
    have hb : isBlank c = false := isBlank_of_head?_trim c (by rw [hk]; rfl)
    have harrow : HasArrow ((k ++ [' ']) ++ '=' :: '>' :: ' ' :: v).dropLast := by
      rw [List.dropLast_append_of_ne_nil (by simp), List.dropLast_cons_cons, List.dropLast_cons_cons]
      exact hasArrow_append _ _
    cases hfound : aroundArrow? [c] ((k ++ [' ']) ++ '=' :: '>' :: ' ' :: v) with
    | some halves => exact ⟨halves, by rw [arrowText_cons, halves?_cons hb _ hfound]⟩
    | none =>
      refine absurd harrow ((aroundArrow?_eq_none_iff ⟨c, List.mem_singleton_self c, hb⟩ ?_ ?_).1 hfound)
      · simpa using hcline
      · simp [hkline, hvline]

/-- halves are found around an arrow after the start of the text, or behind a blank key and its arrow -/
theorem halves?_cases {body k v : List Char} (h : halves? body = some (k, v)) :
    (∃ c r, body.dropWhile isBlank = c :: r ∧ isBlank c = false ∧ aroundArrow? [c] r = some (k, v)) ∨
      ∃ r, body.dropWhile isBlank = '=' :: '>' :: r ∧ aroundArrow? ['='] ('>' :: r) = none ∧ k = [] ∧
        valueHalf? r = some v := by
  unfold halves? at h
  simp only at h
  split at h
  · next halves ha =>
    obtain rfl := Option.some.inj h
    left
    cases htext : body.dropWhile isBlank with
    | nil =>
      rw [htext] at ha
      cases ha
    | cons c r =>
      have hb := List.head?_dropWhile_not isBlank body
      rw [htext] at ha hb
      exact ⟨c, r, rfl, hb, by rw [← aroundArrow?_start, ha]⟩
  · next ha =>
    right
    split at h
    · next r hr =>
      have htext : body.dropWhile isBlank = '=' :: '>' :: r := after?_eq_some_iff.1 hr
      split at h
      · cases h
      · obtain ⟨v', hv, hkv⟩ := Option.map_eq_some_iff.1 h
        obtain ⟨rfl, rfl⟩ := Prod.mk.inj hkv
        rw [htext, aroundArrow?_start] at ha
        exact ⟨r, htext, ha, rfl, hv⟩
    · cases h

/-- the halves that are found are trimmed and on one line each, and an arrow stands between them -/
theorem halves?_eq_some {body k v : List Char} (h : halves? body = some (k, v)) :
    trim k = k ∧ trim v = v ∧ '\n' ∉ k ∧ '\n' ∉ v ∧ HasArrow body := by
  have hbody : body.dropWhile isBlank <:+: body := (List.dropWhile_suffix isBlank).isInfix
  rcases halves?_cases h with ⟨c, r, htext, hb, ha⟩ | ⟨r, htext, -, rfl, hv⟩
  · obtain ⟨p, q, rfl, rfl, -, hkline, hv⟩ := aroundArrow?_eq_some ha
    obtain ⟨rfl, hvline, -⟩ := valueHalf?_eq_some_iff.1 hv
    obtain ⟨k, hk, -⟩ := trimEnd_cons hb p
    have hkey : trim (trimEnd ([c].reverse ++ p)) = trimEnd ([c].reverse ++ p) := by
      change trim (trimEnd (c :: p)) = trimEnd (c :: p)
      rw [trim_eq_trimEnd (by rw [hk]; rintro d ⟨⟩; exact hb), trimEnd_trimEnd]
    refine ⟨hkey, trim_trim q, hkline, hvline, HasArrow.mono ?_ hbody⟩
    rw [htext]
    exact hasArrow_append (c :: p) q
  · obtain ⟨rfl, hvline, -⟩ := valueHalf?_eq_some_iff.1 hv
    refine ⟨rfl, trim_trim r, List.not_mem_nil, hvline, HasArrow.mono ?_ hbody⟩
    rw [htext]
    exact hasArrow_append [] r

/-- halves that are found on one line are found again when they are written anew -/
theorem isHalves_of_halves? {body k v : List Char} (h : halves? body = some (k, v)) (hline : '\n' ∉ body) :
    IsHalves k v := by
  obtain ⟨hk, hv, hkline, hvline, -⟩ := halves?_eq_some h
  have hbody : ∀ {cs : List Char}, body.dropWhile isBlank = cs → '\n' ∉ cs := by
    rintro cs rfl hc
    exact hline ((List.dropWhile_suffix isBlank).subset hc)
  rcases halves?_cases h with ⟨c, r, htext, hb, ha⟩ | ⟨r, htext, hnone, rfl, hvalue⟩
  · obtain ⟨hcline, hrline⟩ := not_or.1 (mt List.mem_cons.2 (hbody htext))
    have hseen : '\n' ∉ [c] := by simpa using hcline
    have hs : ∃ d ∈ [c], isBlank d = false := ⟨c, List.mem_singleton_self c, hb⟩
    have harrow : HasArrow r.dropLast := by
      by_contra hno
      rw [(aroundArrow?_eq_none_iff hs hseen hrline).2 hno] at ha
      cases ha
    obtain ⟨p, q, rfl, hp, hq⟩ := exists_first_arrow harrow
    have hpline : '\n' ∉ p := fun hc => hrline (List.mem_append_left _ hc)
    have hqline : '\n' ∉ q := fun hc => hrline (by simp [hc])
    rw [aroundArrow?_of_first hs hseen hp hpline hq hqline] at ha
    obtain ⟨rfl, rfl⟩ := Prod.mk.inj (Option.some.inj ha)
    obtain ⟨k, hkc, hkp⟩ := trimEnd_cons hb p
    have hkey : trimEnd ([c].reverse ++ p) = c :: k := hkc
    refine ⟨hk, hv, hkline, hvline, fun htail => ?_, fun hnil => ?_⟩
    · rw [hkey] at htail
      exact hp (htail.mono hkp.isInfix)
    · rw [hkey] at hnil
      cases hnil
  · have hrline : '\n' ∉ '>' :: r := fun hc => hbody htext (List.mem_cons_of_mem _ hc)
    have hrest := (aroundArrow?_eq_none_iff ⟨'=', List.mem_singleton_self _, by decide⟩ (by decide) hrline).1 hnone
    obtain ⟨rfl, -, -⟩ := valueHalf?_eq_some_iff.1 hvalue
    refine ⟨hk, hv, hkline, hvline, not_hasArrow_nil, fun _ htail => ?_⟩
    have hr : trim r <:+: '>' :: r := (trim_isInfix r).trans (List.suffix_cons '>' r).isInfix
    exact hrest (htail.mono (dropLast_infix_dropLast hr))

end ContractGraph.SolType
