/-
The lexemes of a YAML text that have an inner form: scalars in their five styles, names of anchors, tags and directives.

Each function gets the places that are left, and gives what it read with the places after it.
-/
import ContractGraph.Schema.Checked
import ContractGraph.Yaml.Place
import ContractGraph.Yaml.Token

namespace ContractGraph.Yaml

/-! ## Line folding -/

/-- a line's end inside a scalar becomes a space, unless empty lines follow, which are kept -/
def folded (c : Char) (more : List Char) : List Char :=
  if lineEnd c ≠ '\n' then lineEnd c :: more
  else if more = [] then [' '] else more

/-! ## Plain scalars -/

/-- does a plain scalar end before this character? -/
def endsPlain (inFlow : Bool) (c next : Char) : Bool :=
  isWide c || (c == ':' && (isWide next || (inFlow && next ∈ [',', '[', ']', '\x7b', '\x7d']))) ||
    (inFlow && c ∈ [',', '?', '[', ']', '\x7b', '\x7d'])

/-- the characters of a plain scalar up to a blank or its end -/
def plainRun (inFlow : Bool) : List Place → List Char × List Place
  | [] => ([], [])
  | p :: ps =>
    if endsPlain inFlow p.char (peek ps) then ([], p :: ps)
    else let (cs, r) := plainRun inFlow ps; (p.char :: cs, r)

/-- the empty lines after a line's end, spaces passed over; `none` when a document ends -/
def emptyLines : List Place → Option (List Char) × List Place
  | [] => (some [], [])
  | p :: ps =>
    if p.char = ' ' then emptyLines ps
    else if isBreak p.char then
      if separates ps then (none, ps)
      else let (cs, r) := emptyLines ps; (cs.map (lineEnd p.char :: ·), r)
    else (some [], p :: ps)

/-- the white space inside a plain scalar as it is kept (nothing when the scalar ends), and whether a line ended -/
def plainGap (ps : List Place) : List Char × Bool × List Place :=
  let (spaces, r) := run (· == ' ') ps
  match r with
  | p :: q =>
    if isBreak p.char then
      if separates q then ([], true, q)
      else match emptyLines q with
        | (some more, r') => (folded p.char more, true, r')
        | (none, r') => ([], true, r')
    else (spaces, false, r)
  | [] => (spaces, false, r)

/-- what has been read of a plain scalar; `fresh` tells that a line ended after it -/
structure PlainScalar where
  text : List Char
  fresh : Bool
  rest : List Place

/-- a plain scalar whose lines are indented at least `indent`; `gap` is the white space before the next part -/
def plainScalar (inFlow : Bool) (indent : Int) : Nat → List Char → Bool → List Place → PlainScalar
  | 0, _, fresh, ps => ⟨[], fresh, ps⟩
  | fuel + 1, gap, fresh, ps =>
    match plainRun inFlow ps with
    | ([], r) => ⟨[], fresh, r⟩
    | (cs, r) =>
      let (gap', fresh', r') := plainGap r
      if gap' = [] ∨ peek r' = '#' ∨ (!inFlow ∧ (column r' : Int) < indent) then ⟨gap ++ cs, fresh', r'⟩
      else
        let more := plainScalar inFlow indent fuel gap' fresh' r'
        ⟨gap ++ cs ++ more.text, more.fresh, more.rest⟩

/-! ## Quoted scalars -/

/-- the empty lines after a line's end inside quotes; no document may end there -/
def quotedLines (atStart : Bool) : List Place → Read (List Char × List Place)
  | [] => .ok ([], [])
  | p :: ps =>
    if atStart && separates (p :: ps) then malformed
    else if p.char = ' ' ∨ p.char = '\t' then quotedLines false ps
    else if isBreak p.char then (quotedLines true ps).map fun (cs, r) => (lineEnd p.char :: cs, r)
    else .ok ([], p :: ps)

/-- the characters that a letter after a backslash stands for -/
def escapes : List (Char × Char) :=
  [('0', '\x00'), ('a', '\x07'), ('b', '\x08'), ('t', '\t'), ('\t', '\t'), ('n', '\n'), ('v', '\x0b'), ('f', '\x0c'),
    ('r', '\r'), ('e', '\x1b'), (' ', ' '), ('"', '"'), ('\\', '\\'), ('/', '/'), ('N', '\x85'), ('_', '\xa0'),
    ('L', '\u2028'), ('P', '\u2029')]

/-- how many hexadecimal digits follow a letter after a backslash -/
def codeWidths : List (Char × Nat) := [('x', 2), ('u', 4), ('U', 8)]

/-- the number that hexadecimal digits write -/
def hexOf (cs : List Char) : Nat := cs.foldl (fun n c => 16 * n + (Json.hexValue? c).getD 0) 0

/-- a character by its code point, which is no more than thirty-one bits long -/
def charOf (n : Nat) : Read Char :=
  if n ≥ 0x80000000 then .error .overflow
  else if n ≥ 0x110000 then .error .outOfRange
  else .ok (Text.charOf n)

/-- what follows a backslash -/
def escape : List Place → Read (List Char × List Place)
  | [] => malformed
  | p :: ps =>
    match escapes.lookup p.char, codeWidths.lookup p.char with
    | some c, _ => .ok ([c], ps)
    | none, some width =>
      let ds := chars (ps.take width)
      if ds.all isHex then (charOf (hexOf ds)).map fun c => ([c], ps.drop width) else malformed
    | none, none => if isBreak p.char then quotedLines true ps else malformed

/-- a quoted scalar after its first quote -/
def quotedScalar (double : Bool) : Nat → List Place → Read (List Char × List Place)
  | 0, _ => malformed
  | fuel + 1, ps =>
    let goOn (cs : List Char) (r : List Place) := (quotedScalar double fuel r).map fun (ds, r') => (cs ++ ds, r')
    match ps with
    | [] => malformed
    | p :: r =>
      let c := p.char
      if c = endMark then malformed
      else if c = (if double then '"' else '\'') then
        if !double ∧ peek r = '\'' then goOn ['\''] r.tail else .ok ([], r)
      else if double ∧ c = '\\' then do
        let (cs, r') ← escape r
        goOn cs r'
      else if c = ' ' ∨ c = '\t' ∨ isBreak c then
        let (spaces, r') := run (fun d => d == ' ' || d == '\t') ps
        if peek r' = endMark then malformed
        else if isBreak (peek r') then do
          let (more, r'') ← quotedLines true r'.tail
          goOn (folded (peek r') more) r''
        else goOn spaces r'
      else goOn [c] r

/-! ## Block scalars -/

/-- what is kept of the line ends at the end of a block scalar: none, one, or all -/
inductive Chomp where
  | strip
  | clip
  | keep
deriving DecidableEq, Repr

/-- a number from one to nine at the head of a block scalar -/
def indicatorDigit : List Place → Read (Option Nat × List Place)
  | p :: ps => if !p.char.isDigit then .ok (none, p :: ps) else if p.char = '0' then malformed
      else .ok (some (p.char.toNat - '0'.toNat), ps)
  | [] => .ok (none, [])

/-- a sign at the head of a block scalar -/
def indicatorSign : List Place → Option Chomp × List Place
  | p :: ps => if p.char = '+' then (some .keep, ps) else if p.char = '-' then (some .strip, ps) else (none, p :: ps)
  | [] => (none, [])

/-- the head of a block scalar after its first character: a sign and a number in any order, both of which may be missing -/
def indicators (ps : List Place) : Read (Chomp × Option Nat × List Place) := do
  let (sign, r) := indicatorSign ps
  let (digit, r) ← indicatorDigit r
  let (sign, r) := if sign.isNone ∧ digit.isSome then indicatorSign r else (sign, r)
  if isGap (peek r) then
    let r ← need (restOfLine? r)
    return (sign.getD .clip, digit, r)
  else malformed

/-- the empty lines before a block scalar, and the greatest column that they or the first line's spaces reach -/
def blockLead : List Place → List Char × Nat × List Place
  | [] => ([], 0, [])
  | p :: ps =>
    if p.char = ' ' then let (cs, n, r) := blockLead ps; (cs, max (p.column + 1) n, r)
    else if isBreak p.char then let (cs, n, r) := blockLead ps; (lineEnd p.char :: cs, n, r)
    else ([], 0, p :: ps)

/-- the empty lines inside a block scalar, with the spaces up to its indentation -/
def blockGap (indent : Nat) : List Place → List Char × List Place
  | [] => ([], [])
  | p :: ps =>
    if p.char = ' ' ∧ p.column < indent then blockGap indent ps
    else if isBreak p.char then let (cs, r) := blockGap indent ps; (lineEnd p.char :: cs, r)
    else ([], p :: ps)

/-- the lines of a block scalar: their text, the last line's end, the empty lines after it, and the rest -/
def blockLines (fold : Bool) (indent : Nat) :
    Nat → List Char → List Place → List Char × List Char × List Char × List Place
  | 0, gap, ps => ([], [], gap, ps)
  | fuel + 1, gap, ps =>
    if column ps = indent ∧ peek ps ≠ endMark then
      let (cs, r) := run (fun c => !endsLine c) ps
      let (ending, r) := if isBreak (peek r) then ([lineEnd (peek r)], r.tail) else ([], r)
      let (gap', r') := blockGap indent r
      if column r' = indent ∧ peek r' ≠ endMark then
        let spaced (p : List Place) := peek p = ' ' ∨ peek p = '\t'
        let between :=
          if fold ∧ ending = ['\n'] ∧ ¬ spaced ps ∧ ¬ spaced r' then if gap' = [] then [' '] else [] else ending
        let (more, tail) := blockLines fold indent fuel gap' r'
        (gap ++ cs ++ between ++ more, tail)
      else (gap ++ cs, ending, gap', r')
    else ([], [], gap, ps)

/-- a block scalar after its first character, inside a block of the given indentation -/
def blockScalar (fold : Bool) (outer : Int) (fuel : Nat) (ps : List Place) : Read (List Char × List Place) := do
  let (chomp, digit, r) ← indicators ps
  let least := (outer + 1).toNat.max 1
  let (indent, gap, r) := match digit with
    | some d => let (gap, r) := blockGap (least + d - 1) r; (least + d - 1, gap, r)
    | none => let (gap, n, r) := blockLead r; (least.max n, gap, r)
  let (text, ending, gap, r) := blockLines fold indent fuel gap r
  return (text ++ (match chomp with
    | .strip => []
    | .clip => ending
    | .keep => ending ++ gap), r)

/-! ## Names, tags and directives -/

/-- the name of an anchor -/
def anchorName (ps : List Place) : Read (String × List Place) :=
  let (cs, r) := run isName ps
  if cs ≠ [] ∧ (isWide (peek r) ∨ peek r ∈ ['?', ':', ',', ']', '\x7d', '%', '@', '`']) then .ok (.ofList cs, r)
  else malformed

def isUri (c : Char) : Bool :=
  c.isAlphanum || c ∈ ['-', ';', '/', '?', ':', '@', '&', '=', '+', '$', ',', '_', '.', '!', '~', '*', '\'', '(', ')',
    '[', ']']

/-- the bytes that percent signs with two hexadecimal digits write -/
def uriBytes : List Place → Read (List UInt8 × List Place)
  | [] => .ok ([], [])
  | p :: ps =>
    if p.char ≠ '%' then .ok ([], p :: ps)
    else match ps with
      | a :: b :: r =>
        if isHex a.char && isHex b.char then
          (uriBytes r).map fun (bs, r') => (.ofNat (hexOf [a.char, b.char]) :: bs, r')
        else malformed
      | _ => malformed

/-- the text of a tag -/
def uriText : Nat → List Place → Read (List Char × List Place)
  | 0, ps => .ok ([], ps)
  | fuel + 1, ps =>
    let (cs, r) := run isUri ps
    if peek r ≠ '%' then .ok (cs, r)
    else do
      let (bs, r) ← uriBytes r
      let s ← need (Schema.utf8? bs)
      let (more, r) ← uriText fuel r
      return (cs ++ s.toList ++ more, r)

/-- the text of a tag, which is not empty -/
def uri (fuel : Nat) (ps : List Place) : Read (String × List Place) := do
  let (cs, r) ← uriText fuel ps
  if cs = [] ∧ peek ps ≠ '%' then malformed else return (.ofList cs, r)

/-- the handle of a tag: an exclamation mark, or a name between two of them -/
def tagHandle : List Place → Read (String × List Place)
  | [] => malformed
  | p :: ps =>
    if p.char ≠ '!' then malformed
    else if peek ps = ' ' then .ok ("!", ps)
    else
      let (cs, r) := run isName ps
      if peek r = '!' then .ok (.ofList ('!' :: cs ++ ['!']), r.tail) else malformed

/-- a tag after its exclamation mark -/
def tagName (fuel : Nat) (ps : List Place) : Read (TagName × List Place) := do
  let (name, r) ←
    match ps with
    | [] => malformed
    | mark :: r =>
      if peek r = '<' then do
        let (s, r) ← uri fuel r.tail
        if peek r = '>' then pure (⟨none, s⟩, r.tail) else malformed
      else if isWide (peek r) then pure (⟨none, "!"⟩, r)
      else if (r.takeWhile fun p => !isGap p.char).any fun p => p.char == '!' then do
        let (h, r) ← tagHandle (mark :: r)
        let (s, r) ← uri fuel r
        pure (⟨some h, s⟩, r)
      else do
        let (s, r) ← uri fuel r
        pure (⟨some "!", s⟩, r)
  if isGap (peek r) then return (name, r) else malformed

/-- a number of a version -/
def versionNumber (ps : List Place) : Read (Nat × List Place) :=
  let (cs, r) := run Char.isDigit ps
  if cs = [] then malformed else .ok (Json.natOf cs, r)

/-- a directive after its percent sign -/
def directive (fuel : Nat) (ps : List Place) : Read (Directive × List Place) := do
  let (name, r) := run isName ps
  if name = [] ∨ !isGap (peek r) then malformed
  else
    let afterSpaces (ps : List Place) := ps.dropWhile fun p => p.char == ' '
    let (d, r) ←
      if name = "YAML".toList then do
        let (major, r) ← versionNumber (afterSpaces r)
        if peek r ≠ '.' then malformed
        else
          let (_, r) ← versionNumber r.tail
          if isGap (peek r) then pure (Directive.version major, r) else malformed
      else if name = "TAG".toList then do
        let (handle, r) ← tagHandle (afterSpaces r)
        if peek r ≠ ' ' then malformed
        else
          let (s, r) ← uri fuel (afterSpaces r)
          if isGap (peek r) then pure (Directive.tagHandle handle s, r) else malformed
      else pure (Directive.other, r.dropWhile fun p => !endsLine p.char)
    let r ← need (restOfLine? r)
    return (d, r)

end ContractGraph.Yaml
