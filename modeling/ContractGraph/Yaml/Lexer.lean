/-
From characters to tokens.

Whether a scalar is a key shows only at the colon after it, so a place where a key may have begun is remembered for each
open flow collection, and the key's token is put there later. Blocks open and close with the columns of lines.

Where a text cannot be read on, the tokens before that place are still told, as far as no key can be put among them any
more: what is wrong with them is wrong first.
-/
import ContractGraph.Yaml.Lexeme

namespace ContractGraph.Yaml

/-- a place where a key may have begun; a required one must turn out to be a key -/
structure KeyStart where
  /-- how many tokens stand before it -/
  count : Nat
  place : Place
  required : Bool

/-- the state between two tokens -/
structure Lexer where
  rest : List Place
  /-- the length of the whole text, which no lexeme exceeds -/
  size : Nat
  /-- the tokens so far, newest first -/
  done : List Token
  count : Nat
  /-- the column of the innermost block, -1 outside of all, and those of the blocks around it -/
  indent : Int
  outer : List Int
  /-- may a key begin here? -/
  keyAllowed : Bool
  /-- for the block and each open flow collection, innermost first: where a key may have begun -/
  starts : List (Option KeyStart)

namespace Lexer

/-- the state at the start of a text -/
def start (ps : List Place) (size : Nat) : Lexer := ⟨ps, size, [], 0, -1, [], true, [none]⟩

def inFlow (l : Lexer) : Bool := l.starts.length > 1

def columnHere (l : Lexer) : Int := column l.rest

/-- the state with a token more -/
def emit (l : Lexer) (t : Token) : Lexer := { l with done := t :: l.done, count := l.count + 1 }

/-- blanks, comments and line ends that are passed over, and whether a key may begin after them -/
def passOver (inFlow comment allowed : Bool) : List Place → List Place × Bool
  | [] => ([], allowed)
  | p :: ps =>
    if isBreak p.char then passOver inFlow false (allowed || !inFlow) ps
    else if comment && p.char != endMark then passOver inFlow true allowed ps
    else if p.char = ' ' then passOver inFlow false allowed ps
    else if p.char = '#' then passOver inFlow true allowed ps
    else (p :: ps, allowed)

/-- the state at the next token -/
def skip (l : Lexer) : Lexer :=
  let (r, allowed) := passOver l.inFlow false l.keyAllowed l.rest
  { l with rest := r, keyAllowed := allowed }

/-- is a start of a key too far back? a key stands on one line, and is not longer than 1024 characters -/
def KeyStart.isStale (k : KeyStart) (p : Place) : Bool := k.place.line != p.line || p.index - k.place.index > 1024

/-- forget the starts of keys that are too far back; a required one must not be among them -/
def dropStale (p : Place) : List (Option KeyStart) → Read (List (Option KeyStart))
  | [] => .ok []
  | none :: ks => (dropStale p ks).map (none :: ·)
  | some k :: ks =>
    if !KeyStart.isStale k p then (dropStale p ks).map (some k :: ·)
    else if k.required then malformed
    else (dropStale p ks).map (none :: ·)

/-- close the blocks that are indented more than a column -/
def closeBlocks (column : Int) (l : Lexer) : Lexer :=
  if l.inFlow then l
  else go l.outer l
where
  go : List Int → Lexer → Lexer
    | [], l => l
    | i :: is, l => if l.indent > column then go is { l.emit .blockEnd with indent := i, outer := is } else l

/-- open a block at a column, if it is indented more than the innermost one -/
def openBlock (column : Int) (t : Token) (l : Lexer) : Lexer :=
  if l.indent < column then { l.emit t with indent := column, outer := l.indent :: l.outer } else l

/-- forget the innermost start of a key, which must not be required -/
def forgetKey (l : Lexer) : Read Lexer :=
  match l.starts with
  | some k :: ks => if k.required then malformed else .ok { l with starts := none :: ks }
  | _ => .ok l

/-- remember that a key may begin here -/
def rememberKey (l : Lexer) : Read Lexer := do
  if !l.keyAllowed then return l
  else
    let l ← l.forgetKey
    return { l with starts := some ⟨l.count, here l.rest, !l.inFlow && l.indent == l.columnHere⟩ :: l.starts.tail }

/-- put tokens, newest first, before the last `after` tokens -/
def emitBefore (l : Lexer) (after : Nat) (ts : List Token) : Lexer :=
  { l with done := l.done.take after ++ ts ++ l.done.drop after, count := l.count + ts.length }

/-- move on by some characters -/
def advance (n : Nat) (l : Lexer) : Lexer := { l with rest := l.rest.drop n }

/-! ## One token -/

/-- a line that starts or ends a document -/
def documentMark (t : Token) (l : Lexer) : Read Lexer := do
  let l ← (l.closeBlocks (-1)).forgetKey
  return ({ l with keyAllowed := false }.emit t).advance 3

/-- a line that starts with a percent sign -/
def directiveLine (l : Lexer) : Read Lexer := do
  let l ← (l.closeBlocks (-1)).forgetKey
  let (d, r) ← directive l.size l.rest.tail
  return { l.emit (.directive d) with rest := r, keyAllowed := false }

/-- the start of a flow collection -/
def flowStart (t : Token) (l : Lexer) : Read Lexer := do
  let l ← l.rememberKey
  return ({ l with starts := none :: l.starts, keyAllowed := true }.emit t).advance 1

/-- the end of a flow collection -/
def flowEnd (t : Token) (l : Lexer) : Read Lexer := do
  if !l.inFlow then malformed
  else
    let l ← l.forgetKey
    return ({ l with starts := l.starts.tail, keyAllowed := false }.emit t).advance 1

/-- a comma of a flow collection -/
def comma (l : Lexer) : Read Lexer := do
  let l ← l.forgetKey
  return ({ l with keyAllowed := true }.emit .flowEntry).advance 1

/-- the dash of an entry of a block sequence -/
def dash (l : Lexer) : Read Lexer := do
  if !l.inFlow ∧ !l.keyAllowed then malformed
  else
    let l := if l.inFlow then l else l.openBlock l.columnHere .blockSequence
    let l ← l.forgetKey
    return ({ l with keyAllowed := true }.emit .blockEntry).advance 1

/-- the question mark before a key -/
def questionMark (l : Lexer) : Read Lexer := do
  if !l.inFlow ∧ !l.keyAllowed then malformed
  else
    let l := if l.inFlow then l else l.openBlock l.columnHere .blockMapping
    let l ← l.forgetKey
    return ({ l with keyAllowed := !l.inFlow }.emit .key).advance 1

/-- the colon before a value: what began as a key is one -/
def colon (l : Lexer) : Read Lexer := do
  match l.starts with
  | some k :: ks =>
    let opens := !l.inFlow && l.indent < k.place.column
    let l := l.emitBefore (l.count - k.count) (if opens then [.key, .blockMapping] else [.key])
    let l := if opens then { l with indent := k.place.column, outer := l.indent :: l.outer } else l
    return ({ l with starts := none :: ks, keyAllowed := false }.emit .value).advance 1
  | _ =>
    if !l.inFlow ∧ !l.keyAllowed then malformed
    else
      let l := if l.inFlow then l else l.openBlock l.columnHere .blockMapping
      return ({ l with keyAllowed := !l.inFlow }.emit .value).advance 1

/-- a token that may begin a key, and is read by a function of its own -/
def lexeme (f : List Place → Read (Token × List Place)) (l : Lexer) : Read Lexer := do
  let l ← l.rememberKey
  let (t, r) ← f l.rest
  return { l.emit t with rest := r, keyAllowed := false }

/-- a block scalar -/
def block (fold : Bool) (l : Lexer) : Read Lexer := do
  let l ← l.forgetKey
  let (cs, r) ← blockScalar fold l.indent l.size l.rest.tail
  return { l.emit (.scalar (.ofList cs) false) with rest := r, keyAllowed := true }

/-- a plain scalar; a key may begin after it if a line ended -/
def plain (l : Lexer) : Read Lexer := do
  let l ← l.rememberKey
  let s := plainScalar l.inFlow (l.indent + 1) l.size [] false l.rest
  return { l.emit (.scalar (.ofList s.text) true) with rest := s.rest, keyAllowed := s.fresh }

/-- may a plain scalar begin with a character before another? -/
def beginsPlain (inFlow : Bool) (c next : Char) : Bool :=
  !(isWide c || c ∈ ['-', '?', ':', ',', '[', ']', '\x7b', '\x7d', '#', '&', '*', '!', '|', '>', '\'', '"', '%', '@', '`']) ||
    (!isWide next && (c == '-' || (!inFlow && (c == '?' || c == ':'))))

/-- the next token; the state is at its first character -/
def token (l : Lexer) : Read Lexer :=
  let c := peek l.rest
  let next := peek l.rest.tail
  let atStart := l.columnHere = 0
  if c = '%' ∧ atStart then l.directiveLine
  else if atStart ∧ startsSeparator '-' l.rest then l.documentMark .documentStart
  else if atStart ∧ startsSeparator '.' l.rest then l.documentMark .documentEnd
  else if c = '[' then l.flowStart .flowSequence
  else if c = '\x7b' then l.flowStart .flowMapping
  else if c = ']' then l.flowEnd .flowSequenceEnd
  else if c = '\x7d' then l.flowEnd .flowMappingEnd
  else if c = ',' then l.comma
  else if c = '-' ∧ isWide next then l.dash
  else if c = '?' ∧ (l.inFlow ∨ isWide next) then l.questionMark
  else if c = ':' ∧ (l.inFlow ∨ isWide next) then l.colon
  else if c = '*' then l.lexeme fun ps => do
    let (s, r) ← anchorName ps.tail
    return (.alias s, r)
  else if c = '&' then l.lexeme fun ps => do
    let (s, r) ← anchorName ps.tail
    return (.anchor s, r)
  else if c = '!' then l.lexeme fun ps => do
    let (n, r) ← tagName l.size ps
    return (.tag n, r)
  else if c = '|' ∧ !l.inFlow then l.block false
  else if c = '>' ∧ !l.inFlow then l.block true
  else if c = '\'' ∨ c = '"' then l.lexeme fun ps => do
    let (cs, r) ← quotedScalar (c = '"') (l.size + 1) ps.tail
    return (.scalar (.ofList cs) false, r)
  else if beginsPlain l.inFlow c next then l.plain
  else malformed

/-- the state without the starts of keys that are too far back from here -/
def current (l : Lexer) : Read Lexer := do return { l with starts := ← dropStale (here l.rest) l.starts }

/-- the next token, and whether the text goes on -/
def next (l : Lexer) : Read (Lexer × Bool) := do
  let l ← l.skip.current
  let l := l.closeBlocks l.columnHere
  if peek l.rest = endMark then return (← (l.closeBlocks (-1)).forgetKey, false) else return (← l.token, true)

/-- the tokens before which no key can be put any more -/
def settled (l : Lexer) : List Token :=
  let first := (l.starts.filterMap id).foldl (fun n k => min n k.count) l.count
  (l.done.drop (l.count - first)).reverse

/-- all tokens up to the end of the text; every token takes at least one character -/
def finish : Nat → Lexer → Tokens
  | 0, l => ⟨l.settled, some .malformed⟩
  | fuel + 1, l =>
    match l.current with
    | .error f => ⟨l.settled, some f⟩
    | .ok l =>
      match l.next with
      | .error f => ⟨l.settled, some f⟩
      | .ok (l', false) => ⟨l'.done.reverse, none⟩
      | .ok (l', true) => finish fuel l'

end Lexer

/-- the tokens of characters; with one among them that may not stand in any text there are none -/
def tokensOf (cs : List Char) : Tokens :=
  let cs := Text.withLineFeeds cs
  if cs.all isAllowed then (Lexer.start (places cs) cs.length).finish (cs.length + 2) else ⟨[], some .malformed⟩

/-- the tokens of a text -/
def tokens (s : String) : Tokens := tokensOf s.toList

end ContractGraph.Yaml
