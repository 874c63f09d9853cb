/-
Text with marks of style between square brackets, and how it looks without them. Names of pictures between colons become
pictures where no mark parts them.

A mark begins with a small letter, a hash sign, a slash or an at sign; one that begins with a slash closes another. A
backslash before a mark makes it plain text. What closes a mark may spell its style in other words.
-/
import ContractGraph.CommandLine.Picture
import ContractGraph.CommandLine.Style

namespace ContractGraph.Markup

/-- a part of a marked text -/
inductive Part where
  | plain (cs : List Char)
  | mark (cs : List Char)
deriving DecidableEq, Repr

def beginsMark (c : Char) : Bool := c.isLower || c == '#' || c == '/' || c == '@'

/-- the inside of a mark after its opening bracket, and what follows its closing bracket -/
def mark? (cs : List Char) : Option (List Char × List Char) :=
  match cs with
  | c :: _ =>
    if beginsMark c then
      let inside := cs.takeWhile fun d => d != ']' && d != '['
      match cs.drop inside.length with
      | ']' :: r => some (inside, r)
      | _ => none
    else none
  | [] => none

/-- backslashes and a mark after them at the start of a text -/
def escapedMark? (cs : List Char) : Option (Nat × List Char × List Char) :=
  let n := (cs.takeWhile (· = '\\')).length
  match cs.drop n with
  | '[' :: r => (mark? r).map fun (inside, rest) => (n, inside, rest)
  | _ => none

/-- plain text as a part, if there is any -/
def plainPart (cs : List Char) : List Part := if cs.isEmpty then [] else [.plain cs]

/-- the parts of a text after plain characters, which are given last one first; the length of the text bounds their number -/
def partsWithin : Nat → List Char → List Char → List Part
  | 0, before, cs => plainPart (before.reverse ++ cs)
  | _, before, [] => plainPart before.reverse
  | fuel + 1, before, c :: cs =>
    match escapedMark? (c :: cs) with
    | some (n, inside, rest) =>
      let slashes := List.replicate (n / 2) '\\'
      let here : Part := if n % 2 = 1 then .plain ('[' :: inside ++ [']']) else .mark inside
      plainPart before.reverse ++ plainPart slashes ++ here :: partsWithin fuel [] rest
    | none => if c = '\\' ∧ cs.head? = some '[' then partsWithin fuel before cs else partsWithin fuel (c :: before) cs

/-- the words of a mark: what stands before its parameters -/
def spelling (inside : List Char) : String := Text.strip (.ofList (inside.takeWhile (· ≠ '=')))

/-- the plain parts; `opened` are the names of the marks that are open, innermost first -/
def plainFrom (opened : List String) : List Part → Option (List (List Char))
  | [] => some []
  | .plain cs :: ps => (plainFrom opened ps).map (cs :: ·)
  | .mark inside :: ps =>
    match inside with
    | '/' :: r =>
      if spelling r = "" then
        match opened with
        | _ :: os => plainFrom os ps
        | [] => none
      else
        let n := Style.nameOf (spelling r)
        if opened.contains n then plainFrom (opened.erase n) ps else none
    | _ => plainFrom (Style.nameOf (spelling inside) :: opened) ps

/-- what stands between the marks of a text, unless a mark closes what is not open -/
def plainParts? (s : String) : Option (List (List Char)) := plainFrom [] (partsWithin s.toList.length [] s.toList)

/-- a text without its marks, unless a mark closes what is not open -/
def plain? (pictures : Pictures) (s : String) : Option String :=
  (plainParts? s).map fun parts => .ofList (parts.flatMap fun cs => withPictures pictures cs.length cs)

/-- a text in which nothing is a mark -/
def escapeWithin : Nat → List Char → List Char
  | 0, cs => cs
  | _, [] => []
  | fuel + 1, c :: cs =>
    match escapedMark? (c :: cs) with
    | some (n, inside, rest) =>
      List.replicate (2 * n + 1) '\\' ++ '[' :: inside ++ ']' :: escapeWithin fuel rest
    | none => c :: escapeWithin fuel cs

/-- a text in which nothing is a mark, and which ends with no single backslash -/
def escape (s : String) : String :=
  let cs := escapeWithin s.toList.length s.toList
  let single := cs.getLast? = some '\\' ∧ cs.dropLast.getLast? ≠ some '\\'
  .ofList (if single then cs ++ ['\\'] else cs)

end ContractGraph.Markup
