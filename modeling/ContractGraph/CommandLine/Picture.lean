/-
Pictures in console texts: a name between two colons stands for a picture, and may be followed by a dash and the word
`emoji` or `text`, which selects how it is drawn. A name of no picture stays as it is written.

Which names have pictures is up to the console, and is given.
-/
import ContractGraph.Text.LowerCase
import ContractGraph.Text.Blank

namespace ContractGraph.Markup

/-- the pictures that a console knows, by their names in small letters -/
abbrev Pictures := List Char → Option (List Char)

/-- the picture of a name, in letters of any case -/
def Pictures.find? (pictures : Pictures) (name : List Char) : Option (List Char) :=
  pictures (Text.lower (.ofList name)).toList

/-- the words that select how a picture is drawn, and the characters that they add to it -/
def drawings : List (List Char × Char) := [("-emoji".toList, '\uFE0F'), ("-text".toList, '\uFE0E')]

/-- what stands between two colons, as a picture -/
def drawn? (pictures : Pictures) (inside : List Char) : Option (List Char) :=
  match drawings.find? fun d => d.1.isSuffixOf inside with
  | some (word, how) => (pictures.find? (inside.take (inside.length - word.length))).map fun p => p ++ [how]
  | none => pictures.find? inside

/-- a text with pictures in the place of their names; the length of the text bounds their number -/
def withPictures (pictures : Pictures) : Nat → List Char → List Char
  | 0, cs => cs
  | _, [] => []
  | fuel + 1, c :: cs =>
    if c ≠ ':' then c :: withPictures pictures fuel cs
    else
      let inside := cs.takeWhile fun d => d != ':' && !Text.isBlank d
      match cs.drop inside.length with
      | ':' :: r => (drawn? pictures inside).getD (':' :: inside ++ [':']) ++ withPictures pictures fuel r
      | _ => ':' :: withPictures pictures fuel cs

end ContractGraph.Markup
