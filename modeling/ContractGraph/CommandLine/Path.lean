/-
Paths, and a tree of files that they lead into.

A path is kept as its parts: empty parts and the part `.` say nothing and are left out. A tree holds directories and
files by where their paths lead; a change that finds something else in its way is refused with a cause.
-/
import ContractGraph.Storage

namespace ContractGraph

structure Path where
  absolute : Bool
  parts : List String
deriving DecidableEq, Repr, Inhabited

namespace Path

/-- the path of a text -/
def ofText (s : String) : Path :=
  let cs := s.toList
  ⟨cs.head? = some '/', ((Text.pieces '/' cs).map String.ofList).filter fun p => p != "" && p != "."⟩

/-- the text of a path -/
def text (p : Path) : String :=
  let t := "/".intercalate p.parts
  if p.absolute then "/" ++ t else if p.parts = [] then "." else t

/-- a path below another; an absolute path stays as it is -/
def below (p q : Path) : Path := if q.absolute then q else { p with parts := p.parts ++ q.parts }

/-- a path without its last part -/
def parent (p : Path) : Path := { p with parts := p.parts.dropLast }

/-- does a path hold the character U+0000, which no path can? -/
def isUnnameable (p : Path) : Bool := p.parts.any fun part => part.toList.contains '\x00'

/-- the paths above a path, the outermost first -/
def ancestors (p : Path) : List Path := (List.range p.parts.length).map fun n => { p with parts := p.parts.take n }

end Path

/-- a change to a tree -/
inductive Change where
  /-- make a directory, unless it is there; `above` makes those above it as well -/
  | directory (path : Path) (above : Bool)
  | file (path : Path) (text : String)
deriving DecidableEq, Repr

/-- why a change is refused -/
inductive ChangeFault where
  | exists
  | absent
  | notDirectory
  | isDirectory
  /-- a path, or a part of it, is too long -/
  | tooLong
  /-- a path holds the character U+0000 -/
  | unnameable
deriving DecidableEq, Repr

/-- directories and files below a directory, which has the empty path -/
structure Tree where
  directories : List Path
  files : List (Path × String)

namespace Tree

def empty : Tree := ⟨[], []⟩

instance : Inhabited Tree := ⟨empty⟩

def isDirectory (t : Tree) (p : Path) : Bool := p.parts.isEmpty || t.directories.contains p

def file? (t : Tree) (p : Path) : Option String := t.files.lookup p

/-- how many bytes a part of a path may have -/
def partLimit : Nat := 255

/-- how many bytes a path may have -/
def pathLimit : Nat := 4095

/-- where parts lead from a directory, one after the other: two dots lead to the directory above, and what other parts follow
must be a directory -/
def walk (t : Tree) (here : Path) : List String → Except ChangeFault Path
  | [] => .ok here
  | p :: ps =>
    if partLimit < p.utf8ByteSize then .error .tooLong
    else
      let next := if p = ".." then here.parent else { here with parts := here.parts ++ [p] }
      if ps.isEmpty then .ok next
      else if t.isDirectory next then t.walk next ps
      else if (t.file? next).isSome then .error .notDirectory
      else .error .absent

/-- where a path leads -/
def resolve (t : Tree) (p : Path) : Except ChangeFault Path :=
  if p.isUnnameable then .error .unnameable
  else if pathLimit < p.text.utf8ByteSize then .error .tooLong
  else t.walk ⟨p.absolute, []⟩ p.parts

/-- what stands under a path -/
def content (t : Tree) (p : Path) : FileContent :=
  match t.resolve p with
  | .ok q =>
    if t.isDirectory q then .directory
    else match t.file? q with
      | some s => .bytes s.toUTF8.toList
      | none => .absent
  | .error .notDirectory => .blocked
  | .error .tooLong => .tooLong
  | .error _ => .absent

/-- the text of the file under a path -/
def textOf? (t : Tree) (p : Path) : Option String :=
  match t.resolve p with
  | .ok q => t.file? q
  | .error _ => none

/-- make a directory inside a directory that is there -/
def makeDirectory (t : Tree) (p : Path) : Except ChangeFault Tree := do
  let q ← t.resolve p
  if t.isDirectory q then return t
  else if (t.file? q).isSome then .error .exists
  else return { t with directories := t.directories ++ [q] }

/-- make directories one after the other; the first one that cannot be made ends it -/
def makeDirectories (t : Tree) : List Path → Tree × Option ChangeFault
  | [] => (t, none)
  | p :: ps =>
    match t.makeDirectory p with
    | .ok t' => t'.makeDirectories ps
    | .error f => (t, some f)

/-- write a file inside a directory that is there -/
def writeFile (t : Tree) (p : Path) (s : String) : Except ChangeFault Tree := do
  let q ← t.resolve p
  if t.isDirectory q then .error .isDirectory
  else if (t.file? q).isSome then return { t with files := t.files.map fun e => if e.1 = q then (q, s) else e }
  else return { t with files := t.files ++ [(q, s)] }

/-- carry out a change; one that is refused may leave directories behind -/
def apply (t : Tree) : Change → Tree × Option ChangeFault
  | .directory p above =>
    match t.makeDirectory p with
    | .ok t' => (t', none)
    | .error .absent => if above then t.makeDirectories (p.ancestors ++ [p]) else (t, some .absent)
    | .error f => (t, some f)
  | .file p s =>
    match t.writeFile p s with
    | .ok t' => (t', none)
    | .error f => (t, some f)

/-- the paths of all directories, with a slash at the end, and of all files; what lies elsewhere is not told -/
def paths (t : Tree) : List String :=
  (t.directories.filter (!·.absolute)).map (fun p => p.text ++ "/") ++
    (t.files.filter (!·.1.absolute)).map fun e => e.1.text

end Tree

end ContractGraph
