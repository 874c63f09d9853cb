/-
Elementary cycles of a directed graph, each listed once, from its least vertex on.

A search for the cycles whose least vertex is `s` walks over the vertices that are above `s`, can be reached, and can come
back to `s`; a graph without cycles therefore takes no walk at all.
-/

namespace ContractGraph

/-- a directed graph: vertices and edges, each listed once -/
structure Digraph where
  vertices : List String
  edges : List (String × String)

namespace Digraph

/-- a graph of edges that may be listed more than once -/
def ofEdges (vertices : List String) (edges : List (String × String)) : Digraph := ⟨vertices, edges.eraseDups⟩

/-- the vertices that an edge leads to from `v` -/
def successors (d : Digraph) (v : String) : List String := (d.edges.filter fun e => e.1 == v).map Prod.snd

/-- the vertices from which `fuel` edges or fewer lead into `found` -/
def before (edges : List (String × String)) : Nat → List String → List String
  | 0, found => found
  | fuel + 1, found =>
    let more := ((edges.filter fun e => found.contains e.2 && !found.contains e.1).map Prod.fst).eraseDups
    if more.isEmpty then found else before edges fuel (found ++ more)

/-- the part of the graph whose vertices are not below `start` and can come back to it -/
def around (d : Digraph) (start : String) : Digraph :=
  let edges := d.edges.filter fun e => decide (start ≤ e.1) && decide (start ≤ e.2)
  let home := before edges d.vertices.length [start]
  ⟨home, edges.filter fun e => home.contains e.1 && home.contains e.2⟩

/-- the cycles that close a path; `path` is held in reverse, `start` is its first vertex and `last` its last -/
def closing (d : Digraph) (start : String) : Nat → List String → String → List (List String)
  | 0, _, _ => []
  | fuel + 1, path, last =>
    (d.successors last).flatMap fun v =>
      if v = start then [path.reverse]
      else if path.contains v then []
      else closing d start fuel (v :: path) v

/-- the elementary cycles whose least vertex is `start` -/
def cyclesFrom (d : Digraph) (start : String) : List (List String) :=
  (d.around start).closing start (d.vertices.length + 1) [start] start

/-- all elementary cycles -/
def cycles (d : Digraph) : List (List String) := d.vertices.flatMap d.cyclesFrom

end Digraph

end ContractGraph
