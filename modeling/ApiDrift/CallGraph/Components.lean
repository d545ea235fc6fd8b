import ApiDrift.CallGraph.Search

set_option autoImplicit false

/-!
# Strongly connected components

The strongly connected component of a vertex is what links lead to from it and lead
back from: a search along the links and one against them both come to it.  The links
that lie on a cycle are read off the components.  A component of several vertices
gives those of its links that stay inside; a link from a vertex to itself is a cycle
on its own and is found among the links.
-/

namespace ApiDrift

open Std

/-- The vertices that a search comes to, beginning with its origin. -/
def reached (next : String → List String) (vertices : TreeSet String) (origin : String) :
    List String :=
  origin :: (layersBeyond next (vertices.erase origin) [origin]).flatten

/-- What is reached from a vertex both forwards and backwards. -/
def reachedBothWays (next previous : String → List String) (vertices : TreeSet String)
    (origin : String) : List String :=
  let behind := TreeSet.ofList (reached previous vertices origin)
  (reached next vertices origin).filter (· ∈ behind)

/-- Components with that of one more vertex, unless the vertex is in one of them. -/
def addComponent (component : String → List String) (found : List (List String)) (v : String) :
    List (List String) :=
  if ∃ c ∈ found, v ∈ c then found else found ++ [component v]

namespace Digraph

variable {ρ : Type}

/-- The strongly connected components, in the order of their first vertices. -/
def components (g : Digraph ρ) : List (List String) :=
  let callees := g.calleeTable
  let callers := g.callerTable
  let vertices := g.vertexSet
  g.vertices.foldl
    (addComponent
      (reachedBothWays (fun v => callees.getD v []) (fun v => callers.getD v []) vertices)) []

/-- The links from a component of several vertices into itself. -/
def linksInside (next : String → List String) (component : List String) :
    List (String × String) :=
  if 1 < component.length then
    component.flatMap fun source =>
      ((next source).filter (· ∈ component)).map fun target => (source, target)
  else []

/-- The links from vertices to themselves. -/
def selfLinks (g : Digraph ρ) : List (String × String) :=
  g.links.keys.filter fun link => link.1 = link.2

/-- The links that lie on a cycle, read off the given components. -/
def linksOnCycles (g : Digraph ρ) (components : List (List String)) : List (String × String) :=
  let callees := g.calleeTable
  components.flatMap (linksInside fun v => callees.getD v []) ++ g.selfLinks

/-- The targets of the links that lie on a cycle, by source. -/
def cycleTable (g : Digraph ρ) : TreeMap String (List String) :=
  tableOf (g.linksOnCycles g.components)

end Digraph

end ApiDrift
