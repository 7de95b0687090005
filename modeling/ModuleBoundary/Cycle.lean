/-! Elementary cycles of a finite relation.

The vertices fall into strongly connected components, and every cycle lies within one of them.
In each component the search starts at every vertex in turn and enters only vertices that come
later, so a cycle is listed once, from its first vertex. Components are searched in the order in
which a depth-first search is done with them.
-/

set_option autoImplicit false

namespace ModuleBoundary.Cycle

variable {V : Type}

def successors (related : V → V → Bool) (vertex : V) (pool : List V) : List V :=
  pool.filter (related vertex)

def others (related : V → V → Bool) (vertex : V) (pool : List V) : List V :=
  pool.filter (!related vertex ·)

theorem length_successors_add_others (related : V → V → Bool) (vertex : V) (pool : List V) :
    (successors related vertex pool).length + (others related vertex pool).length =
      pool.length := by
  induction pool with
  | nil => rfl
  | cons head rest ih =>
    simp only [successors, others, List.filter_cons, List.length_cons] at *
    cases related vertex head <;> simp <;> omega

/-- The vertices of `pool` that walks from the `frontier` meet. -/
def reached (related : V → V → Bool) : (frontier pool : List V) → List V
  | [], _ => []
  | vertex :: frontier, pool =>
    successors related vertex pool ++
      reached related (successors related vertex pool ++ frontier) (others related vertex pool)
termination_by frontier pool => frontier.length + pool.length
decreasing_by
  have split := length_successors_add_others related vertex pool
  simp only [List.length_append, List.length_cons]
  omega

variable [DecidableEq V]

/-- The vertices that walks from `start` meet and that walks lead back from, and `start` itself. -/
def component (related : V → V → Bool) (vertices : List V) (start : V) : List V :=
  let ahead := reached related [start] vertices
  let behind := reached (fun a b => related b a) [start] vertices
  vertices.filter fun vertex =>
    vertex = start || ahead.contains vertex && behind.contains vertex

/-- The components of the vertices, each at the place of its last vertex in the order. -/
def components (related : V → V → Bool) (vertices : List V) : (order : List V) → List (List V)
  | [] => []
  | root :: rest =>
    let later := components related vertices rest
    if later.any (·.contains root) then later
    else component related vertices root :: later

/-- What a depth-first search does at a vertex. -/
inductive Visit (V : Type) where
  | enter (vertex : V)
  | leave (vertex : V)

/-- The vertices in the order in which a depth-first search leaves them. It enters the fresh ones
only, and tries the `next` of a vertex before it leaves it. -/
def leaving (next : V → List V) : (visits : List (Visit V)) → (fresh : List V) → List V
  | [], _ => []
  | .leave vertex :: visits, fresh => vertex :: leaving next visits fresh
  | .enter vertex :: visits, fresh =>
    if _new : vertex ∈ fresh then
      leaving next ((next vertex).map .enter ++ .leave vertex :: visits) (fresh.erase vertex)
    else leaving next visits fresh
termination_by visits fresh => (fresh.length, visits.length)
decreasing_by
  · exact Prod.Lex.right _ (by simp)
  · have positive := List.length_pos_of_mem _new
    have shorter := List.length_erase_of_mem _new
    exact Prod.Lex.left _ _ (by omega)
  · exact Prod.Lex.right _ (by simp)

/-- The paths from `current` through vertices of `free` whose end is related to `start`,
each vertex entered once and the next ones tried in the order of `free`. -/
def closing (related : V → V → Bool) (start current : V) (free : List V) : List (List V) :=
  (if related current start then [[current]] else []) ++
    (free.attach.filter (related current ·.1)).flatMap fun next =>
      (closing related start next.1 (free.erase next.1)).map (current :: ·)
termination_by free.length
decreasing_by
  have positive := List.length_pos_of_mem next.2
  have shorter := List.length_erase_of_mem next.2
  omega

/-- The elementary cycles through some vertices, each from its first vertex. -/
def within (related : V → V → Bool) : List V → List (List V)
  | [] => []
  | start :: later => closing related start start later ++ within related later

/-- The elementary cycles of several vertices each, component by component. -/
def elementary (related : V → V → Bool) (vertices order : List V) : List (List V) :=
  ((components related vertices order).filter (1 < ·.length)).flatMap (within related)

end ModuleBoundary.Cycle
