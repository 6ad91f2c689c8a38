import FrameLoop.Error

/-!
# The job forest

Jobs form trees. A parent owns its children and keeps them in the order in
which they were attached; a child only knows who its parent is and does not
keep it alive. Both directions are data here (`Forest.children`,
`Forest.parent`), and every operation writes both.

Two walks go over the links. Upwards, `Forest.lineage` is a job with all its
ancestors; it decides whether an attachment would close a cycle
(`Forest.attach`), and its end is the job's root. Downwards,
`Forest.descendantCount` works through a list of jobs still to be looked at.
Both walks carry a fuel, the number of jobs, which no walk in a forest
exceeds.

A job that nobody holds any more is gone, and a link to it reads as no link.
Who holds a job is for the caller to say: `Forest.sweep` keeps the jobs given
and all below them.
-/

namespace FrameLoop

/-- A job, by its number in the order of creation. Numbers are not reused. -/
abbrev JobRef := Nat

/-- A job's name and its links. -/
structure Forest.Node where
  job : JobRef
  name : String
  parent : Option JobRef := none
  children : List JobRef := []
deriving DecidableEq, Inhabited, Repr

/-- **All jobs there are**, and the number the next one gets. -/
structure Forest where
  nodes : List Forest.Node := []
  next : JobRef := 0
deriving DecidableEq, Inhabited, Repr

namespace Forest

/-! ## Looking -/

def node? (f : Forest) (j : JobRef) : Option Node := f.nodes.find? (·.job == j)

/-- Whether the job is still there. -/
def has (f : Forest) (j : JobRef) : Bool := (f.node? j).isSome

/-- The name of a job. -/
def name (f : Forest) (j : JobRef) : String := ((f.node? j).map (·.name)).getD ""

/-- The parent, if the job is attached. -/
def parent (f : Forest) (j : JobRef) : Option JobRef := (f.node? j).bind (·.parent)

/-- The direct children, in the order in which they were attached. -/
def children (f : Forest) (j : JobRef) : List JobRef := ((f.node? j).map (·.children)).getD []

/-! ## Walking up -/

/-- A job and its next `fuel` ancestors, from the job upwards. -/
def lineageUpTo (f : Forest) : Nat → JobRef → List JobRef
  | 0, j => [j]
  | fuel + 1, j =>
    match f.parent j with
    | some p => j :: f.lineageUpTo fuel p
    | none => [j]

/-- **A job and all its ancestors**, from the job upwards. -/
def lineage (f : Forest) (j : JobRef) : List JobRef := f.lineageUpTo f.nodes.length j

/-- The topmost ancestor, or the job itself if it has no parent. -/
def root (f : Forest) (j : JobRef) : JobRef := (f.lineage j).getLastD j

/-! ## Walking down -/

/-- How many jobs are met from a list of jobs to look at, the children of each
being looked at in turn. -/
def countFrom (f : Forest) : Nat → List JobRef → Nat
  | 0, _ => 0
  | _ + 1, [] => 0
  | fuel + 1, j :: rest => 1 + f.countFrom fuel (f.children j ++ rest)

/-- **The number of jobs anywhere below a job.** -/
def descendantCount (f : Forest) (j : JobRef) : Nat :=
  f.countFrom f.nodes.length (f.children j)

/-- A job with at most `fuel` levels below it, each job with its depth. -/
def treeUpTo (f : Forest) : Nat → Nat → JobRef → List (Nat × JobRef)
  | 0, depth, j => [(depth, j)]
  | fuel + 1, depth, j =>
    (depth, j) :: (f.children j).flatMap fun c => f.treeUpTo fuel (depth + 1) c

/-- **A job and all jobs below it**, parents first, siblings in order, each
with its depth. -/
def tree (f : Forest) (j : JobRef) : List (Nat × JobRef) := f.treeUpTo f.nodes.length 0 j

/-! ## Changing -/

/-- A new job without links. -/
def create (f : Forest) (name : String) : JobRef × Forest :=
  (f.next, { nodes := f.nodes ++ [{ job := f.next, name }], next := f.next + 1 })

/-- Change what is kept of one job. -/
def update (f : Forest) (j : JobRef) (g : Node → Node) : Forest :=
  { f with nodes := f.nodes.map fun n => if n.job = j then g n else n }

/-- **Detach a child from a job**; `false` if it was none of its children. -/
def erase (f : Forest) (p c : JobRef) : Bool × Forest :=
  if c ∈ f.children p then
    (true, (f.update p fun n => { n with children := n.children.filter (· != c) }).update c
      fun n => { n with parent := none })
  else (false, f)

/-- Write both directions of a new link. -/
def link (f : Forest) (p c : JobRef) : Forest :=
  (f.update c fun n => { n with parent := some p }).update p
    fun n => { n with children := n.children ++ [c] }

/-- **Attach a job beneath another**, taking it from where it was. `false` if
it is there already; refused, with nothing changed, if it would come beneath
itself. -/
def attach (f : Forest) (p c : JobRef) : Except SchedulerError (Bool × Forest) :=
  if c ∈ f.lineage p then .error (.cyclicDependency (f.name c))
  else
    match f.parent c with
    | some q => if q = p then .ok (false, f) else .ok (true, (f.erase q c).2.link p c)
    | none => .ok (true, f.link p c)

/-! ## Who is still there -/

/-- The jobs met from a list of jobs to look at, each looked at once. -/
def reach (f : Forest) : Nat → List JobRef → List JobRef → List JobRef
  | 0, seen, _ => seen
  | _ + 1, seen, [] => seen
  | fuel + 1, seen, j :: rest =>
    if j ∈ seen then f.reach fuel seen rest
    else f.reach fuel (j :: seen) (f.children j ++ rest)

/-- The jobs given and all jobs below them. Every job is looked at once, so
no more jobs come up than are given or are somebody's child. -/
def reachable (f : Forest) (roots : List JobRef) : List JobRef :=
  f.reach (roots.length + (f.nodes.flatMap (·.children)).length) [] roots

/-- **Let go of all jobs that are neither given nor below one that is.** A
link to one of them is a link no more. -/
def sweep (f : Forest) (roots : List JobRef) : Forest :=
  let kept := f.reachable roots
  { f with
    nodes := (f.nodes.filter fun n => n.job ∈ kept).map fun n =>
      { n with parent := n.parent.filter (· ∈ kept) } }

end Forest

end FrameLoop
