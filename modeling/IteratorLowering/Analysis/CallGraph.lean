import IteratorLowering.Program.Walk

/-!
# The call graph

`Program.callGraph` lists the direct calls of a program as edges from the function that holds the
calling statement to the function that is called. Calls through the function table are no edges.

`CallGraph.callers` lists the functions that call a given one. `CallGraph.isRecursive` visits the
callers of a function, their callers, and so on, until the function itself is one of them.
-/

set_option autoImplicit false
set_option relaxedAutoImplicit false

namespace IteratorLowering

/-- The function that a statement calls directly. -/
def StmtKind.directCallee? : StmtKind → Option FnId
  | .action (.assign _ (.call callee _)) => some callee
  | .action (.evaluate (.call callee _)) => some callee
  | _ => none

/-- A direct call: the calling statement, the function that holds it, and the function called. -/
structure CallSite where
  caller : FnId
  site : StmtId
  callee : FnId
  deriving DecidableEq, Repr, Inhabited

/-- The direct calls of a program, in program order. -/
structure CallGraph where
  sites : List CallSite := []
  deriving Repr, Inhabited

namespace Program

/-- The direct calls in the body of a function. -/
def callsFrom (program : Program) (caller : FnId) : List CallSite :=
  (program.functionStmts caller).filterMap fun site =>
    (program.kind site).directCallee?.map fun callee => { caller, site, callee }

/-- The direct calls of all functions. -/
def callGraph (program : Program) : CallGraph := ⟨program.functionIds.flatMap program.callsFrom⟩

end Program

namespace CallGraph

/-- The statements that call a function, in program order. -/
def callSites (graph : CallGraph) (callee : FnId) : List StmtId :=
  (graph.sites.filter fun call => call.callee == callee).map CallSite.site

/-- The function that holds a calling statement; the last one, should several hold it. -/
def callerOf? (graph : CallGraph) (site : StmtId) : Option FnId :=
  (graph.sites.filter fun call => call.site == site).getLast?.map CallSite.caller

/-- The functions that call a function, without repeats, in order of their first call. -/
def callers (graph : CallGraph) (callee : FnId) : List FnId :=
  ((graph.callSites callee).filterMap graph.callerOf?).eraseDups

/-- The state of a search over callers. -/
structure Search where
  /-- The functions whose callers have not been looked at, in order. -/
  queue : List FnId
  /-- The functions that have been queued at some time. -/
  visited : List FnId
  deriving Repr, Inhabited

/-- Queue the callers that have not been visited, in order. There is no next state if the sought
function is among the callers, which ends the search. -/
def enqueue (sought : FnId) (search : Search) : List FnId → Option Search
  | [] => some search
  | caller :: rest =>
    if caller == sought then none
    else if search.visited.contains caller then enqueue sought search rest
    else
      enqueue sought { queue := search.queue ++ [caller], visited := search.visited ++ [caller] }
        rest

/-- Whether the sought function shows up as a caller of something that is visited, breadth first.
At most the given number of functions are taken from the queue. -/
def finds (graph : CallGraph) (sought : FnId) : Nat → Search → Bool
  | 0, _ => false
  | _ + 1, { queue := [], .. } => false
  | fuel + 1, { queue := function :: queue, visited } =>
    match enqueue sought { queue, visited } (graph.callers function) with
    | none => true
    | some search => graph.finds sought fuel search

/-- Whether a function can reach itself through direct calls. Every function is queued once, so no
more are taken from the queue than there are call sites, and the function itself. -/
def isRecursive (graph : CallGraph) (function : FnId) : Bool :=
  graph.finds function (graph.sites.length + 1) { queue := [function], visited := [function] }

end CallGraph

namespace Program

/-- The iterator functions that can reach themselves through direct calls, in order. -/
def recursiveIterators (program : Program) (graph : CallGraph) : List FnId :=
  program.functionIds.filter fun id =>
    (program.function id).isIterator && graph.isRecursive id

end Program

end IteratorLowering
