/-!
# Sorting by runs

A stable sort for items that cannot always be compared, or not consistently.  The items are cut into
runs that are in order already, short runs are filled up by insertion, and neighbouring runs are
merged so that the longer ones lie deeper.  For a consistent order this is the stable sort; for any
other the order of the comparisons decides.
-/

namespace OptimalAssignment.RunSort

variable {ε α : Type} (cmp : α → α → Except ε Ordering)

def less (x y : α) : Except ε Bool := do
  return (← cmp x y) == .lt

/-! ## Runs -/

/-- The items after `x` up to the first two that are not `kept`, and the rest. -/
def follow (kept : Ordering → Bool) (x : α) : List α → Except ε (List α × List α)
  | [] => .ok ([], [])
  | y :: rest => do
      if kept (← cmp x y) then
        let (run, rest) ← follow kept y rest
        return (y :: run, rest)
      else return ([], y :: rest)

/-- The run at the front: it never falls, or it always falls and is turned round. -/
def front : List α → Except ε (List α × List α)
  | x :: y :: rest => do
      if (← cmp x y) != .gt then
        let (run, rest) ← follow cmp (· != .gt) y rest
        return (x :: y :: run, rest)
      else
        let (run, rest) ← follow cmp (· == .gt) y rest
        return ((x :: y :: run).reverse, rest)
  | items => .ok (items, [])

/-- Puts an item behind the last one that it does not precede; the last item is the first here. -/
def insertBack (v : α) : List α → Except ε (List α)
  | [] => .ok [v]
  | p :: rest => do
      if ← less cmp v p then return p :: (← insertBack v rest)
      else return v :: p :: rest

/-- The run at the front, filled up to at least `shortest` items. -/
def nextRun (shortest : Nat) (items : List α) : Except ε (List α × List α) := do
  let (run, rest) ← front cmp items
  let missing := shortest - run.length
  let filled ← (rest.take missing).foldlM (fun r v => insertBack cmp v r) run.reverse
  return (filled.reverse, rest.drop missing)

/-- The least length of a run: half of the count, rounded up at most once, until it is small. -/
def shortestRun : Nat → Nat → Nat → Nat
  | 0, count, odd => count + odd
  | steps + 1, count, odd =>
      if 16 < count then shortestRun steps (count / 2) (max odd (count % 2)) else count + odd

/-! ## Searching

`hit k` tells whether the item looked for lies before place `k`.  The distance is doubled until it
does, and then halved. -/

def gallop (hit : Nat → Except ε Bool) (size : Nat) : Nat → Nat → Nat → Except ε (Nat × Nat)
  | 0, low, _ => .ok (low, size)
  | steps + 1, low, high => do
      if size ≤ high then return (low, size)
      else if ← hit high then return (low, high)
      else gallop hit size steps high (2 * high + 1)

/-- Narrows two places down until they are neighbours. -/
def bisect (hit : Nat → Except ε Bool) (middle : Nat → Nat → Nat) :
    Nat → Nat → Nat → Except ε (Nat × Nat)
  | 0, low, high => .ok (low, high)
  | steps + 1, low, high => do
      if low + 1 < high then
        let m := middle low high
        if ← hit m then bisect hit middle steps low m else bisect hit middle steps m high
      else return (low, high)

/-- The first place, from zero on, where the search hits; `size` if there is none. -/
def search (hit : Nat → Except ε Bool) (middle : Nat → Nat → Nat) (size : Nat) :
    Except ε Nat := do
  if ← hit 0 then return 0
  let (low, high) ← gallop hit size size 0 1
  return (← bisect hit middle size low high).2

/-- The number of items of a run that do not follow a key. -/
def placeAfter (run : Array α) (key : α) : Except ε Nat :=
  let hit k := match run[k]? with
    | some x => less cmp key x
    | none => .ok true
  search hit (fun low high => low + (high - low) / 2) run.size

/-- The number of items of a run that precede a key, counted from the end. -/
def placeBefore (run : Array α) (key : α) : Except ε Nat := do
  let hit k := match run[run.size - 1 - k]? with
    | some x => less cmp x key
    | none => .ok true
  let found ← search hit (fun low high => high - (high - low) / 2) run.size
  return run.size - found

/-! ## Merging -/

/-- Takes the front item of the second list if it precedes that of the first. -/
def mergeFront : Nat → List α → List α → Except ε (List α)
  | steps + 1, x :: xs, y :: ys => do
      if ← less cmp y x then return y :: (← mergeFront steps (x :: xs) ys)
      else return x :: (← mergeFront steps xs (y :: ys))
  | _, xs, ys => .ok (xs ++ ys)

/-- The same from the end, for lists that are turned round. -/
def mergeBack : Nat → List α → List α → Except ε (List α)
  | steps + 1, x :: xs, y :: ys => do
      if ← less cmp y x then return x :: (← mergeBack steps xs (y :: ys))
      else return y :: (← mergeBack steps (x :: xs) ys)
  | _, xs, ys => .ok (ys ++ xs)

/-- Merges what is left of two runs if the second starts within the first, the shorter part being
the one that is moved. -/
def mergeParts (first second : List α) : Except ε (List α) :=
  let steps := first.length + second.length
  if second.length < first.length then
    match first.reverse with
    | x :: xs => do return (x :: (← mergeBack cmp steps xs second.reverse)).reverse
    | [] => .ok second
  else
    match second with
    | y :: ys => do return y :: (← mergeFront cmp steps first ys)
    | [] => .ok first

def merge (first second : List α) : Except ε (List α) :=
  match second, first.getLast? with
  | y :: _, some x => do
      let start ← placeAfter cmp first.toArray y
      if start = first.length then return first ++ second
      let stop ← placeBefore cmp second.toArray x
      let merged ← mergeParts cmp (first.drop start) (second.take stop)
      return first.take start ++ merged ++ second.drop stop
  | _, _ => .ok (first ++ second)

/-! ## The stack of runs, the last one on top -/

/-- Whether the run below the two on top is too short for them, or the one below it. -/
def crowded (top second : List α) : List (List α) → Bool
  | third :: below =>
      third.length ≤ second.length + top.length ||
        (below.head?.any fun fourth => fourth.length ≤ third.length + second.length)
  | [] => false

/-- Merges runs until every run is longer than the two above it together. -/
def collapse : Nat → List (List α) → Except ε (List (List α))
  | steps + 1, top :: second :: below => do
      if crowded top second below then
        match below with
        | third :: rest =>
            if third.length ≤ top.length then
              collapse steps (top :: (← merge cmp third second) :: rest)
            else collapse steps ((← merge cmp second top) :: third :: rest)
        | [] => return top :: second :: below
      else if second.length ≤ top.length then
        collapse steps ((← merge cmp second top) :: below)
      else return top :: second :: below
  | _, runs => .ok runs

/-- Merges all runs. -/
def mergeAll : Nat → List (List α) → Except ε (List α)
  | steps + 1, top :: second :: third :: below => do
      if third.length ≤ top.length then
        mergeAll steps (top :: (← merge cmp third second) :: below)
      else mergeAll steps ((← merge cmp second top) :: third :: below)
  | _, [top, second] => merge cmp second top
  | _, runs => .ok runs.reverse.flatten

def stack (shortest : Nat) : Nat → List (List α) → List α → Except ε (List (List α))
  | 0, runs, _ => .ok runs
  | _, runs, [] => .ok runs
  | steps + 1, runs, items => do
      let (run, rest) ← nextRun cmp shortest items
      stack shortest steps (← collapse cmp (runs.length + 1) (run :: runs)) rest

/-- The items in order; the first comparison that fails decides. -/
def sort (items : List α) : Except ε (List α) := do
  let count := items.length
  let runs ← stack cmp (shortestRun count count 0) count [] items
  mergeAll cmp runs.length runs

end OptimalAssignment.RunSort
