/-! The order in which parts run: every part after those it depends on and, of several parts
that could run, the one with the lowest id first. Each part counts the dependencies that it
still waits for.
-/

namespace FederatedQuery

/-- The state of ordering the parts. -/
structure Schedule where
  /-- How many listed dependencies each part still waits for. -/
  waiting : List Nat
  /-- The parts that wait for nothing and have not run, in ascending order. -/
  ready : List Nat
  /-- The parts that have run, in the order in which they did. -/
  done : List Nat
deriving DecidableEq

namespace Schedule

/-- Puts an id into an ascending list, once. -/
def insertReady (id : Nat) : List Nat → List Nat
  | [] => [id]
  | head :: rest =>
      if id < head then id :: head :: rest
      else if id = head then head :: rest
      else head :: insertReady id rest

/-- The parts that list a part as a dependency, once for each time they list it. -/
def dependents (dependencies : List (List Nat)) (id : Nat) : List Nat :=
  dependencies.zipIdx.flatMap fun (listed, part) => List.replicate (listed.count id) part

/-- Before anything has run, the parts without dependencies are ready. -/
def start (dependencies : List (List Nat)) : Schedule :=
  {
    waiting := dependencies.map List.length
    ready := (List.range dependencies.length).filter fun id => dependencies[id]? == some []
    done := []
  }

/-- A part waits for one dependency less, and is ready if that was the last. -/
def release (schedule : Schedule) (id : Nat) : Schedule :=
  let left := schedule.waiting.getD id 0 - 1
  {
    schedule with
    waiting := schedule.waiting.set id left
    ready := if left = 0 then insertReady id schedule.ready else schedule.ready
  }

/-- Runs the ready part with the lowest id, if there is one. -/
def step (dependencies : List (List Nat)) (schedule : Schedule) : Option Schedule :=
  match schedule.ready with
  | [] => none
  | next :: ready =>
      some ((dependents dependencies next).foldl release
        { schedule with ready, done := schedule.done ++ [next] })

/-- Runs ready parts one after the other, at most `fuel` of them. -/
def run (dependencies : List (List Nat)) : Nat → Schedule → Schedule
  | 0, schedule => schedule
  | fuel + 1, schedule =>
      match step dependencies schedule with
      | none => schedule
      | some next => run dependencies fuel next

end Schedule

/-- The order in which parts run, given the dependencies of each. There is none when a
dependency is not a part or when parts wait for each other.
-/
def executionOrder? (dependencies : List (List Nat)) : Option (List Nat) :=
  let count := dependencies.length
  if dependencies.all fun listed => listed.all (· < count) then
    let order := (Schedule.run dependencies count (Schedule.start dependencies)).done
    if order.length = count then some order else none
  else none

end FederatedQuery
