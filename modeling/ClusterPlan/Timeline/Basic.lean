import ClusterPlan.Timeline.Slot

/-!
The free resources from an origin to a horizon, as slots that follow one another without gaps.
Occupying a window splits the slots at its borders, so free sets only ever shrink.
-/

namespace ClusterPlan

structure Timeline where
  origin : Int
  horizon : Int
  slots : List Slot
  deriving DecidableEq

namespace Timeline

def initial (origin horizon : Int) (resources : OrdinalSet) : Timeline where
  origin := origin
  horizon := horizon
  slots := if origin ≤ horizon then [⟨origin, horizon, resources⟩] else []

def indexAt? (tl : Timeline) (t : Int) : Option Nat :=
  if t < tl.origin ∨ tl.horizon < t then none else tl.slots.findIdx? fun s => s.contains t

/-- Slots of which one starts at `t`, if `t` is inside the slots at all. -/
def splitSlots (t : Int) (slots : List Slot) : List Slot :=
  slots.flatMap fun s =>
    match s.splitAt? t with
    | some (before, after) => [before, after]
    | none => [s]

/-- Takes the resources out of the part of the window that is on the timeline. -/
def occupy (tl : Timeline) (first last : Int) (resources : OrdinalSet) : Timeline :=
  let first := max first tl.origin
  let last := min last tl.horizon
  if last < first ∨ resources.isEmpty then tl
  else
    { tl with
      slots := (splitSlots (last + 1) (splitSlots first tl.slots)).map fun s =>
        if first ≤ s.first ∧ s.last ≤ last then s.occupy resources else s }

/-- The free sets of the slots that share a second with the window. -/
def freeSets (tl : Timeline) (first last : Int) : List OrdinalSet :=
  (tl.slots.filter fun s => s.first ≤ last && first ≤ s.last).map Slot.free

def interAll : List OrdinalSet → OrdinalSet
  | [] => ∅
  | s :: rest => rest.foldl (· ∩ ·) s

/-- What is free during all of the window; nothing if it leaves the timeline or is empty. -/
def freeOver (tl : Timeline) (first last : Int) : OrdinalSet :=
  if first < tl.origin ∨ tl.horizon < last ∨ last < first then ∅
  else interAll (tl.freeSets first last)

/-- The starts worth trying: `t` itself and every later border. -/
def startsFrom (tl : Timeline) (t : Int) : List Int :=
  (if (tl.indexAt? t).isSome then [t] else []) ++ (tl.slots.map Slot.first).filter (t < ·)

end Timeline
end ClusterPlan
