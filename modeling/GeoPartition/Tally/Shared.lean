import GeoPartition.Tally.Basic

/-!
# Shared tallies

Several handles may stand for one tally: what is recorded through one of them is seen through all.
A handle is made new, with a tally of its own, or as a clone of another; it ends when it is dropped
or turned into the tally behind it.

The tallies are kept in the order in which they were made, and a name stands for the place of its
tally there. A handle that is turned into its tally copies it while others stand for it too; the last
one takes it out and leaves its place empty. A tally whose last handle is dropped stays; nothing can
see it then.
-/

namespace GeoPartition

/-- The tallies behind the handles, and the tally of each handle. -/
structure SharedTallies where
  tallies : List Tally
  handles : List (String × Nat)

namespace SharedTallies

/-- What can be done with a handle. -/
inductive Step
  | new (handle : String)
  | clone (handle copy : String)
  | record (handle bucket : String)
  | recordSkipped (handle : String)
  | snapshot (handle : String)
  | drop (handle : String)
  | intoInner (handle : String)
deriving DecidableEq

def empty : SharedTallies := ⟨[], []⟩

/-- The place of the tally behind a handle. -/
def place? (s : SharedTallies) (handle : String) : Option Nat := s.handles.lookup handle

/-- The tally seen through a handle; an unknown handle sees an empty one. -/
def contents (s : SharedTallies) (handle : String) : Tally :=
  ((s.place? handle).bind (s.tallies[·]?)).getD .empty

/-- Lets a name stand for the tally at a place. -/
def bind (s : SharedTallies) (handle : String) (place : Nat) : SharedTallies :=
  { s with handles := (handle, place) :: s.handles.filter (·.1 ≠ handle) }

/-- Forgets a name. -/
def forget (s : SharedTallies) (handle : String) : SharedTallies :=
  { s with handles := s.handles.filter (·.1 ≠ handle) }

/-- Changes the tally behind a handle. -/
def update (s : SharedTallies) (handle : String) (f : Tally → Tally) : SharedTallies :=
  match s.place? handle with
  | some place => { s with tallies := s.tallies.modify place f }
  | none => s

/-- Makes a handle with a tally of its own. -/
def new (s : SharedTallies) (handle : String) : SharedTallies :=
  { s with tallies := s.tallies ++ [Tally.empty] }.bind handle s.tallies.length

/-- Makes a second handle for the tally of the first. -/
def clone (s : SharedTallies) (handle copy : String) : SharedTallies :=
  match s.place? handle with
  | some place => s.bind copy place
  | none => s

/-- Does any handle stand for the tally at a place? -/
def isHeld (s : SharedTallies) (place : Nat) : Bool := s.handles.any (·.2 = place)

/-- Takes out the tally at a place. -/
def takeOut (s : SharedTallies) (place : Nat) : SharedTallies :=
  { s with tallies := s.tallies.set place .empty }

/-- Ends a handle for the tally behind it, which is copied if other handles stand for it and taken
out if none does. -/
def intoInner (s : SharedTallies) (handle : String) : SharedTallies × Tally :=
  let rest := s.forget handle
  match s.place? handle with
  | some place => (if rest.isHeld place then rest else rest.takeOut place, s.contents handle)
  | none => (rest, s.contents handle)

/-- One step; what is handed out is the tally at that moment. -/
def step (s : SharedTallies) : Step → SharedTallies × Option Tally
  | .new handle => (s.new handle, none)
  | .clone handle copy => (s.clone handle copy, none)
  | .record handle bucket => (s.update handle (·.record bucket), none)
  | .recordSkipped handle => (s.update handle (·.recordSkipped), none)
  | .snapshot handle => (s, some (s.contents handle))
  | .drop handle => (s.forget handle, none)
  | .intoInner handle => ((s.intoInner handle).1, some (s.intoInner handle).2)

/-- The state after some steps. -/
def run (s : SharedTallies) (steps : List Step) : SharedTallies :=
  steps.foldl (fun s x => (s.step x).1) s

end SharedTallies

end GeoPartition
