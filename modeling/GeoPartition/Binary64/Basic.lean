/-!
# Binary64 numbers

A number of the 64-bit binary interchange format is *not a number*, or a sign with a magnitude.

**Magnitude.** Nonnegative numbers are counted: zero is step 0, the smallest positive number is
step 1, and infinity is step `2047 · 2^52`. The count is the bit pattern of the number, so numbers
compare as their counts do, and a bit pattern is read off without decoding.

**Value.** Every finite magnitude is a whole number of *units* of `2^-1074`, so exact arithmetic on
finite numbers is arithmetic on natural numbers.
-/

namespace GeoPartition

/-- The number of steps from one power of two to the next. -/
def binade : Nat := 1 <<< 52

/-- The number of steps from zero to infinity. -/
def infiniteSteps : Nat := 2047 * binade

/-- A nonnegative number or infinity, as its number of steps above zero. -/
structure Magnitude where
  steps : Nat
  steps_le : steps ≤ infiniteSteps
deriving DecidableEq

namespace Magnitude

def zero : Magnitude := ⟨0, Nat.zero_le _⟩

def infinite : Magnitude := ⟨infiniteSteps, Nat.le_refl _⟩

/-- Counts past infinity stay there. -/
def ofSteps (n : Nat) : Magnitude := ⟨min n infiniteSteps, Nat.min_le_right _ _⟩

def isFinite (m : Magnitude) : Bool := m.steps < infiniteSteps

/-- The value of step `n` in units of `2^-1074`: steps and units agree up to two binades, and the
size of a step doubles with every further binade. -/
def unitsOfSteps (n : Nat) : Nat :=
  if n < binade then n else (binade + n % binade) <<< (n / binade - 1)

/-- The value of a finite magnitude in units of `2^-1074`. -/
def units (m : Magnitude) : Nat := unitsOfSteps m.steps

end Magnitude

/-- A number of the 64-bit binary format; all patterns that are not a number are one. -/
inductive Binary64
  | nan
  | signed (negative : Bool) (magnitude : Magnitude)
deriving DecidableEq

namespace Binary64

def zero : Binary64 := signed false .zero

def infinity : Binary64 := signed false .infinite

instance : Inhabited Binary64 := ⟨zero⟩

def isNegative : Binary64 → Bool
  | nan => false
  | signed negative _ => negative

def isFinite : Binary64 → Bool
  | nan => false
  | signed _ m => m.isFinite

def neg : Binary64 → Binary64
  | nan => nan
  | signed negative m => signed (!negative) m

def abs : Binary64 → Binary64
  | nan => nan
  | signed _ m => signed false m

/-- The value of a finite number in units of `2^-1074`. -/
def units? : Binary64 → Option Int
  | nan => none
  | signed negative m =>
    if m.isFinite then some (if negative then -(m.units : Int) else m.units) else none

/-- The place of a number among all numbers: its steps above or below zero. -/
def rank? : Binary64 → Option Int
  | nan => none
  | signed negative m => some (if negative then -(m.steps : Int) else m.steps)

/-- Is `x` below `y`? Never, if one of them is not a number; the two zeros are equal. -/
def lt (x y : Binary64) : Bool :=
  match x.rank?, y.rank? with
  | some i, some j => i < j
  | _, _ => false

/-- Are `x` and `y` the same number? What is not a number equals nothing; the two zeros are
equal. -/
def same (x y : Binary64) : Bool :=
  match x.rank?, y.rank? with
  | some i, some j => i == j
  | _, _ => false

/-- The smaller of two numbers, or the one that is a number. -/
def min (x y : Binary64) : Binary64 :=
  if x = nan then y else if y.lt x then y else x

/-- The bit pattern: sign, exponent and fraction. -/
def bits : Binary64 → Nat
  | nan => 0x7ff8000000000000
  | signed negative m => (if negative then 1 <<< 63 else 0) + m.steps

end Binary64

end GeoPartition
