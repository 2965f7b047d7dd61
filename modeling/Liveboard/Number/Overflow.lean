/-
  Liveboard/Number/Overflow.lean
  ==============================
  **Machine arithmetic whose result does not fit.**

  What becomes of an overflow is decided when the program is built.  A checked build panics;
  an unchecked one, such as a release, goes on with the result modulo the range of the type.
-/

namespace Liveboard

/-- How the program was built. -/
inductive Build where
  | checked
  | unchecked
deriving DecidableEq, Repr

/-- What a computation comes to. -/
inductive Computed (α : Type) where
  | value (a : α)
  | panic
deriving DecidableEq, BEq, Repr

namespace Computed

variable {α β : Type}

def map (f : α → β) : Computed α → Computed β
  | value a => value (f a)
  | panic => panic

@[simp] theorem map_value (f : α → β) (a : α) : (value a).map f = value (f a) := rfl

@[simp] theorem map_panic (f : α → β) : (panic : Computed α).map f = panic := rfl

end Computed

/-- The absolute value of a count.  The least count has none among the counts. -/
def Build.abs (build : Build) (count : Int64) : Computed Int64 :=
  match build with
  | .checked => if count = Int64.minValue then .panic else .value count.abs
  | .unchecked => .value count.abs

end Liveboard
