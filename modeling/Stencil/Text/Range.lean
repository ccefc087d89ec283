/-!
Character classes given by ranges of code points.
-/
namespace Stencil.Text

/-- Some range holds the number; the ends of a range belong to it. -/
def inRanges (ranges : Array (Nat × Nat)) (n : Nat) : Bool :=
  ranges.any fun (lo, hi) => lo ≤ n && n ≤ hi

end Stencil.Text
