import Mathlib.Algebra.Order.Group.Defs
import Mathlib.Algebra.Order.Sub.Basic
/-!
# Spans of time

`overlap lo hi a b` is how much of the time from `a` to `b` lies in the
window from `lo` to `hi`. It is what a report over a window counts of
something that went on from `a` to `b`: nothing where the two do not meet,
all of it where the window covers the span.
-/

namespace ChutesApi

variable {α : Type*} [AddCommGroup α] [LinearOrder α] {lo hi a b : α}

/-- **The part of a span that lies in a window.** -/
def overlap (lo hi a b : α) : α := max 0 (min hi b - max lo a)

/-- A span that a window covers, counted whole. -/
theorem overlap_of_covers (hlo : lo ≤ a) (hhi : b ≤ hi) : overlap lo hi a b = max 0 (b - a) := by
  rw [overlap, min_eq_right hhi, max_eq_right hlo]

variable [IsOrderedAddMonoid α]

/-- Where the two meet, the overlap is the time between the later start and
the earlier end. -/
theorem overlap_of_lt (h : max lo a < min hi b) : overlap lo hi a b = min hi b - max lo a :=
  max_eq_right (sub_nonneg.2 h.le)

theorem overlap_pos_iff : 0 < overlap lo hi a b ↔ max lo a < min hi b := by
  rw [overlap, lt_max_iff, or_iff_right (lt_irrefl _), sub_pos]

end ChutesApi
