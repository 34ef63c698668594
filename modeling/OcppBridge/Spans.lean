import Mathlib.Data.List.Range
import Mathlib.Data.List.Nodup

namespace OcppBridge.Spans

/-- The positions from `first` to `last`, both included. -/
def span (first last : Nat) : List Nat := List.range' first (last + 1 - first)

@[simp] theorem mem_span {first last p : Nat} : p ∈ span first last ↔ first ≤ p ∧ p ≤ last := by
  simp only [span, List.mem_range'_1]
  omega

@[simp] theorem length_span (first last : Nat) : (span first last).length = last + 1 - first := by
  simp [span]

theorem nodup_span (first last : Nat) : (span first last).Nodup := List.nodup_range'

@[simp] theorem span_self (p : Nat) : span p p = [p] := by
  simp [span]

theorem span_eq_nil {first last : Nat} (h : last < first) : span first last = [] := by
  simp [span, show last + 1 - first = 0 by omega]

theorem span_append {first middle last : Nat} (hfirst : first ≤ middle + 1) (hlast : middle ≤ last) :
    span first middle ++ span (middle + 1) last = span first last := by
  have hstart : middle + 1 = first + (middle + 1 - first) := by omega
  have hlen : last + 1 - first = (middle + 1 - first) + (last + 1 - (middle + 1)) := by omega
  rw [span, span, span, hlen, ← List.range'_append_1, ← hstart]

end OcppBridge.Spans
