/-!
# Ranges of code points

A property of characters is a list of ranges of code points that ascends and
leaves a gap between any two neighbours. Looking a code point up can therefore
stop at the first range that begins above it, and finds it exactly if some range
of the list holds it. The properties of this library are those of Unicode 17.
-/

namespace RegisterMachine.Text

/-- The code points from the first to the last, both included. -/
structure CodeRange where
  first : Nat
  last : Nat

namespace CodeRange

/-- Whether the ranges ascend, each with a gap before the next. -/
def ascending : List CodeRange → Bool
  | [] => true
  | [range] => Nat.ble range.first range.last
  | range :: next :: ranges =>
    Nat.ble range.first range.last && Nat.blt (range.last + 1) next.first
      && ascending (next :: ranges)

/-- Whether a code point lies in one of the ranges, which ascend. -/
def covers : List CodeRange → Nat → Bool
  | [], _ => false
  | range :: ranges, code =>
    if code < range.first then false
    else if code ≤ range.last then true
    else covers ranges code

/-- In a list that ascends, every later range begins above the first one. -/
theorem first_lt_of_ascending {range : CodeRange} {ranges : List CodeRange}
    (h : ascending (range :: ranges) = true) {later : CodeRange} (hmem : later ∈ ranges) :
    range.first < later.first := by
  induction ranges generalizing range with
  | nil => cases hmem
  | cons next ranges ih =>
      simp only [ascending, Bool.and_eq_true, Nat.ble_eq, Nat.blt_eq] at h
      obtain ⟨⟨hrange, hgap⟩, hrest⟩ := h
      rcases List.mem_cons.mp hmem with rfl | hmem
      · omega
      · have := ih hrest hmem
        omega

/-- What follows the first range of a list that ascends, ascends. -/
theorem ascending_tail {range : CodeRange} {ranges : List CodeRange}
    (h : ascending (range :: ranges) = true) : ascending ranges = true := by
  cases ranges with
  | nil => rfl
  | cons next ranges =>
      rw [ascending, Bool.and_eq_true] at h
      exact h.2

/-- The look-up finds a code point exactly if a range of the list holds it. -/
theorem covers_iff {ranges : List CodeRange} (h : ascending ranges = true) (code : Nat) :
    covers ranges code = true
      ↔ ∃ range ∈ ranges, range.first ≤ code ∧ code ≤ range.last := by
  induction ranges with
  | nil => simp [covers]
  | cons range ranges ih =>
      rw [covers]
      split
      · rename_i hlt
        constructor
        · intro hfalse
          cases hfalse
        · rintro ⟨held, hmem, hfirst, _⟩
          rcases List.mem_cons.mp hmem with rfl | hmem
          · omega
          · have := first_lt_of_ascending h hmem
            omega
      · split
        · rename_i hge hle
          exact ⟨fun _ => ⟨range, List.mem_cons_self, by omega, hle⟩, fun _ => rfl⟩
        · rename_i hge hgt
          rw [ih (ascending_tail h)]
          constructor
          · rintro ⟨held, hmem, hheld⟩
            exact ⟨held, List.mem_cons_of_mem _ hmem, hheld⟩
          · rintro ⟨held, hmem, hheld⟩
            rcases List.mem_cons.mp hmem with rfl | hmem
            · omega
            · exact ⟨held, hmem, hheld⟩

end CodeRange

end RegisterMachine.Text
