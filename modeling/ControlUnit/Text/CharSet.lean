/-!
# Sets of characters

A set of characters given by ranges of code points. The ranges stand in ascending
order, so a search ends at the first range that begins after the character; for the
letters, digits and signs that most texts are made of that is the very first range.

## Main results

* `contains_iff` — a set contains exactly the characters of its ranges.
* `contains_eq_false` — no set contains a character before its first range.
-/

namespace ControlUnit.Text

/-! ## Ranges in ascending order -/

/-- Whether every range ends before the next one begins. -/
def ascending : List (Nat × Nat) → Bool
  | [] => true
  | [range] => range.1 ≤ range.2
  | lower :: upper :: rest =>
    decide (lower.1 ≤ lower.2 ∧ lower.2 < upper.1) && ascending (upper :: rest)

/-- In ascending order a range ends before all later ones begin. -/
theorem lt_of_ascending {range : Nat × Nat} {rest : List (Nat × Nat)}
    (h : ascending (range :: rest) = true) :
    range.1 ≤ range.2 ∧ ∀ later ∈ rest, range.2 < later.1 := by
  induction rest generalizing range with
  | nil => simpa [ascending] using h
  | cons next rest ih =>
      simp only [ascending, Bool.and_eq_true, decide_eq_true_eq] at h
      obtain ⟨⟨hRange, hNext⟩, hRest⟩ := h
      obtain ⟨hOrder, hLater⟩ := ih hRest
      refine ⟨hRange, fun later hMem => ?_⟩
      rcases List.mem_cons.1 hMem with rfl | hMem
      · exact hNext
      · have := hLater later hMem
        omega

theorem ascending_tail {range : Nat × Nat} {rest : List (Nat × Nat)}
    (h : ascending (range :: rest) = true) : ascending rest = true := by
  cases rest with
  | nil => rfl
  | cons next rest => simp_all [ascending]

/-! ## Sets -/

/-- A set of characters. -/
structure CharSet where
  /-- The code points of its characters, both ends of each range included. -/
  ranges : List (Nat × Nat)
  ascending_ranges : ascending ranges = true := by decide +kernel

namespace CharSet

/-- Whether ranges in ascending order hold a code point. -/
def search (code : Nat) : List (Nat × Nat) → Bool
  | [] => false
  | range :: rest => if code < range.1 then false else decide (code ≤ range.2) || search code rest

def contains (set : CharSet) (c : Char) : Bool := search c.toNat set.ranges

/-- A search that ends early finds all the same. -/
theorem search_eq_true_iff {code : Nat} {ranges : List (Nat × Nat)}
    (h : ascending ranges = true) :
    search code ranges = true ↔ ∃ range ∈ ranges, range.1 ≤ code ∧ code ≤ range.2 := by
  induction ranges with
  | nil => simp [search]
  | cons range rest ih =>
      obtain ⟨hOrder, hLater⟩ := lt_of_ascending h
      by_cases hBefore : code < range.1
      · simp only [search, hBefore, if_true, Bool.false_eq_true, false_iff]
        rintro ⟨found, hMem, hFirst, -⟩
        rcases List.mem_cons.1 hMem with rfl | hMem
        · omega
        · have := hLater found hMem
          omega
      · simp only [search, hBefore, if_false, Bool.or_eq_true, decide_eq_true_eq,
          ih (ascending_tail h), List.mem_cons, exists_eq_or_imp, Nat.not_lt.1 hBefore, true_and]

/-- A set contains exactly the characters of its ranges. -/
theorem contains_iff {set : CharSet} {c : Char} :
    set.contains c = true ↔ ∃ range ∈ set.ranges, range.1 ≤ c.toNat ∧ c.toNat ≤ range.2 :=
  search_eq_true_iff set.ascending_ranges

/-- No set contains a character before its first range. -/
theorem contains_eq_false {set : CharSet} {range : Nat × Nat} {rest : List (Nat × Nat)} {c : Char}
    (hRanges : set.ranges = range :: rest) (h : c.toNat < range.1) : set.contains c = false := by
  simp [contains, hRanges, search, h]

end CharSet

end ControlUnit.Text
