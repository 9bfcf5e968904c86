/-!
# Ranges of code points

A set of code points is a list of ranges, both ends included, in ascending order and apart from
each other. A search stops at the first range that begins behind the code point it looks for;
`covers_iff` says that on an ascending list this finds what a search of the whole list finds. The
other way round, `rangesBetween` lists the ranges of a property.
-/

namespace ClassModel.Text

def covers : List (Nat × Nat) → Nat → Bool
  | [], _ => false
  | (lo, hi) :: rest, c => if c < lo then false else c ≤ hi || covers rest c

def Ascending : List (Nat × Nat) → Prop
  | [] => True
  | (lo, hi) :: rest => lo ≤ hi ∧ (∀ r ∈ rest, hi < r.1) ∧ Ascending rest

theorem covers_iff : ∀ {rs : List (Nat × Nat)}, Ascending rs → ∀ c : Nat,
    covers rs c = true ↔ ∃ r ∈ rs, r.1 ≤ c ∧ c ≤ r.2
  | [], _, c => by simp [covers]
  | (lo, hi) :: rest, h, c => by
    obtain ⟨hle, hsep, hrest⟩ := h
    have ih := covers_iff hrest c
    unfold covers
    by_cases hc : c < lo
    · have hnone : ¬ ∃ r ∈ rest, r.1 ≤ c ∧ c ≤ r.2 := by
        rintro ⟨r, hr, hr₁, _⟩
        have := hsep r hr
        omega
      simp only [hc, if_true, Bool.false_eq_true, List.mem_cons, exists_eq_or_imp, false_iff, not_or]
      exact ⟨by omega, hnone⟩
    · simp only [hc, if_false, Bool.or_eq_true, decide_eq_true_eq, List.mem_cons, exists_eq_or_imp, ih]
      constructor
      · rintro (h | h)
        · exact .inl ⟨by omega, h⟩
        · exact .inr h
      · rintro (⟨_, h⟩ | h)
        · exact .inl h
        · exact .inr h

/-- The longest ranges of numbers with property `p` among the `count` numbers from `n` on. `open?`
is where a range began that has not ended before `n`. -/
def rangesFrom (p : Nat → Bool) (open? : Option Nat) : Nat → Nat → List (Nat × Nat)
  | n, 0 =>
    match open? with
    | some lo => [(lo, n - 1)]
    | none => []
  | n, count + 1 =>
    match open?, p n with
    | none, true => rangesFrom p (some n) (n + 1) count
    | some lo, false => (lo, n - 1) :: rangesFrom p none (n + 1) count
    | o, _ => rangesFrom p o (n + 1) count

def rangesBetween (p : Nat → Bool) (first last : Nat) : List (Nat × Nat) :=
  rangesFrom p none first (last + 1 - first)

end ClassModel.Text
