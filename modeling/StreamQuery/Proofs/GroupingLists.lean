import Mathlib.Algebra.Group.Nat.Defs
import StreamQuery.Double
import StreamQuery.Proofs.Clauses

/-! # Lists of grouping expressions

A list of grouping expressions is added as a whole or not at all. It is refused if an expression in it is
the same as one that is present or as an earlier one of the list, and the first such expression is blamed.
Adding two lists one behind the other is adding them as one list, wherever that list is cut.
-/

set_option autoImplicit false

namespace StreamQuery.Double

/-! ## The numbers that doubles stand for

A finite double stands for a whole multiple of the smallest positive one. Larger magnitudes stand for
larger multiples, so a number leaves nothing open but the sign of a zero: two doubles are the same
exactly if they stand for one number.
-/

/-- What a double stands for; finite numbers in multiples of the smallest positive double. -/
inductive Number where
  | finite (multiple : Int)
  | infinite (negative : Bool)
deriving DecidableEq

def number (d : Double) : Number :=
  if d.isInfinite then .infinite d.isNegative
  else .finite (if d.isNegative then -(units d.magnitude : Int) else (units d.magnitude : Int))

/-! ### Larger magnitudes are larger numbers -/

theorem units_eq (m : Nat) :
    units m = if m < binade then m else (binade + m % binade) * 2 ^ (m / binade - 1) := by
  unfold units parts
  split
  · rfl
  · exact Nat.shiftLeft_eq ..

theorem binade_pos : 0 < binade := by decide

theorem units_lt (m : Nat) : units m < binade * 2 ^ (m / binade) := by
  rw [units_eq]
  split
  · rename_i small
    rwa [Nat.div_eq_of_lt small, Nat.pow_zero, Nat.mul_one]
  · rename_i large
    have inBinade : m % binade < binade := Nat.mod_lt m binade_pos
    have isLater : 0 < m / binade := Nat.div_pos (Nat.not_lt.mp large) binade_pos
    calc (binade + m % binade) * 2 ^ (m / binade - 1)
        < (2 * binade) * 2 ^ (m / binade - 1) :=
          Nat.mul_lt_mul_of_pos_right (by omega) (Nat.two_pow_pos _)
      _ = binade * 2 ^ (m / binade) := by
          rw [Nat.mul_comm 2, Nat.mul_assoc, ← Nat.pow_add_one', Nat.sub_add_cancel isLater]

theorem le_units {m : Nat} (large : binade ≤ m) : binade * 2 ^ (m / binade - 1) ≤ units m := by
  rw [units_eq, if_neg (Nat.not_lt.mpr large)]
  exact Nat.mul_le_mul_right _ (Nat.le_add_right ..)

theorem units_lt_of_binade_lt {m n : Nat} (later : m / binade < n / binade) : units m < units n := by
  have large : binade ≤ n := by
    apply Nat.le_of_not_lt
    intro small
    rw [Nat.div_eq_of_lt small] at later
    exact Nat.not_lt_zero _ later
  calc units m < binade * 2 ^ (m / binade) := units_lt m
    _ ≤ binade * 2 ^ (n / binade - 1) :=
        Nat.mul_le_mul_left _ (Nat.pow_le_pow_right Nat.two_pos (Nat.le_sub_one_of_lt later))
    _ ≤ units n := le_units large

theorem units_lt_of_binade_eq {m n : Nat} (same : m / binade = n / binade) (less : m < n) :
    units m < units n := by
  have cutFirst := Nat.div_add_mod m binade
  have cutSecond := Nat.div_add_mod n binade
  rw [units_eq, units_eq]
  by_cases small : n < binade
  · rw [if_pos small, if_pos (Nat.lt_trans less small)]
    exact less
  · have large : ¬m < binade := by
      intro smaller
      rw [Nat.div_eq_of_lt smaller] at same
      exact small (Nat.lt_of_div_eq_zero binade_pos same.symm)
    have inBinade : m % binade < n % binade := by
      rw [same] at cutFirst
      omega
    rw [if_neg small, if_neg large, same]
    exact Nat.mul_lt_mul_of_pos_right (Nat.add_lt_add_left inBinade _) (Nat.two_pow_pos _)

theorem units_lt_units {m n : Nat} (less : m < n) : units m < units n := by
  have ordered : m / binade ≤ n / binade := Nat.div_le_div_right (Nat.le_of_lt less)
  rcases Nat.lt_or_eq_of_le ordered with later | same
  · exact units_lt_of_binade_lt later
  · exact units_lt_of_binade_eq same less

theorem units_inj {m n : Nat} : units m = units n ↔ m = n := by
  constructor
  · intro equal
    rcases Nat.lt_trichotomy m n with less | same | more
    · exact absurd equal (Nat.ne_of_lt (units_lt_units less))
    · exact same
    · exact absurd equal (Nat.ne_of_gt (units_lt_units more))
  · rintro rfl
    rfl

/-! ### Doubles that are the same -/

theorem bits_eq_iff {d e : Double} :
    d.bits = e.bits ↔ d.isNegative = e.isNegative ∧ d.magnitude = e.magnitude := by
  have boundFirst := d.bits.toNat_lt
  have boundSecond := e.bits.toNat_lt
  rw [← UInt64.toNat_inj, isNegative, isNegative, decide_eq_decide, magnitude, magnitude]
  omega

theorem signed_eq_iff {negative negative' : Bool} {m n : Nat} :
    (if negative then -(m : Int) else m) = (if negative' then -(n : Int) else n) ↔
      (negative = negative' ∧ m = n) ∨ (m = 0 ∧ n = 0) := by
  cases negative <;> cases negative' <;> simp <;> omega

theorem same_iff_number_eq {d e : Double} : d.same e = true ↔ d.number = e.number := by
  have isZero_iff : ∀ m : Nat, units m = 0 ↔ m = 0 := fun m => units_inj (n := 0)
  have infinity_ne_zero : infinity ≠ 0 := by decide
  rw [same_iff, bits_eq_iff]
  simp only [number, isInfinite, beq_iff_eq]
  by_cases first : d.magnitude = infinity
  · by_cases second : e.magnitude = infinity
    · simp [first, second, infinity_ne_zero]
    · simp [first, second, Ne.symm second, infinity_ne_zero]
  · by_cases second : e.magnitude = infinity
    · simp [first, second, infinity_ne_zero]
    · simp only [first, second, if_false, Number.finite.injEq, signed_eq_iff, units_inj, isZero_iff]

example : (⟨0x8000000000000000, by decide⟩ : Double).number = (⟨0, by decide⟩ : Double).number := by
  decide

end StreamQuery.Double

/-! ## Adding a list -/

namespace StreamQuery.Analysis

/-- No expression of a list is the same as one that is present or as an earlier one of the list. -/
structure AllNew (present exprs : List Expr) : Prop where
  absent : ∀ expr ∈ exprs, ∀ earlier ∈ present, earlier.same expr = false
  distinct : exprs.Pairwise fun earlier later => earlier.same later = false

/-- The first expression of a list that is the same as one that is present or as an earlier one. -/
def FirstRepeated (present exprs : List Expr) (expr : Expr) : Prop :=
  ∃ before after, exprs = before ++ expr :: after ∧ AllNew present before ∧
    ∃ earlier ∈ present ++ before, earlier.same expr = true

variable {a next : Analysis} {present exprs : List Expr} {error : AnalysisError}

theorem appendDistinct_eq_ok_iff_allNew {grouping : List Expr} :
    appendDistinct present exprs = .ok grouping ↔
      AllNew present exprs ∧ grouping = present ++ exprs := by
  simp only [Analyzer.appendDistinct_eq_ok_iff, Expr.isIn_eq_false_iff]
  constructor
  · rintro ⟨⟨absent, distinct⟩, rfl⟩
    exact ⟨⟨absent, distinct⟩, rfl⟩
  · rintro ⟨allNew, rfl⟩
    exact ⟨⟨allNew.absent, allNew.distinct⟩, rfl⟩

theorem appendDistinct_eq_error_iff_firstRepeated :
    appendDistinct present exprs = .error error ↔
      ∃ expr, FirstRepeated present exprs expr ∧ error = .duplicateElement .grouping expr := by
  simp only [Analyzer.appendDistinct_eq_error_iff, appendDistinct_eq_ok_iff_allNew, and_true,
    Expr.isIn_eq_true_iff]
  constructor
  · rintro ⟨before, expr, after, cut, allNew, repeated, blamed⟩
    exact ⟨expr, ⟨before, after, cut, allNew, repeated⟩, blamed⟩
  · rintro ⟨expr, ⟨before, after, cut, allNew, repeated⟩, blamed⟩
    exact ⟨before, expr, after, cut, allNew, repeated, blamed⟩

theorem appendDistinct_append (present first second : List Expr) :
    appendDistinct present (first ++ second) =
      appendDistinct present first >>= fun grouping => appendDistinct grouping second := by
  induction first generalizing present with
  | nil => rfl
  | cons expr rest ih =>
    rw [List.cons_append, appendDistinct, appendDistinct]
    split
    · rfl
    · exact ih (present ++ [expr])

theorem addGrouping_eq_ok_iff :
    a.addGrouping exprs = .ok next ↔
      AllNew a.grouping exprs ∧ next = { a with grouping := a.grouping ++ exprs } := by
  simp only [addGrouping, map_eq_ok_iff, appendDistinct_eq_ok_iff_allNew]
  constructor
  · rintro ⟨grouping, ⟨allNew, rfl⟩, rfl⟩
    exact ⟨allNew, rfl⟩
  · rintro ⟨allNew, rfl⟩
    exact ⟨_, ⟨allNew, rfl⟩, rfl⟩

theorem addGrouping_eq_error_iff :
    a.addGrouping exprs = .error error ↔
      ∃ expr, FirstRepeated a.grouping exprs expr ∧ error = .duplicateElement .grouping expr := by
  rw [addGrouping, map_eq_error_iff, appendDistinct_eq_error_iff_firstRepeated]

theorem addGrouping_append (a : Analysis) (first second : List Expr) :
    a.addGrouping (first ++ second) =
      a.addGrouping first >>= fun next => next.addGrouping second := by
  rw [addGrouping, addGrouping, appendDistinct_append]
  cases appendDistinct a.grouping first with
  | error refused => rfl
  | ok grouping => rfl

/-- Exactly the lists of new expressions can be added, and they can be added in one step or in several
with the same outcome. Expressions that are the same are equal but for the signs of zeros: doubles are
compared as numbers, and they are never the same as whole numbers. -/
theorem addGrouping_accepts_new (a : Analysis) :
    (∀ exprs next, a.addGrouping exprs = .ok next ↔
      AllNew a.grouping exprs ∧ next = { a with grouping := a.grouping ++ exprs }) ∧
    (∀ exprs error, a.addGrouping exprs = .error error ↔
      ∃ expr, FirstRepeated a.grouping exprs expr ∧ error = .duplicateElement .grouping expr) ∧
    (∀ first second, a.addGrouping (first ++ second) =
      a.addGrouping first >>= fun next => next.addGrouping second) ∧
    (Equivalence fun e f : Expr => e.same f = true) ∧
    (∀ e f : Expr, e.same f = true ↔ e.unsignZeros = f.unsignZeros) ∧
    (∀ d e : Double, (Expr.literal (.double d)).same (.literal (.double e)) = true ↔
      d.number = e.number) ∧
    ∀ (i : Int64) (d : Double), (Expr.literal (.int i)).same (.literal (.double d)) = false := by
  refine ⟨?_, ?_, addGrouping_append a, Expr.same_equivalence, Expr.same_iff_unsignZeros_eq, ?_, ?_⟩
  · intro exprs next
    exact addGrouping_eq_ok_iff
  · intro exprs error
    exact addGrouping_eq_error_iff
  · intro d e
    rw [Expr.same, Literal.same, Double.same_iff_number_eq]
  · intro i d
    simp only [Expr.same, Literal.same]

end StreamQuery.Analysis
