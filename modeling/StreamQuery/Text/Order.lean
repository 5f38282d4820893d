/-! # Texts in order

Texts are ordered by the code points of their characters.
-/

set_option autoImplicit false

namespace StreamQuery.Text

/-- An ascending list with one more text in its place, unless the text is in the list. -/
def insertAscending (s : String) : List String → List String
  | [] => [s]
  | t :: rest =>
    if s < t then s :: t :: rest
    else if s = t then t :: rest
    else t :: insertAscending s rest

def ascending : List String → List String
  | [] => []
  | s :: rest => insertAscending s (ascending rest)

theorem mem_insertAscending {s t : String} {texts : List String} :
    t ∈ insertAscending s texts ↔ t = s ∨ t ∈ texts := by
  induction texts with
  | nil => simp [insertAscending]
  | cons u rest ih =>
    simp only [insertAscending]
    split
    · simp
    · split
      · rename_i equal
        subst equal
        simp
      · simp only [List.mem_cons, ih]
        constructor
        · rintro (first | second | third)
          · exact .inr (.inl first)
          · exact .inl second
          · exact .inr (.inr third)
        · rintro (first | second | third)
          · exact .inr (.inl first)
          · exact .inl second
          · exact .inr (.inr third)

@[simp] theorem mem_ascending {t : String} {texts : List String} :
    t ∈ ascending texts ↔ t ∈ texts := by
  induction texts with
  | nil => simp [ascending]
  | cons s rest ih => simp [ascending, mem_insertAscending, ih]

theorem pairwise_insertAscending {texts : List String} (sorted : texts.Pairwise (· < ·))
    (s : String) : (insertAscending s texts).Pairwise (· < ·) := by
  induction texts with
  | nil => exact List.pairwise_singleton _ s
  | cons t rest ih =>
    obtain ⟨first, sortedRest⟩ := List.pairwise_cons.mp sorted
    rw [insertAscending]
    split
    · rename_i before
      refine List.pairwise_cons.mpr ⟨?_, sorted⟩
      intro u isLater
      rcases List.mem_cons.mp isLater with rfl | isRest
      · exact before
      · exact String.lt_trans before (first u isRest)
    · rename_i notBefore
      split
      · exact sorted
      · rename_i different
        refine List.pairwise_cons.mpr ⟨?_, ih sortedRest⟩
        intro u isLater
        rcases mem_insertAscending.mp isLater with rfl | isRest
        · exact Std.lt_of_le_of_ne (String.not_lt.mp notBefore) (Ne.symm different)
        · exact first u isRest

theorem pairwise_ascending (texts : List String) : (ascending texts).Pairwise (· < ·) := by
  induction texts with
  | nil => exact .nil
  | cons s rest ih => exact pairwise_insertAscending ih s

theorem nodup_of_pairwise {texts : List String} (sorted : texts.Pairwise (· < ·)) :
    texts.Nodup := by
  refine sorted.imp ?_
  rintro s _ before rfl
  exact String.lt_irrefl s before

theorem eq_ascending {sorted texts : List String} (isSorted : sorted.Pairwise (· < ·))
    (same : ∀ t, t ∈ sorted ↔ t ∈ texts) : sorted = ascending texts := by
  have isAscending := pairwise_ascending texts
  have permuted : sorted.Perm (ascending texts) := by
    rw [List.perm_ext_iff_of_nodup (nodup_of_pairwise isSorted) (nodup_of_pairwise isAscending)]
    simpa using same
  refine permuted.eq_of_pairwise ?_ isSorted isAscending
  intro s t _ _ before behind
  exact absurd behind (String.lt_asymm before)

end StreamQuery.Text
