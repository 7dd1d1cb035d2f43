/-!
# Cutting a list into pieces

A list is cut at the members of some class, and the pieces are what stands between them, empty
ones included: `n` cuts make `n + 1` pieces. `eq_false_of_mem_pieces` says that no piece holds a
place of a cut, and `pieces_of_forall` that a list without such a place is its own only piece.
`pieces_append` cuts a list at any such place, and `pieces_append_cons` at the first one. These
come from the like facts on `List.splitOnP`, which cuts in the same way (`pieces_eq_splitOnP`).
-/

namespace RandomSentences.Text

variable {α : Type}

/-- Puts a member in front of the first piece of a cut list. -/
def consPiece (a : α) : List (List α) → List (List α)
  | [] => [[a]]
  | piece :: pieces => (a :: piece) :: pieces

/-- The pieces of a list between the members where it is cut, empty ones included. -/
def pieces (isCut : α → Bool) : List α → List (List α)
  | [] => [[]]
  | a :: as => if isCut a then [] :: pieces isCut as else consPiece a (pieces isCut as)

theorem mem_consPiece {a : α} {pieces : List (List α)} {piece : List α}
    (h : piece ∈ consPiece a pieces) : (∃ tail, piece = a :: tail ∧ (tail = [] ∨ tail ∈ pieces)) ∨
      piece ∈ pieces := by
  cases pieces with
  | nil =>
    simp only [consPiece, List.mem_singleton] at h
    exact Or.inl ⟨[], h, Or.inl rfl⟩
  | cons first others =>
    simp only [consPiece, List.mem_cons] at h
    rcases h with rfl | h
    · exact Or.inl ⟨first, rfl, Or.inr (List.mem_cons_self ..)⟩
    · exact Or.inr (List.mem_cons_of_mem _ h)

/-- No piece holds a place of a cut. -/
theorem eq_false_of_mem_pieces {isCut : α → Bool} {as piece : List α}
    (h : piece ∈ pieces isCut as) : ∀ a ∈ piece, isCut a = false := by
  induction as generalizing piece with
  | nil =>
    simp only [pieces, List.mem_singleton] at h
    simp [h]
  | cons a as ih =>
    by_cases ha : isCut a = true
    · simp only [pieces, ha, if_true, List.mem_cons] at h
      rcases h with rfl | h
      · simp
      · exact ih h
    · simp only [pieces, ha] at h
      rcases mem_consPiece (by simpa using h) with ⟨tail, rfl, rfl | htail⟩ | h
      · simpa using ha
      · intro b hb
        rcases List.mem_cons.1 hb with rfl | hb
        · simpa using ha
        · exact ih htail b hb
      · exact ih h

theorem consPiece_eq_modifyHead (a : α) {pieces : List (List α)} (h : pieces ≠ []) :
    consPiece a pieces = pieces.modifyHead (a :: ·) := by
  cases pieces with
  | nil => exact absurd rfl h
  | cons piece pieces => rfl

/-- This is the way in which `List.splitOnP` cuts. -/
theorem pieces_eq_splitOnP (isCut : α → Bool) (as : List α) :
    pieces isCut as = as.splitOnP isCut := by
  induction as with
  | nil => rfl
  | cons a as ih =>
    rw [pieces, ih, List.splitOnP_cons_eq_if_modifyHead,
      consPiece_eq_modifyHead a (List.splitOnP_ne_nil isCut as)]

/-- A list without a place of a cut is its own only piece. -/
theorem pieces_of_forall {isCut : α → Bool} {as : List α} (h : ∀ a ∈ as, isCut a = false) :
    pieces isCut as = [as] := by
  rw [pieces_eq_splitOnP, List.splitOnP_eq_singleton h]

/-- The pieces are those on either side of a place of a cut. -/
theorem pieces_append {isCut : α → Bool} {a : α} (ha : isCut a = true) (as bs : List α) :
    pieces isCut (as ++ a :: bs) = pieces isCut as ++ pieces isCut bs := by
  simp only [pieces_eq_splitOnP, List.splitOnP_append_cons as bs ha]

/-- What stands before the first place of a cut is the first piece. -/
theorem pieces_append_cons {isCut : α → Bool} {as : List α} {a : α} (bs : List α)
    (h : ∀ b ∈ as, isCut b = false) (ha : isCut a = true) :
    pieces isCut (as ++ a :: bs) = as :: pieces isCut bs := by
  rw [pieces_append ha, pieces_of_forall h, List.singleton_append]

end RandomSentences.Text
