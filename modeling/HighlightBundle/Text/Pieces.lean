/-!
# Cutting a text at a character

`pieces` cuts a text at every occurrence of a separator. There is always one piece more than there
are separators, so the empty text has one piece, and joining the pieces gives the text back.
-/

namespace HighlightBundle

/-- The parts of a text between the separators. -/
def pieces (separator : Char) : List Char → List (List Char)
  | [] => [[]]
  | c :: rest =>
    if c = separator then [] :: pieces separator rest
    else
      match pieces separator rest with
      | [] => [[c]]
      | piece :: more => (c :: piece) :: more

/-- There is one piece more than there are separators. -/
theorem length_pieces (separator : Char) (cs : List Char) :
    (pieces separator cs).length = cs.count separator + 1 := by
  induction cs with
  | nil => simp [pieces]
  | cons c rest ih =>
    by_cases h : c = separator
    · simp [pieces, h, ih]
    · cases hp : pieces separator rest with
      | nil => simp [hp] at ih
      | cons piece more =>
        rw [hp, List.length_cons] at ih
        simp only [pieces, h, hp, if_false, List.length_cons]
        rw [List.count_cons_of_ne h, ih]

end HighlightBundle
