/-!
# Pieces of a text

Splitting at a character, joining, and the search for one text inside another.
-/

namespace ProtocolCodegen.Text

/-- The pieces of a text between the occurrences of a separator; there is at least one piece. -/
def pieces (separator : Char) : List Char → List (List Char)
  | [] => [[]]
  | c :: rest =>
      if c = separator then
        [] :: pieces separator rest
      else
        match pieces separator rest with
        | [] => [[c]]
        | piece :: others => (c :: piece) :: others

/-- The pieces of a string between the occurrences of a separator. -/
def splitOn (separator : Char) (text : String) : List String :=
  (pieces separator text.toList).map String.ofList

/-- The lines of a string, which line feeds separate. -/
def lines (text : String) : List String :=
  splitOn '\n' text

/-- Whether a text occurs within another one. -/
def occursIn (needle : List Char) : List Char → Bool
  | [] => needle.isEmpty
  | c :: rest => needle.isPrefixOf (c :: rest) || occursIn needle rest

/-- Lines written one per line, each closed by a line feed. -/
def unlines (texts : List String) : String :=
  String.join (texts.map (· ++ "\n"))

@[simp]
theorem pieces_nil (separator : Char) : pieces separator [] = [[]] := rfl

theorem pieces_ne_nil (separator : Char) (text : List Char) : pieces separator text ≠ [] := by
  induction text with
  | nil => simp [pieces]
  | cons c rest ih =>
      rw [pieces]
      split
      · simp
      · split <;> simp

theorem not_mem_of_mem_pieces {separator : Char} {text piece : List Char}
    (member : piece ∈ pieces separator text) : separator ∉ piece := by
  induction text generalizing piece with
  | nil => simp_all [pieces]
  | cons c rest ih =>
      rw [pieces] at member
      split at member
      · rcases List.mem_cons.mp member with rfl | later
        · simp
        · exact ih later
      · rename_i different
        split at member
        · rename_i none
          exact absurd none (pieces_ne_nil separator rest)
        · rename_i first others shape
          rcases List.mem_cons.mp member with rfl | later
          · simp [Ne.symm different, ih (shape ▸ List.mem_cons_self)]
          · exact ih (shape ▸ List.mem_cons_of_mem _ later)

end ProtocolCodegen.Text
