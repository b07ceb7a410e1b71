/-!
# Control sequences

A control sequence tells a terminal to move, to colour or to erase.  It is an escape character and
an opening bracket, any number of parameters, any number of intermediate characters, and one final
character; the three kinds of characters are disjoint, so a text begins with at most one of them.
-/

namespace ProtocolCodegen.Text

/-- The character that opens a control sequence. -/
def escape : Char := '\x1b'

/-- Whether a character can be a parameter of a control sequence. -/
def isParameter (c : Char) : Bool :=
  '0' ≤ c && c ≤ '?'

/-- Whether a character can stand between the parameters of a control sequence and its end. -/
def isIntermediate (c : Char) : Bool :=
  ' ' ≤ c && c ≤ '/'

/-- Whether a character can end a control sequence. -/
def isFinal (c : Char) : Bool :=
  '@' ≤ c && c ≤ '~'

/-- What follows the control sequence whose opening has been read, if it has an end. -/
def afterParameters? (input : List Char) : Option (List Char) :=
  match (input.dropWhile isParameter).dropWhile isIntermediate with
  | [] => none
  | c :: rest => if isFinal c then some rest else none

/-- What follows the control sequence with which a text begins, if it begins with one. -/
def afterControl? : List Char → Option (List Char)
  | c :: '[' :: rest => if c = escape then afterParameters? rest else none
  | _ => none

theorem length_lt_of_afterParameters? {input rest : List Char}
    (follows : afterParameters? input = some rest) : rest.length < input.length := by
  have shorter : ((input.dropWhile isParameter).dropWhile isIntermediate).length ≤ input.length :=
    ((List.dropWhile_sublist isIntermediate).trans (List.dropWhile_sublist isParameter)).length_le
  rw [afterParameters?] at follows
  split at follows
  · cases follows
  · rename_i shape
    rw [shape, List.length_cons] at shorter
    split at follows
    · cases follows
      exact shorter
    · cases follows

theorem length_lt_of_afterControl? {input rest : List Char}
    (follows : afterControl? input = some rest) : rest.length < input.length := by
  rw [afterControl?.eq_def] at follows
  split at follows
  · split at follows
    · have shorter := length_lt_of_afterParameters? follows
      simp only [List.length_cons]
      omega
    · cases follows
  · cases follows

/-- Characters without their control sequences, after those that were kept, which are given in
reverse. -/
def dropControls (kept input : List Char) : List Char :=
  match input with
  | [] => kept.reverse
  | c :: rest =>
      match _ : afterControl? (c :: rest) with
      | some rest => dropControls kept rest
      | none => dropControls (c :: kept) rest
termination_by input.length
decreasing_by
  · exact length_lt_of_afterControl? (by assumption)
  · exact Nat.lt_succ_self _

/-- A text without its control sequences.  What the removal of one brings together is not read
again. -/
def withoutControls (text : String) : String :=
  String.ofList (dropControls [] text.toList)

end ProtocolCodegen.Text
