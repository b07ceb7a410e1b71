import Mathlib
import ProtocolCodegen.Proofs.Target.Documentation
import ProtocolCodegen.Proofs.Text.Occurrences
import ProtocolCodegen.Proofs.Text.Pieces
import ProtocolCodegen.Target.Kotlin.Text

/-!
# Kotlin: comments of declarations

A block comment of Kotlin ends where as many comments have been closed as were opened, since
comments are nested.  A documentation is freed of the marks that close a comment but not of those
that open one, so its comment is closed unless such a mark is left.
-/

namespace ProtocolCodegen.Kotlin

/-- What comes behind a comment, seen from inside of a number of comments that are open. -/
def behindComment? : (depth : Nat) → List Char → Option (List Char)
  | 0, rest => some rest
  | depth + 1, '/' :: '*' :: rest => behindComment? (depth + 2) rest
  | depth + 1, '*' :: '/' :: rest => behindComment? depth rest
  | depth + 1, _ :: rest => behindComment? (depth + 1) rest
  | _ + 1, [] => none

/-- Whether a text is a block comment behind spaces: the first mark opens it, and only the last one
closes it. -/
def isBlockComment (text : String) : Bool :=
  match text.toList.dropWhile (· == ' ') with
  | '/' :: '*' :: inside => behindComment? 1 inside == some []
  | _ => false

example : isBlockComment "  /* a /* b */ */" = true := by decide
example : isBlockComment "/* a /* b */" = false ∧ isBlockComment "/* a */ b */" = false := by decide

theorem pair_prefix_cons_iff {first second c : Char} {rest : List Char} :
    [first, second] <+: c :: rest ↔ c = first ∧ rest.head? = some second := by
  rw [List.cons_prefix_cons, eq_comm]
  cases rest with
  | nil => simp
  | cons next rest => simp [List.cons_prefix_cons, eq_comm]

theorem not_pair_prefix_cons {first second c : Char} {rest : List Char}
    (apart : ∀ others, c = first → rest = second :: others → False) :
    ¬[first, second] <+: c :: rest := by
  rw [pair_prefix_cons_iff]
  rintro ⟨same, head⟩
  obtain ⟨others, split⟩ := List.head?_eq_some_iff.mp head
  exact apart others same split

theorem behindComment?_cons {c : Char} {rest : List Char} (depth : Nat)
    (opens : ¬['/', '*'] <+: c :: rest) (closes : ¬['*', '/'] <+: c :: rest) :
    behindComment? (depth + 1) (c :: rest) = behindComment? (depth + 1) rest := by
  rw [behindComment?]
  · rintro rest rfl rfl
    exact opens (List.prefix_append ['/', '*'] rest)
  · rintro rest rfl rfl
    exact closes (List.prefix_append ['*', '/'] rest)

/-- Where no comment is closed, each mark that opens one makes nesting deeper. -/
theorem exists_depth_of_open {depth : Nat} {text : List Char} (positive : depth ≠ 0)
    (closes : ¬['*', '/'] <:+: text) :
    ∃ deeper, (deeper = 0 ↔ ¬['/', '*'] <:+: text) ∧
      ∀ rest,
        behindComment? depth (text ++ ' ' :: rest) = behindComment? (depth + deeper) rest := by
  fun_induction behindComment? depth text with
  | case1 => exact absurd rfl positive
  | case2 depth text induction =>
      have inside : ¬['*', '/'] <:+: text := fun occurs =>
        closes (occurs.trans ⟨['/', '*'], [], by simp⟩)
      obtain ⟨deeper, _, scanned⟩ := induction (Nat.succ_ne_zero _) inside
      refine ⟨deeper + 1, ?_, fun rest => ?_⟩
      · simp [List.infix_cons_iff]
      · rw [List.cons_append, List.cons_append, behindComment?, scanned]
        congr 1
        omega
  | case3 => exact absurd (List.prefix_append ['*', '/'] _).isInfix closes
  | case4 depth c text opensNot closesNot induction =>
      have inside : ¬['*', '/'] <:+: text := fun occurs => closes (List.infix_cons occurs)
      have opens : ¬['/', '*'] <+: c :: text := not_pair_prefix_cons opensNot
      have closes : ¬['*', '/'] <+: c :: text := fun begins => closes begins.isInfix
      obtain ⟨deeper, none_iff, scanned⟩ := induction (Nat.succ_ne_zero _) inside
      refine ⟨deeper, ?_, fun rest => ?_⟩
      · rw [none_iff, List.infix_cons_iff]
        simp [opens]
      · rw [List.cons_append, behindComment?_cons, scanned]
        all_goals
          rw [pair_prefix_cons_iff] at *
          cases text <;> simp_all
  | case5 depth =>
      refine ⟨0, by simp, fun rest => ?_⟩
      exact behindComment?_cons depth (by simp) (by simp)

/-- What closes the first comment comes at the end exactly if no other one is opened. -/
theorem behindComment?_append {text : List Char} (closes : ¬['*', '/'] <:+: text) :
    behindComment? 1 (text ++ [' ', '*', '/']) = some [] ↔ ¬['/', '*'] <:+: text := by
  obtain ⟨deeper, none_iff, scanned⟩ := exists_depth_of_open Nat.one_ne_zero closes
  rw [scanned, ← none_iff, Nat.add_comm, behindComment?]
  cases deeper <;> simp [behindComment?]

/-! ## Marks in a documentation -/

/-- A text has a mark that opens a comment and does not begin with the end of one that closes
it. -/
def Opens (text : List Char) : Prop :=
  ∃ before after, text = before ++ '/' :: '*' :: after ∧ before.getLast? ≠ some '*'

theorem head?_escapeCommentEnd (text : List Char) : (escapeCommentEnd text).head? = text.head? := by
  fun_cases escapeCommentEnd text <;> rfl

theorem opens_cons_cons_iff {rest : List Char} : Opens ('*' :: '/' :: rest) ↔ Opens rest := by
  constructor
  · rintro ⟨before, after, equal, apart⟩
    rcases before with _ | ⟨first, _ | ⟨second, before⟩⟩
    · cases equal
    · obtain ⟨rfl, _⟩ := List.cons.inj equal
      exact absurd rfl apart
    · simp only [List.cons_append, List.cons.injEq] at equal
      obtain ⟨rfl, rfl, rfl⟩ := equal
      refine ⟨before, after, rfl, fun last => apart ?_⟩
      simp [List.getLast?_cons, last]
  · rintro ⟨before, after, rfl, apart⟩
    refine ⟨'*' :: '/' :: before, after, rfl, fun last => apart ?_⟩
    cases shape : before.getLast? with
    | none => simp_all [List.getLast?_cons]
    | some _ => simp_all [List.getLast?_cons]

theorem opens_cons_iff {c : Char} {rest : List Char} (closes : ¬['*', '/'] <+: c :: rest) :
    Opens (c :: rest) ↔ ['/', '*'] <+: c :: rest ∨ Opens rest := by
  constructor
  · rintro ⟨before, after, equal, apart⟩
    cases before with
    | nil => exact .inl (equal ▸ List.prefix_append ['/', '*'] after)
    | cons first before =>
        obtain ⟨rfl, rfl⟩ := List.cons.inj equal
        refine .inr ⟨before, after, rfl, fun last => apart ?_⟩
        simp [List.getLast?_cons, last]
  · rintro (⟨after, equal⟩ | ⟨before, after, rfl, apart⟩)
    · exact ⟨[], after, equal.symm, by simp⟩
    · refine ⟨c :: before, after, rfl, fun last => ?_⟩
      cases before with
      | nil =>
          obtain rfl := Option.some.inj last
          exact closes (List.prefix_append ['*', '/'] _)
      | cons first before => exact apart (by simpa [List.getLast?_cons] using last)

/-- The escape takes away the slashes that end a closing mark, and with them the opening marks that
begin there. -/
theorem infix_escapeCommentEnd_iff (text : List Char) :
    ['/', '*'] <:+: escapeCommentEnd text ↔ Opens text := by
  fun_induction escapeCommentEnd text with
  | case1 rest induction =>
      rw [opens_cons_cons_iff, ← induction]
      simp [List.infix_cons_iff]
  | case2 c rest closesNot induction =>
      have closes : ¬['*', '/'] <+: c :: rest := not_pair_prefix_cons closesNot
      rw [opens_cons_iff closes, List.infix_cons_iff, induction, pair_prefix_cons_iff,
        pair_prefix_cons_iff, head?_escapeCommentEnd]
  | case3 => simp [Opens]

theorem not_infix_escapeCommentEnd (text : List Char) :
    ¬['*', '/'] <:+: escapeCommentEnd text := by
  fun_induction escapeCommentEnd text with
  | case1 rest induction => simpa [List.infix_cons_iff] using induction
  | case2 c rest closesNot induction =>
      rw [List.infix_cons_iff, pair_prefix_cons_iff, head?_escapeCommentEnd]
      rintro (⟨rfl, head⟩ | inside)
      · obtain ⟨rest, rfl⟩ := List.head?_eq_some_iff.mp head
        exact closesNot rest rfl rfl
      · exact induction inside
  | case3 => simp

instance (text : List Char) : Decidable (Opens text) :=
  decidable_of_iff _ (infix_escapeCommentEnd_iff text)

theorem escapeCommentEnd_closing (rest : List Char) :
    escapeCommentEnd ('*' :: '/' :: rest) = "*&#47;".toList ++ escapeCommentEnd rest := by
  -- Rewriting by the definition would spell the replacement out, which is slow.
  conv_lhs => unfold escapeCommentEnd
  rfl

theorem escapeCommentEnd_cons {c : Char} {rest : List Char}
    (apart : ∀ others, c = '*' → rest = '/' :: others → False) :
    escapeCommentEnd (c :: rest) = c :: escapeCommentEnd rest := by
  conv_lhs => unfold escapeCommentEnd
  split
  · rename_i equal
    cases equal
    exact (apart _ rfl rfl).elim
  · rename_i equal
    cases equal
    rfl
  · rename_i equal
    cases equal

theorem escapeCommentEnd_append_cons {separator : Char} (star : separator ≠ '*')
    (slash : separator ≠ '/') (first second : List Char) :
    escapeCommentEnd (first ++ separator :: second) =
      escapeCommentEnd first ++ separator :: escapeCommentEnd second := by
  fun_induction escapeCommentEnd first with
  | case1 rest induction =>
      have escaped := escapeCommentEnd_closing (rest ++ separator :: second)
      rw [induction] at escaped
      exact escaped.trans (List.append_assoc _ _ _).symm
  | case2 c rest closesNot induction =>
      rw [List.cons_append, escapeCommentEnd_cons, induction, List.cons_append]
      rintro others rfl equal
      cases rest with
      | nil => exact slash (List.cons.inj equal).1
      | cons next rest => exact closesNot rest rfl (by rw [(List.cons.inj equal).1])
  | case3 => exact escapeCommentEnd_cons fun _ same _ => star same

theorem opens_append_cons_iff {separator : Char} (star : separator ≠ '*') (slash : separator ≠ '/')
    {first second : List Char} :
    Opens (first ++ separator :: second) ↔ Opens first ∨ Opens second := by
  simp only [← infix_escapeCommentEnd_iff]
  rw [escapeCommentEnd_append_cons star slash, Text.infix_append_cons_iff]
  simp [star, slash]

theorem opens_append_flatMap_iff {separator : Char} (star : separator ≠ '*')
    (slash : separator ≠ '/') (first : List Char) (others : List (List Char)) :
    Opens (first ++ others.flatMap (separator :: ·)) ↔
      Opens first ∨ ∃ other ∈ others, Opens other := by
  induction others generalizing first with
  | nil => simp
  | cons other rest induction =>
      rw [List.flatMap_cons, List.cons_append, opens_append_cons_iff star slash, induction,
        List.exists_mem_cons_iff]

/-- A text opens no comment exactly if none of its lines does. -/
theorem forall_lines_not_opens_iff (text : String) :
    (∀ line ∈ Text.lines text, ¬Opens line.toList) ↔ ¬Opens text.toList := by
  have joined : ['\n'].intercalate (text.toList.splitOn '\n') = text.toList :=
    List.intercalate_splitOn '\n'
  rw [Text.lines, Text.splitOn, Text.pieces_eq_splitOn, List.forall_mem_map]
  simp only [String.toList_ofList]
  cases shape : text.toList.splitOn '\n' with
  | nil => exact absurd shape (List.splitOn_ne_nil _ _)
  | cons first others =>
      rw [shape, Text.intercalate_cons] at joined
      rw [← joined, opens_append_flatMap_iff (by decide) (by decide), List.forall_mem_cons]
      simp [not_or]

/-! ## Comments -/

/-- A line within a comment. -/
def commentLine (indent line : String) : String :=
  Text.trimEnd (indent ++ " * " ++ line)

/-- The spaces of an indentation. -/
def spaces (count : Nat) : String :=
  String.ofList (List.replicate count ' ')

/-- The text between the marks of a comment, without the space at its end. -/
def commentBody (lines : List String) (count : Nat) : List Char :=
  ['*'] ++ (lines.map fun line => (commentLine (spaces count) line).toList).flatMap ('\n' :: ·) ++
    '\n' :: List.replicate count ' '

theorem toList_docComment {lines : List String} (nonempty : lines ≠ []) (count : Nat) :
    (String.intercalate "\n" (docComment lines (spaces count))).toList =
      List.replicate count ' ' ++ '/' :: '*' :: (commentBody lines count ++ [' ', '*', '/']) := by
  have shape : docComment lines (spaces count) =
      (spaces count ++ "/**") ::
        (lines.map (commentLine (spaces count)) ++ [spaces count ++ " */"]) := by
    rw [docComment, if_neg (by simpa using nonempty)]
    rfl
  have joined := Text.intercalate_cons '\n' (spaces count ++ "/**").toList
    ((lines.map (commentLine (spaces count)) ++ [spaces count ++ " */"]).map String.toList)
  have newline : "\n".toList = ['\n'] := rfl
  rw [String.toList_intercalate, shape, List.map_cons, newline, joined]
  simp [commentBody, spaces, Function.comp_def]

section Marks

variable {first second : Char} (solid : Text.isBlank first = false)
  (solid' : Text.isBlank second = false)

include solid solid'

theorem isBlank_of_mem_pair : ∀ c ∈ [first, second], Text.isBlank c = false := by
  simp [solid, solid']

theorem not_mem_pair_of_isBlank {c : Char} (blank : Text.isBlank c = true) :
    c ∉ [first, second] := by
  intro listed
  rw [isBlank_of_mem_pair solid solid' c listed] at blank
  cases blank

theorem not_infix_spaces (count : Nat) : ¬[first, second] <:+: List.replicate count ' ' := by
  intro inside
  have space := List.eq_of_mem_replicate (inside.subset List.mem_cons_self)
  exact not_mem_pair_of_isBlank solid solid' (by decide : Text.isBlank ' ' = true)
    (space ▸ List.mem_cons_self)

theorem infix_trimEnd_iff (text : String) :
    [first, second] <:+: (Text.trimEnd text).toList ↔ [first, second] <:+: text.toList := by
  rw [Text.trimEnd, String.toList_ofList,
    Text.infix_dropEndWhile_iff (isBlank_of_mem_pair solid solid')]

theorem infix_docLine_iff (line : String) :
    [first, second] <:+: (docLine line).toList ↔
      [first, second] <:+: escapeCommentEnd line.toList := by
  rw [docLine, infix_trimEnd_iff solid solid', String.toList_ofList]

theorem infix_commentLine_iff (count : Nat) (line : String) :
    [first, second] <:+: (commentLine (spaces count) line).toList ↔
      [first, second] <:+: line.toList := by
  have free := not_mem_pair_of_isBlank solid solid' (by decide : Text.isBlank ' ' = true)
  have chars : (spaces count ++ " * " ++ line).toList =
      List.replicate count ' ' ++ ' ' :: ['*'] ++ ' ' :: line.toList := by
    simp [spaces]
  rw [commentLine, infix_trimEnd_iff solid solid', chars, Text.infix_append_cons_iff free,
    Text.infix_append_cons_iff free]
  simp [not_infix_spaces solid solid', List.infix_cons_iff]

theorem infix_commentBody_iff (lines : List String) (count : Nat) :
    [first, second] <:+: commentBody lines count ↔
      ∃ line ∈ lines, [first, second] <:+: line.toList := by
  have free := not_mem_pair_of_isBlank solid solid' (by decide : Text.isBlank '\n' = true)
  rw [commentBody, Text.infix_append_cons_iff free, Text.infix_append_flatMap_iff free]
  simp only [List.mem_map, exists_exists_and_eq_and, infix_commentLine_iff solid solid']
  simp [not_infix_spaces solid solid', List.infix_cons_iff]

end Marks

/-- A comment around lines that close no comment is one comment exactly if they open none. -/
theorem isBlockComment_docComment_iff {lines : List String} (nonempty : lines ≠ []) (count : Nat)
    (closes : ∀ line ∈ lines, ¬['*', '/'] <:+: line.toList) :
    isBlockComment (String.intercalate "\n" (docComment lines (spaces count))) = true ↔
      ∀ line ∈ lines, ¬['/', '*'] <:+: line.toList := by
  have closesBody : ¬['*', '/'] <:+: commentBody lines count := by
    rw [infix_commentBody_iff rfl rfl]
    simpa using closes
  have begins : (List.replicate count ' ' ++
      '/' :: '*' :: (commentBody lines count ++ [' ', '*', '/'])).dropWhile (· == ' ') =
        '/' :: '*' :: (commentBody lines count ++ [' ', '*', '/']) := by
    simp
  rw [isBlockComment, toList_docComment nonempty, begins]
  simp only [beq_iff_eq]
  rw [behindComment?_append closesBody, infix_commentBody_iff rfl rfl]
  simp

/-! ## Documentations -/

theorem opens_of_infix {text part : List Char} (opens : Opens part) {c : Char} (star : c ≠ '*')
    (slash : c ≠ '/') (inside : c :: part <:+: text) : Opens text := by
  obtain ⟨before, after, rfl⟩ := inside
  obtain ⟨start, rest, rfl, apart⟩ := opens
  have opens : Opens (start ++ '/' :: '*' :: (rest ++ after)) := ⟨start, _, rfl, apart⟩
  have joined := (opens_append_cons_iff star slash).mpr (.inr opens : Opens before ∨ _)
  simpa using joined

theorem opens_append_iff {mark : String} (quiet : ¬Opens mark.toList) (text : String) :
    Opens (mark ++ " " ++ text).toList ↔ Opens text.toList := by
  have chars : (mark ++ " " ++ text).toList = mark.toList ++ ' ' :: text.toList := by simp
  rw [chars, opens_append_cons_iff (by decide) (by decide)]
  simp [quiet]

/-- A version that the documentation tells opens a comment there. -/
theorem opens_of_not_lacksSince {documentation since : String}
    (told : ¬Layout.lacksSince documentation since = true) (opens : Opens since.toList) :
    Opens documentation.toList := by
  have nonempty : since ≠ "" := by
    rintro rfl
    exact absurd opens (by decide)
  have occurs : ("@since " ++ since).toList <:+: documentation.toList := by
    rw [← Text.occursIn_iff]
    simpa [Layout.lacksSince, nonempty] using told
  have chars : ("@since " ++ since).toList = "@since".toList ++ ' ' :: since.toList := by
    rw [String.toList_append]
    rfl
  rw [chars] at occurs
  exact opens_of_infix opens (by decide) (by decide)
    ((List.suffix_append _ _).isInfix.trans occurs)

/-- The lines of a documentation open no comment exactly if none of the texts does of which it is
made. -/
theorem forall_docParagraphs_not_opens_iff (documentation since deprecated : String) :
    (∀ line ∈ Layout.docParagraphs "@deprecated " documentation since deprecated,
        ¬Opens line.toList) ↔
      ¬Opens documentation.toList ∧ ¬Opens since.toList ∧ ¬Opens deprecated.toList := by
  have blank : ¬Opens "".toList := by decide
  have sinceMark : Opens ("@since " ++ since).toList ↔ Opens since.toList :=
    opens_append_iff (by decide : ¬Opens "@since".toList) since
  have deprecatedMark : Opens ("@deprecated " ++ deprecated).toList ↔ Opens deprecated.toList :=
    opens_append_iff (by decide : ¬Opens "@deprecated".toList) deprecated
  rw [Layout.forall_docParagraphs_iff blank, forall_lines_not_opens_iff, sinceMark, deprecatedMark]
  refine and_congr_right fun described => and_congr ?_ ?_
  · refine ⟨fun free => ?_, fun free _ => free⟩
    by_cases lacks : Layout.lacksSince documentation since = true
    · exact free lacks
    · exact fun opens => described (opens_of_not_lacksSince lacks opens)
  · refine ⟨fun free opens => ?_, fun free _ => free⟩
    refine free ?_ opens
    rintro rfl
    exact blank opens

/-- The comment of a documentation, if there is one, is one block comment exactly if neither the
description nor the version nor the note on its deprecation has a mark that opens a comment. -/
theorem isBlockComment_documentation_iff (documentation since deprecated : String)
    (indentation : Nat) :
    let comment := docComment (docLines documentation since deprecated) (spaces indentation)
    comment ≠ [] →
      (isBlockComment (String.intercalate "\n" comment) = true ↔
        ¬Opens documentation.toList ∧ ¬Opens since.toList ∧ ¬Opens deprecated.toList) := by
  intro comment nonempty
  have lines : docLines documentation since deprecated ≠ [] := by
    intro none
    exact nonempty (congrArg (docComment · (spaces indentation)) none)
  have opens_iff (line : String) : ['/', '*'] <:+: (docLine line).toList ↔ Opens line.toList := by
    rw [infix_docLine_iff rfl rfl, infix_escapeCommentEnd_iff]
  rw [isBlockComment_docComment_iff lines, docLines, List.forall_mem_map]
  · simp only [opens_iff]
    exact forall_docParagraphs_not_opens_iff documentation since deprecated
  · rw [docLines, List.forall_mem_map]
    intro line _
    rw [infix_docLine_iff rfl rfl]
    exact not_infix_escapeCommentEnd line.toList

/-- A pattern within stars opens no comment, since the slash goes with the stars before it. -/
theorem isBlockComment_documentation_of_pattern :
    let comment := docComment
      (docLines "Matches **/*.kt.\nSee */ and /." "3.17.0" "use globs") (spaces 4)
    comment ≠ [] ∧ isBlockComment (String.intercalate "\n" comment) = true := by
  intro comment
  have nonempty : comment ≠ [] := by decide
  have each := isBlockComment_documentation_iff "Matches **/*.kt.\nSee */ and /." "3.17.0"
    "use globs" 4 nonempty
  exact ⟨nonempty, each.mpr (by decide)⟩

/-- A pattern below a directory opens a comment that nothing closes. -/
theorem not_isBlockComment_documentation_of_directory :
    isBlockComment (String.intercalate "\n" (docComment (docLines "Matches src/*.kt." "" "") "")) =
      false := by
  decide

end ProtocolCodegen.Kotlin
