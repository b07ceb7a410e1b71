import ProtocolCodegen.Generation
import ProtocolCodegen.Proofs.Target.Documentation
import ProtocolCodegen.Proofs.Text.Pieces
import ProtocolCodegen.Proofs.Text.Trimming
import ProtocolCodegen.Target.Go.Text

/-!
# Line comments

A line comment ends at the first line feed.  The lines of a documentation were split at the line
feeds and stay inside their comments, while a note of more than one line goes on as it is: the notes
on the version and the deprecation of a declaration, and the settings that the comment on the
generation tells.
-/

namespace ProtocolCodegen

theorem Text.lines_unlines (texts : List String) :
    lines (unlines texts) = texts.flatMap lines ++ [""] := by
  induction texts with
  | nil => rfl
  | cons text rest induction =>
      have closed : unlines (text :: rest) = text ++ String.singleton '\n' ++ unlines rest := by
        simp [unlines, String.join_cons]
      rw [closed, lines, splitOn_append, List.flatMap_cons, List.append_assoc, ← induction]
      rfl

namespace Layout

/-- What is written of lines that are closed by a line feed each, line by line. -/
def writtenLines (lines : List String) : List String :=
  (Text.lines (Text.unlines lines)).dropLast

/-- A line is a comment behind its indent. -/
def IsComment (indent line : String) : Prop :=
  (indent ++ "//").toList <+: line.toList

instance (indent line : String) : Decidable (IsComment indent line) :=
  inferInstanceAs (Decidable (_ <+: _))

/-- Every line that is written of the given ones is a comment. -/
def AreComments (indent : String) (lines : List String) : Prop :=
  ∀ line ∈ writtenLines lines, IsComment indent line

instance (indent : String) (lines : List String) : Decidable (AreComments indent lines) :=
  inferInstanceAs (Decidable (∀ line ∈ writtenLines lines, IsComment indent line))

/-- Behind its first line, and without the blanks at its end, a text consists of comments. -/
def Continues (indent text : String) : Prop :=
  ∀ line ∈ (Text.lines (Text.trimEnd text)).tail, IsComment indent line

instance (indent text : String) : Decidable (Continues indent text) :=
  inferInstanceAs (Decidable (∀ line ∈ (Text.lines (Text.trimEnd text)).tail,
    IsComment indent line))

/-- The lines of the header of a file. -/
def headerLines (comment : List String) : List String :=
  comment.map (lineComment "")

theorem header_eq (comment : List String) :
    header comment =
      Text.unlines (headerLines comment) ++ if comment.isEmpty then "" else "\n" := rfl

section LineFeeds

variable {indent title : String}

theorem continues_of_not_mem {text : String} (free : '\n' ∉ text.toList) :
    Continues indent text := by
  have trimmed : '\n' ∉ (Text.trimEnd text).toList := by
    rw [Text.trimEnd, String.toList_ofList]
    exact mt (fun found => (Text.dropEndWhile_isPrefix text.toList).mem found) free
  rw [Continues, Text.lines, Text.splitOn_of_not_mem trimmed]
  simp

theorem continues_of_mem_lines {text line : String} (listed : line ∈ Text.lines text) :
    Continues indent line := by
  obtain ⟨piece, among, rfl⟩ := List.mem_map.mp listed
  refine continues_of_not_mem ?_
  rw [String.toList_ofList]
  exact Text.not_mem_of_mem_pieces among

/-- A title without line feeds in front of a text changes its first line only. -/
theorem continues_append_iff (free : '\n' ∉ title.toList) (text : String) :
    Continues indent (title ++ text) ↔ Continues indent text := by
  rcases Text.trimEnd_append text with ⟨blank, empty⟩ | solid
  · have titled : Continues indent title := continues_of_not_mem free
    rw [Continues, blank title, Continues, empty]
    exact iff_of_true titled (by simp [Text.lines, Text.splitOn])
  · rw [Continues, solid, Text.lines, Text.splitOn_append_of_not_mem free, List.tail_modifyHead]
    rfl

theorem isComment_trimEnd (indent text : String) :
    IsComment indent (Text.trimEnd (indent ++ "//" ++ text)) := by
  rcases Text.trimEnd_append text with ⟨blank, -⟩ | solid
  · have slashes : Text.trimEnd (indent ++ "//") = indent ++ "//" := by
      rw [Text.trimEnd, String.toList_append, Text.dropEndWhile_append _ ⟨'/', by decide⟩]
      simp [String.ofList_append]
      rfl
    rw [blank, slashes, IsComment]
  · simp only [solid, IsComment, String.toList_append]
    exact List.prefix_append _ _

/-- A text that begins as a comment consists of comments if it does so behind its first line. -/
theorem forall_lines_iff (free : '\n' ∉ indent.toList) {text : String}
    (begins : IsComment indent text) :
    (∀ line ∈ Text.lines text, IsComment indent line) ↔
      ∀ line ∈ (Text.lines text).tail, IsComment indent line := by
  obtain ⟨rest, split⟩ := begins
  have opened : '\n' ∉ (indent ++ "//").toList := by simpa using free
  have joined : text = indent ++ "//" ++ String.ofList rest :=
    String.toList_inj.mp (by rw [String.toList_append, String.toList_ofList, split])
  rw [joined, Text.lines, Text.splitOn_append_of_not_mem opened]
  cases Text.splitOn '\n' (String.ofList rest) with
  | nil => simp
  | cons first others => simp [IsComment]

theorem forall_lines_lineComment_iff (free : '\n' ∉ indent.toList) (text : String) :
    (∀ line ∈ Text.lines (lineComment indent text), IsComment indent line) ↔
      Continues indent text := by
  have opened : '\n' ∉ (indent ++ "// ").toList := by simpa using free
  have begins : IsComment indent (lineComment indent text) := by
    have spaced : indent ++ "// " ++ text = indent ++ "//" ++ (" " ++ text) := by
      simp only [String.append_assoc]
      rfl
    rw [lineComment, spaced]
    exact isComment_trimEnd indent (" " ++ text)
  rw [forall_lines_iff free begins]
  exact continues_append_iff opened text

theorem areComments_map_iff (free : '\n' ∉ indent.toList) (texts : List String) :
    AreComments indent (texts.map (lineComment indent)) ↔
      ∀ text ∈ texts, Continues indent text := by
  rw [AreComments, writtenLines, Text.lines_unlines, List.dropLast_concat, List.flatMap_map,
    List.forall_mem_flatMap]
  exact forall₂_congr fun text _ => forall_lines_lineComment_iff free text

theorem areComments_commentLines (free : '\n' ∉ indent.toList) (documentation : String) :
    AreComments indent (commentLines documentation indent) := by
  rw [commentLines]
  split
  · exact fun line none => absurd none List.not_mem_nil
  · rw [areComments_map_iff free]
    exact fun line listed => continues_of_mem_lines listed

theorem areComments_docComment_iff (free : '\n' ∉ indent.toList)
    (documentation since deprecated : String) :
    AreComments indent (Go.docComment documentation since deprecated indent) ↔
      (lacksSince documentation since = true → Continues indent since) ∧
        Continues indent deprecated := by
  have blank : Continues indent "" := continues_of_not_mem (by decide)
  have described : ∀ line ∈ Text.lines documentation, Continues indent line :=
    fun line listed => continues_of_mem_lines listed
  have noted : (deprecated ≠ "" → Continues indent deprecated) ↔
      Continues indent deprecated := by
    by_cases none : deprecated = ""
    · exact iff_of_true (absurd none) (none ▸ blank)
    · exact imp_iff_right none
  rw [Go.docComment, areComments_map_iff free, forall_docParagraphs_iff blank,
    continues_append_iff (by decide), continues_append_iff (by decide), noted,
    and_iff_right described]

end LineFeeds

end Layout

/-- The texts that the comment on a generation tells. -/
def Config.told (config : Config) (version command : String) : List String :=
  [config.source, config.ref, config.commitHash,
    if config.lspVersion = "" then version else config.lspVersion, command]

theorem forall_commentLine_iff {indent title : String} (free : '\n' ∉ title.toList)
    (text : String) :
    (∀ line ∈ commentLine title text, Layout.Continues indent line) ↔
      Layout.Continues indent text := by
  rw [commentLine]
  split
  · rename_i none
    exact iff_of_true (by simp) (none ▸ Layout.continues_of_not_mem (by decide))
  · have titled : '\n' ∉ (title ++ ": ").toList := by simpa using free
    rw [List.forall_mem_singleton, Layout.continues_append_iff titled]

theorem Config.areComments_headerLines_iff (config : Config) (version command : String) :
    ∃ comment, config.comment version (.ok command) = .ok comment ∧
      (Layout.AreComments "" (Layout.headerLines comment) ↔
        (config.addGenerationComment = true →
          ∀ text ∈ config.told version command, Layout.Continues "" text)) := by
  by_cases asked : config.addGenerationComment = true
  · refine ⟨_, if_pos asked, ?_⟩
    rw [Layout.headerLines, Layout.areComments_map_iff (by decide), imp_iff_right asked]
    have fixed : '\n' ∉ ("Code generated by metamodel_to_code v" ++ generatorVersion ++
        ". DO NOT EDIT.").toList := by decide
    simp only [told, List.forall_mem_append, List.forall_mem_singleton, List.forall_mem_cons,
      forall_commentLine_iff (show '\n' ∉ "Source".toList by decide),
      forall_commentLine_iff (show '\n' ∉ "Ref".toList by decide),
      forall_commentLine_iff (show '\n' ∉ "Commit".toList by decide),
      forall_commentLine_iff (show '\n' ∉ "LSP Version".toList by decide),
      Layout.continues_append_iff (show '\n' ∉ "Command: ".toList by decide),
      Layout.continues_of_not_mem fixed]
    simp [and_assoc]
  · refine ⟨[], if_neg asked, iff_of_true ?_ fun given => absurd given asked⟩
    decide

/-- A documentation always stays inside its line comments.  With the notes on the version and the
deprecation it does so exactly if the notes that are written consist of comments behind their first
lines, and the header of a file does so exactly if all texts that it tells are of that kind. -/
theorem Layout.written_areComments_iff {indent : String} (free : '\n' ∉ indent.toList)
    (documentation since deprecated : String) (config : Config) (version command : String) :
    AreComments indent (commentLines documentation indent) ∧
      (AreComments indent (Go.docComment documentation since deprecated indent) ↔
        (lacksSince documentation since = true → Continues indent since) ∧
          Continues indent deprecated) ∧
      ∃ comment, config.comment version (.ok command) = .ok comment ∧
        header comment =
          Text.unlines (headerLines comment) ++ (if comment.isEmpty then "" else "\n") ∧
        (AreComments "" (headerLines comment) ↔
          (config.addGenerationComment = true →
            ∀ text ∈ config.told version command, Continues "" text)) := by
  obtain ⟨comment, made, commented_iff⟩ := config.areComments_headerLines_iff version command
  exact ⟨areComments_commentLines free documentation,
    areComments_docComment_iff free documentation since deprecated,
    comment, made, header_eq comment, commented_iff⟩

theorem Layout.written_areComments_iff_of_tab :
    '\n' ∉ "\t".toList ∧
      AreComments "\t" (commentLines "first\nsecond" "\t") ∧
      (AreComments "\t" (Go.docComment "first\nsecond" "3.17" "use Y" "\t") ↔
        (lacksSince "first\nsecond" "3.17" = true → Continues "\t" "3.17") ∧
          Continues "\t" "use Y") ∧
      ∃ comment, Config.defaults.comment "3.17" (.ok "generate") = .ok comment ∧
        header comment =
          Text.unlines (headerLines comment) ++ (if comment.isEmpty then "" else "\n") ∧
        (AreComments "" (headerLines comment) ↔
          (Config.defaults.addGenerationComment = true →
            ∀ text ∈ Config.defaults.told "3.17" "generate", Continues "" text)) :=
  ⟨by decide, written_areComments_iff (by decide) "first\nsecond" "3.17" "use Y" Config.defaults
    "3.17" "generate"⟩

/-- A deprecation note of two lines leaves its comment, and so does a version of two lines. -/
theorem Layout.not_areComments_of_two_lines :
    ¬AreComments "" (Go.docComment "" "" "use Y\ninstead" "") ∧
      ∃ comment, Config.defaults.comment "3.17\ninstead" (.ok "generate") = .ok comment ∧
        ¬AreComments "" (headerLines comment) := by
  have continues_not : ¬Continues "" "3.17\ninstead" := by decide
  obtain ⟨comment, made, commented_iff⟩ :=
    Config.defaults.areComments_headerLines_iff "3.17\ninstead" "generate"
  refine ⟨by decide, comment, made, fun commented => continues_not ?_⟩
  exact commented_iff.mp commented rfl _ (by simp [Config.told, Config.defaults])

end ProtocolCodegen
