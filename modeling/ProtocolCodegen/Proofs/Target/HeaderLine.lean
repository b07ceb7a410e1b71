import Mathlib
import ProtocolCodegen.Generation
import ProtocolCodegen.Proofs.Text.Trimming

/-!
# The header line with the command

Of a generated file the command decides one line of the header and nothing else.  The file ends at
the last character that is no line feed, and that comes after the header.
-/

namespace ProtocolCodegen

namespace Layout

theorem file_append (start : String) {rest : String} (texts : List String)
    (solid : rest.toList.any (· != '\n')) :
    file (start ++ rest) texts = start ++ file rest texts := by
  have solid : (rest ++ Text.unlines (texts.map declaration)).toList.any (· != '\n') := by
    rw [String.toList_append, List.any_append, solid, Bool.true_or]
  rw [file, file, String.append_assoc, Text.trimLineFeeds_append _ solid, String.append_assoc]

@[simp]
theorem header_nil : header [] = "" := rfl

theorem header_append_singleton (lines : List String) (last : String) :
    header (lines ++ [last]) =
      Text.unlines (lines.map (lineComment "")) ++ lineComment "" last ++ "\n\n" := by
  have closed : (lines ++ [last]).isEmpty = false := by simp
  have single : Text.unlines [lineComment "" last] = lineComment "" last ++ "\n" := by
    simp [Text.unlines]
  rw [header, closed, if_neg Bool.false_ne_true, List.map_append, Text.unlines_append,
    List.map_singleton, single]
  simp only [String.append_assoc]
  rfl

end Layout

/-- The beginning of a file is a header with a given comment and then a text of more than line
feeds. -/
structure Layout.BeginsWithHeader (start : List String → String) : Prop where
  split : ∀ comment, start comment = header comment ++ start []
  solid : (start []).toList.any (· != '\n')

namespace Layout

theorem beginsWithHeader {text : String} (solid : text.toList.any (· != '\n')) :
    BeginsWithHeader (header · ++ text) where
  split comment := by rw [header_nil, String.empty_append]
  solid := by rwa [header_nil, String.empty_append]

theorem BeginsWithHeader.append {start : List String → String} (begins : BeginsWithHeader start)
    (text : String) : BeginsWithHeader (start · ++ text) where
  split comment := by rw [begins.split comment, String.append_assoc]
  solid := by rw [String.toList_append, List.any_append, begins.solid, Bool.true_or]

/-- Where a file is rendered, the comment has a part in its header and in nothing else. -/
theorem BeginsWithHeader.map_file {start : List String → String} (begins : BeginsWithHeader start)
    (rendered : Except RenderError (List String)) (comment : List String) :
    rendered.map (file (start comment)) =
      (rendered.map (file (start []))).map (header comment ++ ·) := by
  cases rendered with
  | error error => rfl
  | ok texts => exact congrArg Except.ok (by rw [begins.split, file_append _ _ begins.solid])

end Layout

theorem Go.beginsWithHeader (config : Config) (imports : List String) :
    Layout.BeginsWithHeader (fileStart config · imports) :=
  (((Layout.beginsWithHeader rfl).append _).append _).append _

theorem Kotlin.beginsWithHeader (config : Config) (imports : List String) :
    Layout.BeginsWithHeader (fileStart config · imports) :=
  (((Layout.beginsWithHeader rfl).append _).append _).append _

theorem Proto.beginsWithHeader (config : Config) :
    Layout.BeginsWithHeader (fileStart config) :=
  ((((Layout.beginsWithHeader rfl).append _).append _).append _).append _

theorem Proto.result_fileText (config : Config) (outline : Outline) :
    (fileText config outline).result =
      (declarations outline).result.map (Layout.file (fileStart config outline.comment)) := by
  rw [fileText]
  rcases declarations outline with ⟨imports, error | texts⟩ <;> rfl

/-- Rendering with a comment fails as it does without one, or the comment is put before the file. -/
theorem Language.result_fileText (language : Language) (config : Config) (outline : Outline)
    (comment : List String) :
    (language.fileText config { outline with comment }).result =
      (language.fileText config { outline with comment := [] }).result.map
        (Layout.header comment ++ ·) := by
  cases language with
  | go => exact (Go.beginsWithHeader config _).map_file _ comment
  | kotlin => exact (Kotlin.beginsWithHeader config _).map_file _ comment
  | proto =>
      simp only [fileText, Proto.result_fileText]
      exact (Proto.beginsWithHeader config).map_file _ comment

/-- There is no comment on the generation, or the command is its last line. -/
theorem Config.comment_eq (config : Config) (version : String) :
    (config.addGenerationComment = false ∧ ∀ command, config.comment version command = .ok []) ∨
      ∃ lines, ∀ command, config.comment version command =
        command.map fun told => lines ++ ["Command: " ++ told] := by
  by_cases asked : config.addGenerationComment = true
  · right
    apply Exists.intro
    intro command
    simp only [comment, if_pos asked]
    cases command with
    | ok told => rfl
    | error error => rfl
  · refine .inl ⟨Bool.eq_false_iff.mpr asked, fun command => ?_⟩
    simp only [comment, if_neg asked]
    rfl

/-- The files of a generation, if it succeeds. -/
def Generation.files? (generation : Generation) : Option (List (String × String)) :=
  generation.result.toOption.map Generated.files

theorem files?_generate (config : Config) (language : Language) (languageName : String)
    (model : Model) (command : Except FileError String) {profile : Profile}
    (overrides : config.profile language.profile = .ok profile) :
    (generate config language languageName model command).files? =
      (config.comment model.version command).toOption.bind fun comment =>
        ((language.fileText config
          { (config.outline language profile model).1 with comment := [] }).result.toOption.map
            fun text => [(language.fileName, Layout.header comment ++ text)]) := by
  simp only [generate, overrides]
  cases config.comment model.version command with
  | error error => rfl
  | ok comment =>
      simp only [language.result_fileText config _ comment]
      cases (language.fileText config
        { (config.outline language profile model).1 with comment := [] }).result with
      | error error => rfl
      | ok text => rfl

/-- What the command has to do with the files that are generated from a document: there are no
files, or there is no comment on the generation, or the command makes a line in the header of the
only file. -/
theorem files?_generateFrom (config : Config) (language : Language) (languageName : String)
    (document : Reading Model) :
    let files (command : Except FileError String) : Option (List (String × String)) :=
      (generateFrom config language languageName document command).files?
    (∀ command, files command = none) ∨
      (config.addGenerationComment = false ∧ ∃ file, ∀ command, files command = some [file]) ∨
      ∃ name before after, ∀ command, files command = command.toOption.map fun told =>
        [(name, before ++ Layout.lineComment "" ("Command: " ++ told) ++ after)] := by
  intro files
  cases document with
  | error error => exact .inl fun command => rfl
  | ok model =>
      have files_eq (command : Except FileError String) :
          files command = (generate config language languageName model command).files? := rfl
      simp only [files_eq]
      cases overrides : config.profile language.profile with
      | error error => exact .inl fun command => by simp only [generate, overrides]; rfl
      | ok profile =>
          simp only [files?_generate _ _ _ _ _ overrides]
          cases (language.fileText config
            { (config.outline language profile model).1 with comment := [] }).result with
          | error error =>
              left
              intro command
              cases config.comment model.version command <;> rfl
          | ok text =>
              right
              rcases config.comment_eq model.version with ⟨silent, plain⟩ | ⟨lines, told⟩
              · refine .inl ⟨silent, (language.fileName, text), fun command => ?_⟩
                simp [plain, Except.toOption]
              · refine .inr ⟨language.fileName, Text.unlines (lines.map (Layout.lineComment "")),
                  "\n\n" ++ text, fun command => ?_⟩
                rw [told]
                cases command with
                | error error => rfl
                | ok word =>
                    simp [Except.toOption, Except.map, Layout.header_append_singleton,
                      String.append_assoc]

end ProtocolCodegen
