import Mathlib
import ProtocolCodegen.Proofs.Files.Writing

/-!
# Existing files

Where nothing is to be replaced, a file is written only if nothing is found at its path.  Yet a path
can step back from a directory that is missing: nothing is found there until the directory is made,
and then the path leads to a file that was there all the time.  Every other file is kept.
-/

namespace ProtocolCodegen
namespace Output

/-- A path steps back on its way, a directory on it was missing, and now it leads to a place. -/
structure Detour (before after : FileTree) (path : FilePath) (place : Place) : Prop where
  back : ".." ∈ path.components
  missing : before.locate path = .error .notFound
  leads : after.locate path = .ok place

theorem Detour.later {before middle after : FileTree} {path : FilePath} {place : Place}
    (detour : Detour before middle path place) (develops : middle.Develops after) :
    Detour before after path place where
  back := detour.back
  missing := detour.missing
  leads := by
    rw [FileTree.locate_eq_of_develops develops (by simp [detour.leads]), detour.leads]

/-- A file is written where nothing is to be replaced: directories are made, and then the write
fails and leaves no file behind, or succeeds at a path at which nothing was found. -/
theorem runIn_writeNew (path : FilePath) (content : ByteArray) (atomic checked : Bool)
    (tree : FileTree) :
    ∃ middle, MakesWay path.parent tree middle ∧
      ((∃ error, runIn (writeNew path content atomic checked) tree = (.error error, middle)) ∨
        tree.kind path = .ok none ∧ ∃ after, middle.write path content = .ok after ∧
          runIn (writeNew path content atomic checked) tree = (.ok (), after)) := by
  rw [writeNew, runIn_bind, runIn_isTaken]
  cases found : tree.kind path with
  | error error => exact ⟨tree, .refl _ tree, .inl ⟨_, rfl⟩⟩
  | ok kind =>
      cases kind with
      | some kind => exact ⟨tree, .refl _ tree, .inl ⟨_, rfl⟩⟩
      | none =>
          obtain ⟨middle, makes, failed | written⟩ := runIn_write path content atomic checked tree
          · exact ⟨middle, makes, .inl failed⟩
          · exact ⟨middle, makes, .inr ⟨rfl, written⟩⟩

/-- Where nothing was found at a path, the place to which it leads after directories were added was
free, or else the path makes a detour. -/
theorem detour_of_stands {origin tree middle : FileTree} (rooted : origin.IsRooted)
    (develops : origin.Develops tree) (added : AddsDirectories tree middle) {path : FilePath}
    {place : Place} (nothing : tree.kind path = .ok none) (leads : middle.locate path = .ok place)
    (stood : origin.get? place ≠ none) (stands : tree.get? place ≠ none) :
    Detour origin middle path place := by
  have developed := develops.trans added.extends.develops
  have astray : tree.locate path ≠ .ok place := by
    intro leads
    simp only [FileTree.kind, leads, Except.ok.injEq, Option.map_eq_none_iff] at nothing
    exact stands nothing
  constructor
  · by_contra direct
    have led := FileTree.locate_of_stands developed rooted direct leads stood
    rw [← FileTree.locate_eq_of_develops develops (by simp [led])] at led
    exact astray led
  · by_contra found
    have unchanged := FileTree.locate_eq_of_develops develops found
    rw [← unchanged] at found
    rw [FileTree.locate_eq_of_develops added.extends.develops found] at leads
    exact astray leads
  · exact leads

/-- What a write does that is to replace nothing.  `origin` is an earlier tree, in which other files
may have been written since. -/
theorem writeNew_keeps {origin tree : FileTree} (rooted : origin.IsRooted)
    (develops : origin.Develops tree) (path : FilePath) (content : ByteArray)
    (atomic checked : Bool) :
    let (result, after) := runIn (writeNew path content atomic checked) tree
    tree.Develops after ∧ ∀ place old, tree.get? place = some (.file old) →
      origin.get? place ≠ none → after.get? place = some (.file old) ∨
        result = .ok () ∧ Detour origin after path place ∧
          after.get? place = some (.file content) := by
  obtain ⟨middle, makes, ⟨error, failed⟩ | ⟨nothing, after, written, succeeded⟩⟩ :=
    runIn_writeNew path content atomic checked tree
  all_goals have added := makes.toAddsDirectories
  · rw [failed]
    exact ⟨added.extends.develops, fun place old stands _ =>
      .inl (added.extends.kept place _ stands)⟩
  · rw [succeeded]
    have developed := develops_of_write written
    refine ⟨added.extends.develops.trans developed, fun place old stands stood => ?_⟩
    obtain ⟨target, leads, _, rfl⟩ := FileTree.write_eq_ok_iff.mp written
    have kept := added.extends.kept place _ stands
    have inner := FileTree.isEmpty_of_file stands
    by_cases same : target = place
    · subst same
      have detour := detour_of_stands rooted develops added nothing leads stood (by simp [stands])
      exact .inr ⟨rfl, detour.later developed, by simp [FileTree.get?_put, inner]⟩
    · exact .inl (by simp [FileTree.get?_put, inner, same, kept])

theorem writeFor_errorIfExists (path : FilePath) (content : ByteArray) (atomic : Bool) :
    (writeFor ⟨.errorIfExists, atomic⟩ path content :
      ExceptT OutputError (StateM FileTree) Unit) = writeNew path content atomic true := rfl

theorem run_writeEach_cons (config : OutputConfig) (path : FilePath) (content : ByteArray)
    (rest : List (FilePath × ByteArray)) (tree : FileTree) :
    (writeEach config ((path, content) :: rest) : StateM FileTree _).run tree =
      match runIn (writeFor config path content) tree with
      | (.ok _, middle) =>
          let (report, after) := (writeEach config rest : StateM FileTree _).run middle
          ({ report with written := ⟨path, content.size⟩ :: report.written }, after)
      | (.error error, middle) => (⟨[], .error error⟩, middle) := by
  have first : (ExceptT.run (writeFor config path content :
      ExceptT OutputError (StateM FileTree) Unit)).run tree =
      runIn (writeFor config path content) tree := rfl
  rw [writeEach, StateT.run_bind, first]
  rcases runIn (writeFor config path content) tree with ⟨_ | _, middle⟩ <;> rfl

/-- What a batch of writes does that are to replace nothing. -/
theorem writeEach_keeps {origin tree : FileTree} (rooted : origin.IsRooted)
    (develops : origin.Develops tree) (atomic : Bool) (targets : List (FilePath × ByteArray)) :
    let (report, after) := (writeEach ⟨.errorIfExists, atomic⟩ targets : StateM FileTree _).run tree
    tree.Develops after ∧ ∀ place old, tree.get? place = some (.file old) →
      origin.get? place ≠ none → after.get? place = some (.file old) ∨
        ∃ written ∈ report.written, Detour origin after written.path place := by
  induction targets generalizing tree with
  | nil => exact ⟨.refl tree, fun place old stands _ => .inl stands⟩
  | cons target rest induction =>
      obtain ⟨path, content⟩ := target
      have first := writeNew_keeps rooted develops path content atomic true
      rw [run_writeEach_cons, writeFor_errorIfExists]
      rcases outcome : runIn (writeNew path content atomic true) tree with ⟨error | _, middle⟩
      · rw [outcome] at first
        refine ⟨first.1, fun place old stands stood => ?_⟩
        rcases first.2 place old stands stood with kept | ⟨failed, _⟩
        · exact .inl kept
        · cases failed
      · rw [outcome] at first
        obtain ⟨developed, firstKeeps⟩ := first
        obtain ⟨later, restKeep⟩ := induction (develops.trans developed)
        refine ⟨developed.trans later, fun place old stands stood => ?_⟩
        rcases firstKeeps place old stands stood with kept | ⟨_, detour, _⟩
        · rcases restKeep place old kept stood with kept | ⟨written, listed, detour⟩
          · exact .inl kept
          · exact .inr ⟨written, List.mem_cons_of_mem _ listed, detour⟩
        · exact .inr ⟨_, List.mem_cons_self, detour.later later⟩

theorem run_isDirectoryOutput (output : String) (tree : FileTree) :
    ∃ result, (ExceptT.run (isDirectoryOutput output :
      ExceptT OutputError (StateM FileTree) Bool)).run tree = (result, tree) := by
  rw [isDirectoryOutput]
  split
  · exact ⟨_, rfl⟩
  · exact ⟨_, rfl⟩
  · exact ⟨_, runIn_isDirectory (FilePath.ofText output) tree⟩

theorem run_writeAll_of_looked {output : String} {tree : FileTree} {inDirectory : Bool}
    (looked : (ExceptT.run (isDirectoryOutput output :
      ExceptT OutputError (StateM FileTree) Bool)).run tree = (.ok inDirectory, tree))
    (files : List (String × ByteArray)) (config : OutputConfig) :
    (writeAll files output config : StateM FileTree Report).run tree =
      match Output.targets (Text.sortedBy (·.1) files) output inDirectory with
      | .error error => (⟨[], .error error⟩, tree)
      | .ok targets => (writeEach config targets : StateM FileTree Report).run tree := by
  rw [writeAll, StateT.run_bind, looked]
  dsimp only [bind]
  cases Output.targets (Text.sortedBy (·.1) files) output inDirectory <;> rfl

theorem run_writeAll_of_unlooked {output : String} {tree : FileTree} {error : OutputError}
    (looked : (ExceptT.run (isDirectoryOutput output :
      ExceptT OutputError (StateM FileTree) Bool)).run tree = (.error error, tree))
    (files : List (String × ByteArray)) (config : OutputConfig) :
    (writeAll files output config : StateM FileTree Report).run tree =
      (⟨[], .error error⟩, tree) := by
  rw [writeAll, StateT.run_bind, looked]
  rfl

/-- A batch of files is refused before anything is written, or its targets are written in turn. -/
theorem run_writeAll (files : List (String × ByteArray)) (output : String) (config : OutputConfig)
    (tree : FileTree) :
    (∃ error, (writeAll files output config : StateM FileTree Report).run tree =
        (⟨[], .error error⟩, tree)) ∨
      ∃ inDirectory targets,
        Output.targets (Text.sortedBy (·.1) files) output inDirectory = .ok targets ∧
          (writeAll files output config : StateM FileTree Report).run tree =
            (writeEach config targets : StateM FileTree Report).run tree := by
  obtain ⟨error | inDirectory, looked⟩ := run_isDirectoryOutput output tree
  · exact .inl ⟨error, run_writeAll_of_unlooked looked files config⟩
  · rw [run_writeAll_of_looked looked]
    cases aimed : Output.targets (Text.sortedBy (·.1) files) output inDirectory with
    | error error => exact .inl ⟨error, rfl⟩
    | ok targets => exact .inr ⟨inDirectory, targets, aimed, rfl⟩

/-- Where nothing is to be replaced, every file is kept, whether the writing succeeds or fails, and
whether one file or a batch is written.  Only a path that steps back from a directory that was
missing can lead to a file that it did not lead to when it was looked up. -/
theorem keeps_files (tree : FileTree) (rooted : tree.IsRooted) (atomic : Bool) :
    (∀ path content checked,
      let (result, after) := runIn (writeNew path content atomic checked) tree
      ∀ place old, tree.get? place = some (.file old) → after.get? place = some (.file old) ∨
        result = .ok () ∧ Detour tree after path place ∧
          after.get? place = some (.file content)) ∧
    ∀ files output,
      let (report, after) :=
        (writeAll files output ⟨.errorIfExists, atomic⟩ : StateM FileTree Report).run tree
      ∀ place old, tree.get? place = some (.file old) → after.get? place = some (.file old) ∨
        ∃ written ∈ report.written, Detour tree after written.path place := by
  constructor
  · intro path content checked place old stands
    exact (writeNew_keeps rooted (.refl tree) path content atomic checked).2 place old stands
      (by simp [stands])
  · intro files output
    rcases run_writeAll files output ⟨.errorIfExists, atomic⟩ tree with
      ⟨error, refused⟩ | ⟨_, targets, _, written⟩
    · rw [refused]
      exact fun place old stands => .inl stands
    · rw [written]
      intro place old stands
      exact (writeEach_keeps rooted (.refl tree) atomic targets).2 place old stands
        (by simp [stands])

/-- The tree of a working directory with a single file. -/
def singleFile (name : String) (content : ByteArray) : FileTree :=
  .ofEntries ["work"] [] [([name], content)]

/-- A file at a plain path is kept, and the caller is told that it is there. -/
theorem keeps_files_at_plain_path :
    let tree := singleFile "have.kt" "old".toUTF8
    let (result, after) := runIn (writeNew (.ofText "have.kt") "new".toUTF8 true true) tree
    tree.IsRooted ∧ result = .error (.taken (.ofText "have.kt")) ∧
      after.get? ["work", "have.kt"] = some (.file "old".toUTF8) := by
  have rooted : (singleFile "have.kt" "old".toUTF8).IsRooted := by decide +kernel
  refine ⟨rooted, by decide +kernel, ?_⟩
  rcases (keeps_files _ rooted true).1 (.ofText "have.kt") "new".toUTF8 true ["work", "have.kt"]
    "old".toUTF8 (by decide +kernel) with kept | ⟨_, detour, _⟩
  · exact kept
  · exact absurd detour.back (by decide +kernel)

/-- A file is replaced where the path to it steps back from a directory that is missing when the
file is looked up and made before the file is written. -/
theorem replaces_file_behind_missing_directory :
    let tree := singleFile "have.kt" "old".toUTF8
    let (result, after) := runIn (writeNew (.ofText "x/../have.kt") "new".toUTF8 true true) tree
    tree.IsRooted ∧ tree.get? ["work", "have.kt"] = some (.file "old".toUTF8) ∧ result = .ok () ∧
      after.get? ["work", "have.kt"] = some (.file "new".toUTF8) := by
  decide +kernel

end Output
end ProtocolCodegen
