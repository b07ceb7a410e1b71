import Mathlib
import ProtocolCodegen.Proofs.Files.Preservation
import ProtocolCodegen.Proofs.Files.SingleWrite
import ProtocolCodegen.Proofs.Text.Order

/-!
# Batches of files

The files of a batch are checked and written one after the other, in the order of their names.  A
file that is refused leaves no trace, and those behind it are not tried; but the files before it are
written by then, and nothing takes them back.  So a refused batch does what the files before the
refused one do by themselves.
-/

namespace ProtocolCodegen

/-- An output is refused, rather than that a step on files fails. -/
def OutputError.IsRefusal : OutputError → Prop
  | .file _ => False
  | _ => True

namespace Output

/-! ## Refused files -/

section Refusals

variable {α β : Type}

/-- A program fails only where a step on files does. -/
def NeverRefuses (program : ExceptT OutputError (StateM FileTree) α) : Prop :=
  ∀ tree error, (runIn program tree).1 = .error error → ¬error.IsRefusal

theorem NeverRefuses.bind {program : ExceptT OutputError (StateM FileTree) α}
    {next : α → ExceptT OutputError (StateM FileTree) β} (first : NeverRefuses program)
    (second : ∀ value, NeverRefuses (next value)) : NeverRefuses (program >>= next) := by
  intro tree error failed
  rw [runIn_bind] at failed
  rcases outcome : runIn program tree with ⟨error' | value, middle⟩
  · rw [outcome] at failed
    cases failed
    exact first tree error (by rw [outcome])
  · rw [outcome] at failed
    exact second value middle error failed

theorem neverRefuses_pure (value : α) :
    NeverRefuses (pure value : ExceptT OutputError (StateM FileTree) α) := by
  intro tree error failed
  cases failed

theorem neverRefuses_throw (cause : FileError) :
    NeverRefuses (throw (.file cause) : ExceptT OutputError (StateM FileTree) α) := by
  intro tree error failed
  cases failed
  exact id

theorem neverRefuses_lift (step : StateM FileTree α) : NeverRefuses (ExceptT.lift step) := by
  intro tree error failed
  cases failed

theorem neverRefuses_attempt (step : StateM FileTree (Except FileError α)) :
    NeverRefuses (attempt step) := by
  intro tree error failed
  rw [runIn_attempt] at failed
  cases outcome : (step.run tree).1 with
  | ok value =>
      rw [outcome] at failed
      cases failed
  | error cause =>
      rw [outcome] at failed
      cases failed
      exact id

theorem neverRefuses_isDirectory (path : FilePath) : NeverRefuses (isDirectory path) :=
  (neverRefuses_attempt _).bind fun _ => neverRefuses_pure _

theorem neverRefuses_isTaken (path : FilePath) : NeverRefuses (isTaken path) :=
  (neverRefuses_attempt _).bind fun _ => neverRefuses_pure _

theorem neverRefuses_ensureDirectory (path : FilePath) : NeverRefuses (ensureDirectory path) := by
  rw [ensureDirectory]
  refine (neverRefuses_lift _).bind fun outcome => ?_
  split
  · exact neverRefuses_pure _
  · exact neverRefuses_pure _
  · refine (neverRefuses_isDirectory path).bind fun found => ?_
    cases found
    · exact neverRefuses_throw _
    · exact neverRefuses_pure _

theorem neverRefuses_makeDirectories (slashes : Nat) (components : List String) :
    NeverRefuses (makeDirectories slashes components) := by
  have failing (made : Bool) : NeverRefuses
      (if !made then throw (.file .notFound) else pure PUnit.unit) := by
    cases made
    · exact neverRefuses_throw _
    · exact neverRefuses_pure _
  induction components with
  | nil => exact (neverRefuses_ensureDirectory _).bind failing
  | cons component others induction =>
      refine (neverRefuses_ensureDirectory _).bind fun made => ?_
      cases made with
      | true => exact neverRefuses_pure _
      | false => exact induction.bind fun _ => (neverRefuses_ensureDirectory _).bind failing

theorem neverRefuses_createTemporary (path : FilePath) (content : ByteArray) (remaining : Nat) :
    NeverRefuses (createTemporary path content remaining) := by
  induction remaining with
  | zero => exact neverRefuses_throw _
  | succ remaining induction =>
      rw [createTemporary]
      refine (neverRefuses_lift _).bind fun outcome => ?_
      split
      · exact neverRefuses_pure _
      · exact induction
      · exact neverRefuses_throw _

theorem neverRefuses_replace (path : FilePath) (content : ByteArray) :
    NeverRefuses (replace path content) := by
  rw [replace]
  refine (neverRefuses_createTemporary path content maxAttempts).bind fun source => ?_
  refine (neverRefuses_lift _).bind fun outcome => ?_
  split
  · exact neverRefuses_pure _
  · refine (neverRefuses_isTaken source).bind fun taken => ?_
    cases taken
    · exact neverRefuses_throw _
    · exact (neverRefuses_attempt _).bind fun _ => neverRefuses_throw _

theorem neverRefuses_write_unchecked (path : FilePath) (content : ByteArray) (atomic : Bool) :
    NeverRefuses (write path content atomic false) := by
  rw [write_unchecked]
  refine (neverRefuses_makeDirectories _ _).bind fun _ => ?_
  cases atomic
  · exact neverRefuses_attempt _
  · exact neverRefuses_replace path content

theorem neverRefuses_isDirectoryOutput (output : String) :
    NeverRefuses (isDirectoryOutput output) := by
  rw [isDirectoryOutput]
  split
  · exact neverRefuses_pure _
  · exact neverRefuses_pure _
  · exact neverRefuses_isDirectory _

end Refusals

section Files

theorem writeFor_force (path : FilePath) (content : ByteArray) (atomic : Bool) :
    (writeFor ⟨.force, atomic⟩ path content : ExceptT OutputError (StateM FileTree) Unit) =
      write path content atomic true := rfl

variable {path : FilePath} {content : ByteArray} {tree after : FileTree} {error : OutputError}

theorem write_of_refusal {atomic checked : Bool}
    (refused : runIn (write path content atomic checked) tree = (.error error, after))
    (refusal : error.IsRefusal) : after = tree ∧ check content = .error error := by
  have unchecked {middle : FileTree}
      (refused : runIn (write path content atomic false) middle = (.error error, after)) : False :=
    neverRefuses_write_unchecked path content atomic middle error (by rw [refused]) refusal
  cases checked with
  | false => exact (unchecked refused).elim
  | true =>
      rw [write_checked, runIn_bind, runIn_check] at refused
      cases checks : check content with
      | error cause =>
          rw [checks] at refused
          cases refused
          exact ⟨rfl, rfl⟩
      | ok valid =>
          rw [checks] at refused
          exact (unchecked refused).elim

/-- Why a file is refused in a tree: something stands at its path and is not to be replaced, or its
content is not accepted. -/
def IsRefused (config : OutputConfig) (tree : FileTree) (path : FilePath) (content : ByteArray)
    (error : OutputError) : Prop :=
  (config.mode = .errorIfExists ∧ (∃ kind, tree.kind path = .ok (some kind)) ∧
      error = .taken path) ∨
    check content = .error error

/-- A file that is refused leaves no trace. -/
theorem writeFor_of_refusal {config : OutputConfig}
    (refused : runIn (writeFor config path content) tree = (.error error, after))
    (refusal : error.IsRefusal) : after = tree ∧ IsRefused config tree path content error := by
  obtain ⟨mode, atomic⟩ := config
  cases mode with
  | errorIfExists =>
      rw [writeFor_errorIfExists, writeNew, runIn_bind, runIn_isTaken] at refused
      cases found : tree.kind path with
      | error cause =>
          rw [found] at refused
          cases refused
          exact refusal.elim
      | ok kind =>
          rw [found] at refused
          cases kind with
          | none =>
              have refused : runIn (write path content atomic true) tree = (.error error, after) :=
                refused
              obtain ⟨same, unfit⟩ := write_of_refusal refused refusal
              exact ⟨same, .inr unfit⟩
          | some kind =>
              cases refused
              exact ⟨rfl, .inl ⟨rfl, ⟨kind, found⟩, rfl⟩⟩
  | force =>
      rw [writeFor_force] at refused
      obtain ⟨same, unfit⟩ := write_of_refusal refused refusal
      exact ⟨same, .inr unfit⟩

/-- In either mode directories are made on the way to a file; then it is put in its place, or no
file is left behind. -/
theorem runIn_writeFor (config : OutputConfig) (path : FilePath) (content : ByteArray)
    (tree : FileTree) :
    ∃ middle, MakesWay path.parent tree middle ∧
      ((∃ error, runIn (writeFor config path content) tree = (.error error, middle)) ∨
        ∃ after, middle.write path content = .ok after ∧
          runIn (writeFor config path content) tree = (.ok (), after)) := by
  obtain ⟨mode, atomic⟩ := config
  cases mode with
  | errorIfExists =>
      obtain ⟨middle, makes, failed | ⟨_, written⟩⟩ :=
        runIn_writeNew path content atomic true tree
      · exact ⟨middle, makes, .inl failed⟩
      · exact ⟨middle, makes, .inr written⟩
  | force => exact runIn_write path content atomic true tree

end Files

/-! ## Written files -/

section Contents

variable {tree before middle after : FileTree} {path : FilePath} {content : ByteArray}
  {batch rest : List (FilePath × ByteArray)} {place : Place}

/-- The content of the last file of a batch whose path leads to a place. -/
def contentAt (tree : FileTree) (batch : List (FilePath × ByteArray)) (place : Place) :
    Option ByteArray :=
  (batch.filter fun file => tree.locate file.1 = .ok place).getLast?.map (·.2)

theorem contentAt_singleton : contentAt tree [(path, content)] place =
    if tree.locate path = .ok place then some content else none := by
  by_cases leads : tree.locate path = .ok place <;> simp [contentAt, leads]

theorem contentAt_append : contentAt tree (batch ++ rest) place =
    (contentAt tree rest place).or (contentAt tree batch place) := by
  rw [contentAt, List.filter_append, List.getLast?_append, Option.map_or]
  rfl

theorem contentAt_eq_of_develops (develops : before.Develops after)
    (leads : ∀ file ∈ batch, ∃ place, before.locate file.1 = .ok place) (place : Place) :
    contentAt after batch place = contentAt before batch place := by
  have same (file) (listed : file ∈ batch) : after.locate file.1 = before.locate file.1 := by
    obtain ⟨target, leads⟩ := leads file listed
    exact FileTree.locate_eq_of_develops develops (by simp [leads])
  rw [contentAt, contentAt, List.filter_congr fun file listed => by rw [same file listed]]

/-- What a batch leaves: at each place to which its paths lead, the content of the last of them; at
every other place what stood there, or a directory on the way of a path where nothing stood. -/
structure Wrote (batch : List (FilePath × ByteArray)) (before after : FileTree) : Prop where
  develops : before.Develops after
  leads : ∀ file ∈ batch, ∃ place, after.locate file.1 = .ok place
  written : ∀ place content, contentAt after batch place = some content →
    after.get? place = some (.file content)
  kept : ∀ place, contentAt after batch place = none →
    after.get? place = before.get? place ∨
      before.get? place = none ∧ after.get? place = some .directory ∧
        ∃ file ∈ batch, OnTheWay after file.1.parent place

theorem Wrote.nil (tree : FileTree) : Wrote [] tree tree where
  develops := .refl tree
  leads _ listed := absurd listed List.not_mem_nil
  written _ _ found := by cases found
  kept _ _ := .inl rfl

theorem Wrote.single (makes : MakesWay path.parent before middle)
    (puts : middle.write path content = .ok after) : Wrote [(path, content)] before after := by
  have develops := develops_of_write puts
  obtain ⟨target, leads, noDirectory, rfl⟩ := FileTree.write_eq_ok_iff.mp puts
  have leadsAfter : (middle.put target (.file content)).locate path = .ok target := by
    rw [FileTree.locate_eq_of_develops develops (by simp [leads]), leads]
  refine ⟨makes.extends.develops.trans develops, ?_, fun place last found => ?_,
    fun place missed => ?_⟩
  · rintro file (_ | ⟨_, ⟨⟩⟩)
    exact ⟨target, leadsAfter⟩
  · rw [contentAt_singleton, leadsAfter, Option.ite_none_right_eq_some] at found
    obtain ⟨same, equal⟩ := found
    cases same
    cases equal
    exact FileTree.get?_put_self noDirectory _
  · have different : place ≠ target := by
      rintro rfl
      simp [contentAt_singleton, leadsAfter] at missed
    rcases (makes.isKept place).put different develops with same | ⟨free, made, onTheWay⟩
    · exact .inl same
    · exact .inr ⟨free, made, _, List.mem_singleton_self _, onTheWay⟩

/-- What a batch leaves is what its last files leave over what its first files leave. -/
theorem Wrote.append (first : Wrote batch before middle) (second : Wrote rest middle after) :
    Wrote (batch ++ rest) before after := by
  have unchanged := contentAt_eq_of_develops second.develops first.leads
  refine ⟨first.develops.trans second.develops, ?_, fun place last found => ?_,
    fun place missed => ?_⟩
  · intro file listed
    rcases List.mem_append.mp listed with listed | listed
    · obtain ⟨target, leads⟩ := first.leads file listed
      refine ⟨target, ?_⟩
      rw [FileTree.locate_eq_of_develops second.develops (by simp [leads]), leads]
    · exact second.leads file listed
  · rw [contentAt_append, Option.or_eq_some_iff, unchanged] at found
    rcases found with found | ⟨missed, found⟩
    · exact second.written place last found
    · -- The last files leave alone what they do not put a content over.
      have put := first.written place last found
      rcases second.kept place missed with same | ⟨free, _⟩
      · rw [same, put]
      · simp [put] at free
  · rw [contentAt_append, Option.or_eq_none_iff, unchanged] at missed
    rcases second.kept place missed.1, first.kept place missed.2 with
      ⟨same | ⟨free, made, file, listed, onTheWay⟩,
        same' | ⟨free', made', file', listed', onTheWay'⟩⟩
    · exact .inl (same.trans same')
    · exact .inr ⟨free', same.trans made', file', List.mem_append_left _ listed',
        onTheWay'.later second.develops⟩
    · exact .inr ⟨same' ▸ free, made, file, List.mem_append_right _ listed, onTheWay⟩
    · simp [made'] at free

end Contents

/-! ## Same files -/

/-- The same files with the same contents stand in two trees. -/
def SameFiles (before after : FileTree) : Prop :=
  ∀ place content,
    after.get? place = some (.file content) ↔ before.get? place = some (.file content)

theorem SameFiles.refl (tree : FileTree) : SameFiles tree tree :=
  fun _ _ => Iff.rfl

/-- A batch leaves the files as they were exactly if each content that it puts in its place stood
there before. -/
theorem Wrote.sameFiles_iff {batch : List (FilePath × ByteArray)} {before after : FileTree}
    (wrote : Wrote batch before after) :
    SameFiles before after ↔ ∀ place content, contentAt after batch place = some content →
      before.get? place = some (.file content) := by
  constructor
  · intro same place content found
    exact (same place content).mp (wrote.written place content found)
  · intro stood place content
    cases found : contentAt after batch place with
    | some last => rw [wrote.written place last found, stood place last found]
    | none =>
        rcases wrote.kept place found with same | ⟨free, made, _⟩
        · rw [same]
        · simp [free, made]

/-! ## Runs -/

section Runs

variable {config : OutputConfig} {batch : List (FilePath × ByteArray)} {tree after : FileTree}
  {report : Report}

theorem wrote_of_writeFor {path : FilePath} {content : ByteArray}
    (succeeded : runIn (writeFor config path content) tree = (.ok (), after)) :
    Wrote [(path, content)] tree after := by
  obtain ⟨middle, makes, ⟨error, failed⟩ | ⟨written, puts, run⟩⟩ :=
    runIn_writeFor config path content tree
  · cases failed.symm.trans succeeded
  · cases run.symm.trans succeeded
    exact .single makes puts

/-- The first file of a batch is written and the others are tried, or it fails and they are not. -/
theorem writeEach_cons_cases {path : FilePath} {content : ByteArray}
    (run : (writeEach config ((path, content) :: batch) : StateM FileTree Report).run tree =
      (report, after)) :
    (∃ error, runIn (writeFor config path content) tree = (.error error, after) ∧
      report = ⟨[], .error error⟩) ∨
    ∃ middle others, runIn (writeFor config path content) tree = (.ok (), middle) ∧
      (writeEach config batch : StateM FileTree Report).run middle = (others, after) ∧
      report = { others with written := ⟨path, content.size⟩ :: others.written } := by
  rw [run_writeEach_cons] at run
  rcases first : runIn (writeFor config path content) tree with ⟨error | _, middle⟩
  · rw [first] at run
    cases run
    exact .inl ⟨error, rfl, rfl⟩
  · rw [first] at run
    cases run
    exact .inr ⟨middle, _, rfl, rfl, rfl⟩

theorem writeEach_of_ok
    (run : (writeEach config batch : StateM FileTree Report).run tree = (report, after))
    (succeeded : report.result = .ok ()) :
    Wrote batch tree after ∧
      report.written = batch.map fun file => ⟨file.1, file.2.size⟩ := by
  induction batch generalizing tree report with
  | nil =>
      cases run
      exact ⟨.nil _, rfl⟩
  | cons file rest induction =>
      obtain ⟨path, content⟩ := file
      rcases writeEach_cons_cases run with ⟨error, _, rfl⟩ | ⟨middle, others, first, next, rfl⟩
      · cases succeeded
      · obtain ⟨wrote, told⟩ := induction next succeeded
        exact ⟨(wrote_of_writeFor first).append wrote, by rw [List.map_cons, told]⟩

/-- A batch that fails has written the files before the one that fails, as a batch of these alone
does, and has not tried those behind it. -/
theorem writeEach_of_error {error : OutputError}
    (run : (writeEach config batch : StateM FileTree Report).run tree = (report, after))
    (failed : report.result = .error error) :
    ∃ earlier path content later middle, batch = earlier ++ (path, content) :: later ∧
      (writeEach config earlier : StateM FileTree Report).run tree =
        (⟨report.written, .ok ()⟩, middle) ∧
      runIn (writeFor config path content) middle = (.error error, after) := by
  induction batch generalizing tree report with
  | nil =>
      cases run
      cases failed
  | cons file rest induction =>
      obtain ⟨path, content⟩ := file
      rcases writeEach_cons_cases run with ⟨cause, first, rfl⟩ | ⟨middle, others, first, next, rfl⟩
      · cases failed
        exact ⟨[], path, content, rest, tree, rfl, rfl, first⟩
      · obtain ⟨earlier, path', content', later, last, rfl, written, refused⟩ :=
          induction next failed
        refine ⟨(path, content) :: earlier, path', content', later, last, rfl, ?_, refused⟩
        rw [run_writeEach_cons, first]
        simp only [written]

/-- Where nothing is to be replaced, a file that is written is a new one unless its path steps
back. -/
theorem exists_new_of_writeNew {path : FilePath} {content : ByteArray} {atomic checked : Bool}
    (rooted : tree.IsRooted) (direct : ".." ∉ path.components)
    (succeeded : runIn (writeNew path content atomic checked) tree = (.ok (), after)) :
    ∃ place, tree.get? place = none ∧ after.get? place = some (.file content) := by
  obtain ⟨way, makes, ⟨error, failed⟩ | ⟨nothing, written, puts, run⟩⟩ :=
    runIn_writeNew path content atomic checked tree
  · cases failed.symm.trans succeeded
  · cases run.symm.trans succeeded
    obtain ⟨place, leads, noDirectory, rfl⟩ := FileTree.write_eq_ok_iff.mp puts
    refine ⟨place, ?_, FileTree.get?_put_self noDirectory _⟩
    by_contra stands
    have detour := detour_of_stands rooted (.refl tree) makes.toAddsDirectories nothing leads
      stands stands
    exact direct detour.back

theorem not_sameFiles_of_writeEach {atomic : Bool} {path : FilePath} {content : ByteArray}
    (rooted : tree.IsRooted) (direct : ".." ∉ path.components)
    (run : (writeEach ⟨.errorIfExists, atomic⟩ ((path, content) :: batch) :
      StateM FileTree Report).run tree = (report, after))
    (succeeded : report.result = .ok ()) : ¬SameFiles tree after := by
  rcases writeEach_cons_cases run with ⟨error, _, rfl⟩ | ⟨middle, others, first, next, rfl⟩
  · cases succeeded
  · obtain ⟨place, free, stands⟩ := exists_new_of_writeNew rooted direct first
    obtain ⟨entry, stands, isFile⟩ :=
      (writeEach_of_ok next succeeded).1.develops.kind place _ stands
    intro same
    cases entry with
    | directory => cases isFile
    | file last =>
        rw [(same place last).mp stands] at free
        cases free

end Runs

/-! ## Refused batches -/

/-- The path of a generated file: in a directory it has its name, otherwise the output is its
path. -/
def targetOf (output : String) (inDirectory : Bool) (name : String) : FilePath :=
  if inDirectory then (FilePath.ofText output).join (.ofText name) else .ofText output

/-- The paths and contents of generated files. -/
def batchOf (output : String) (inDirectory : Bool) (files : List (String × ByteArray)) :
    List (FilePath × ByteArray) :=
  files.map fun file => (targetOf output inDirectory file.1, file.2)

theorem targets_eq (files : List (String × ByteArray)) (output : String) (inDirectory : Bool) :
    targets files output inDirectory =
      if inDirectory = true ∨ files.length ≤ 1 then .ok (batchOf output inDirectory files)
      else .error (.notDirectory files.length) := by
  cases inDirectory with
  | true => rfl
  | false =>
      by_cases several : files.length > 1
      · simp [targets, several, Nat.not_le.mpr several]
      · simp [targets, several, Nat.le_of_not_lt several, batchOf, targetOf]

/-- Files that stand in the order of their names are written in this order. -/
theorem run_writeAll_of_ordered {files : List (String × ByteArray)} {output : String}
    {inDirectory : Bool} {tree : FileTree}
    (looked : runIn (isDirectoryOutput output) tree = (.ok inDirectory, tree))
    (ordered : files.Pairwise fun first second => first.1 ≤ second.1)
    (fits : inDirectory = true ∨ files.length ≤ 1) (config : OutputConfig) :
    (writeAll files output config : StateM FileTree Report).run tree =
      (writeEach config (batchOf output inDirectory files) : StateM FileTree Report).run tree := by
  rw [run_writeAll_of_looked looked, Text.sortedBy_eq_self ordered, targets_eq, if_pos fits]

/-- A batch that is refused has written the files before the refused one. -/
theorem writeAll_of_refusal {tree after : FileTree} {files : List (String × ByteArray)}
    {output : String} {config : OutputConfig} {report : Report} {error : OutputError}
    (run : (writeAll files output config : StateM FileTree Report).run tree = (report, after))
    (failed : report.result = .error error) (refusal : error.IsRefusal) :
    ∃ inDirectory earlier refused later,
      runIn (isDirectoryOutput output) tree = (.ok inDirectory, tree) ∧
      Text.sortedBy (·.1) files = earlier ++ refused :: later ∧
      (inDirectory = false → earlier = []) ∧
      (inDirectory = false ∧ error = .notDirectory files.length ∨
        IsRefused config after (targetOf output inDirectory refused.1) refused.2 error) ∧
      (writeEach config (batchOf output inDirectory earlier) : StateM FileTree Report).run tree =
        (⟨report.written, .ok ()⟩, after) := by
  obtain ⟨cause | inDirectory, looked⟩ := run_isDirectoryOutput output tree
  · rw [run_writeAll_of_unlooked looked] at run
    cases run
    cases failed
    exact absurd refusal (neverRefuses_isDirectoryOutput output _ _ (congrArg Prod.fst looked))
  · refine ⟨inDirectory, ?_⟩
    have size := (Text.sortedBy_perm (·.1) files).length_eq
    rw [run_writeAll_of_looked looked, targets_eq, size] at run
    by_cases fits : inDirectory = true ∨ files.length ≤ 1
    · rw [if_pos fits] at run
      obtain ⟨batch, path, content, later, middle, split, written, stopped⟩ :=
        writeEach_of_error run failed
      obtain ⟨rfl, refused⟩ := writeFor_of_refusal stopped refusal
      obtain ⟨earlier, behind, ordered, rfl, rest⟩ := List.map_eq_append_iff.mp split
      obtain ⟨file, others, rfl, same, _⟩ := List.map_eq_cons_iff.mp rest
      cases same
      refine ⟨earlier, file, others, looked, ordered, fun single => ?_, .inr refused, written⟩
      -- Where the output is no directory there is one file, so none comes before it.
      have few : files.length ≤ 1 := fits.resolve_left (by simp [single])
      rw [← size, ordered, List.length_append, List.length_cons] at few
      exact List.length_eq_zero_iff.mp (by omega)
    · rw [if_neg fits] at run
      cases run
      cases failed
      obtain ⟨single, several⟩ := not_or.mp fits
      cases ordered : Text.sortedBy (·.1) files with
      | nil =>
          rw [ordered, List.length_nil] at size
          omega
      | cons file others =>
          exact ⟨[], file, others, looked, rfl, fun _ => rfl,
            .inl ⟨Bool.eq_false_of_not_eq_true single, rfl⟩, rfl⟩

/-- A batch that is refused changes what the files before the refused one change by themselves, and
nothing else.  These come before it in the order of names, they are in place with their contents,
and no other file has been made or changed.  So nothing at all has changed if the refused file comes
first, as it does where the output is no directory.  The files are as they were exactly if each
content that was put in its place stood there before; in a run that is to replace nothing, and whose
paths do not step back, this is to say that the refused file comes first. -/
theorem refused_batch_changes {tree after : FileTree} {files : List (String × ByteArray)}
    {output : String} {config : OutputConfig} {report : Report} {error : OutputError}
    (run : (writeAll files output config : StateM FileTree Report).run tree = (report, after))
    (failed : report.result = .error error) (refusal : error.IsRefusal) :
    ∃ inDirectory earlier refused later,
      runIn (isDirectoryOutput output) tree = (.ok inDirectory, tree) ∧
      Text.sortedBy (·.1) files = earlier ++ refused :: later ∧
      (inDirectory = false ∧ error = .notDirectory files.length ∨
        IsRefused config after (targetOf output inDirectory refused.1) refused.2 error) ∧
      (writeAll earlier output config : StateM FileTree Report).run tree =
        (⟨report.written, .ok ()⟩, after) ∧
      (inDirectory = false → earlier = []) ∧ (earlier = [] → after = tree) ∧
      let batch := batchOf output inDirectory earlier
      (report.written = batch.map fun file => ⟨file.1, file.2.size⟩) ∧
      Wrote batch tree after ∧
      (SameFiles tree after ↔ ∀ place content, contentAt after batch place = some content →
        tree.get? place = some (.file content)) ∧
      (config.mode = .errorIfExists → tree.IsRooted →
        (∀ file ∈ batch, ".." ∉ file.1.components) → (SameFiles tree after ↔ earlier = [])) := by
  obtain ⟨inDirectory, earlier, refused, later, looked, ordered, single, reason, written⟩ :=
    writeAll_of_refusal run failed refusal
  obtain ⟨wrote, told⟩ := writeEach_of_ok written rfl
  have fits : inDirectory = true ∨ earlier.length ≤ 1 := by
    cases inDirectory with
    | true => exact .inl rfl
    | false => simp [single rfl]
  have unchanged : earlier = [] → after = tree := by
    rintro rfl
    exact (congrArg Prod.snd written).symm
  have inOrder : earlier.Pairwise fun first second => first.1 ≤ second.1 := by
    have pairwise := Text.pairwise_sortedBy (·.1) files
    rw [ordered] at pairwise
    exact (List.pairwise_append.mp pairwise).1
  refine ⟨inDirectory, earlier, refused, later, looked, ordered, reason, ?_, single, unchanged,
    told, wrote, wrote.sameFiles_iff, fun mode rooted direct => ⟨fun same => ?_, ?_⟩⟩
  · rw [run_writeAll_of_ordered looked inOrder fits, written]
  · by_contra nonempty
    obtain ⟨file, others, rfl⟩ := List.exists_cons_of_ne_nil nonempty
    obtain ⟨_, atomic⟩ := config
    obtain rfl : _ = OutputMode.errorIfExists := mode
    exact not_sameFiles_of_writeEach rooted (direct _ List.mem_cons_self) written rfl same
  · intro first
    rw [unchanged first]
    exact .refl tree

/-- Of three files the second one is there already: the first one is written and the third one is
not. -/
theorem refused_batch_changes_of_second :
    let tree := singleFile "b.kt" "old".toUTF8
    let first : String × ByteArray := ("a.kt", "new".toUTF8)
    let files := [first, ("b.kt", "new".toUTF8), ("c.kt", "new".toUTF8)]
    let (report, after) :=
      (writeAll files "." ⟨.errorIfExists, true⟩ : StateM FileTree Report).run tree
    report.result = .error (.taken (.ofText "b.kt")) ∧
      OutputError.IsRefusal (.taken (.ofText "b.kt")) ∧
      (writeAll [first] "." ⟨.errorIfExists, true⟩ : StateM FileTree Report).run tree =
        (⟨report.written, .ok ()⟩, after) ∧
      Wrote [(.ofText "a.kt", "new".toUTF8)] tree after ∧ ¬SameFiles tree after := by
  intro tree first files
  have looked : runIn (isDirectoryOutput ".") tree = (.ok true, tree) := by decide +kernel
  have inOrder : files.Pairwise fun first second => first.1 ≤ second.1 := by decide +kernel
  have written := run_writeAll_of_ordered looked inOrder (.inl rfl) ⟨.errorIfExists, true⟩
  have outcome :
      let run := (writeEach ⟨.errorIfExists, true⟩ (batchOf "." true files) :
        StateM FileTree Report).run tree
      run.1.result = .error (.taken (.ofText "b.kt")) ∧ run.1.written.length = 1 := by
    decide +kernel
  rw [← written] at outcome
  rcases ran : (writeAll files "." ⟨.errorIfExists, true⟩ : StateM FileTree Report).run tree with
    ⟨report, after⟩
  rw [ran] at outcome
  obtain ⟨taken, one⟩ := outcome
  obtain ⟨inDirectory, earlier, refused, later, looked', ordered, _, alone, _, _, told, wrote, _,
    changes⟩ := refused_batch_changes ran taken trivial
  cases looked'.symm.trans looked
  rw [Text.sortedBy_eq_self inOrder] at ordered
  have front : earlier = [first] := by
    rw [told, List.length_map, batchOf, List.length_map] at one
    rw [← List.take_left' one, ← ordered]
    rfl
  subst front
  have batch : batchOf "." true [first] = [(.ofText "a.kt", "new".toUTF8)] := by decide +kernel
  have changed := (changes rfl (by decide +kernel) (by decide +kernel)).not.mpr
  exact ⟨taken, trivial, alone, batch ▸ wrote, changed (List.cons_ne_nil _ _)⟩

/-- A file is made by a batch that is refused, because something stands at the path of the next file
or because its content is blank. -/
theorem not_sameFiles_of_refusal :
    let tree := singleFile "b.kt" "old".toUTF8
    let files (second : String) := [("a.kt", "new".toUTF8), ("b.kt", second.toUTF8)]
    let run := (writeAll (files "new") "." ⟨.errorIfExists, true⟩ : StateM FileTree Report).run tree
    let forced := (writeAll (files " ") "." ⟨.force, true⟩ : StateM FileTree Report).run tree
    (run.1.result = .error (.taken (.ofText "b.kt")) ∧ ¬SameFiles tree run.2) ∧
      forced.1.result = .error .blank ∧ ¬SameFiles tree forced.2 := by
  intro tree files run forced
  have looked : runIn (isDirectoryOutput ".") tree = (.ok true, tree) := by decide +kernel
  have inOrder (second : String) :
      (files second).Pairwise fun first second => first.1 ≤ second.1 := by simp [files]
  have free : tree.get? ["work", "a.kt"] ≠ some (.file "new".toUTF8) := by decide +kernel
  have written : run = (writeEach ⟨.errorIfExists, true⟩ (batchOf "." true (files "new")) :
      StateM FileTree Report).run tree := run_writeAll_of_ordered looked (inOrder _) (.inl rfl) _
  have written' : forced = (writeEach ⟨.force, true⟩ (batchOf "." true (files " ")) :
      StateM FileTree Report).run tree := run_writeAll_of_ordered looked (inOrder _) (.inl rfl) _
  rw [written, written']
  refine ⟨⟨?_, fun same => free ((same _ _).mp ?_)⟩, ?_, fun same => free ((same _ _).mp ?_)⟩
  all_goals decide +kernel

end Output
end ProtocolCodegen
