import Mathlib
import ProtocolCodegen.Files.Output
import ProtocolCodegen.Proofs.Files.Trees

/-!
# Writing in a tree

What the steps of an output do to a directory tree.  Making directories only adds directories, and a
write that succeeds puts the content at the place to which the path leads by then, whether or not it
goes through a temporary file; a write that fails leaves no file behind.
-/

namespace ProtocolCodegen
namespace Output

section Programs

variable {α β : Type}

/-- What a program yields in a directory tree, and the tree that it leaves. -/
def runIn (program : ExceptT OutputError (StateM FileTree) α) (tree : FileTree) :
    Except OutputError α × FileTree :=
  program.run.run tree

theorem runIn_bind (program : ExceptT OutputError (StateM FileTree) α)
    (next : α → ExceptT OutputError (StateM FileTree) β) (tree : FileTree) :
    runIn (program >>= next) tree =
      match runIn program tree with
      | (.ok value, after) => runIn (next value) after
      | (.error error, after) => (.error error, after) := by
  rcases outcome : runIn program tree with ⟨_ | _, after⟩
  all_goals
    simp only [runIn, ExceptT.run, StateT.run] at outcome ⊢
    simp [bind, ExceptT.bind, ExceptT.mk, StateT.bind, ExceptT.bindCont, outcome, pure, StateT.pure]

@[simp]
theorem runIn_throw (error : OutputError) (tree : FileTree) :
    runIn (throw error : ExceptT OutputError (StateM FileTree) α) tree = (.error error, tree) := rfl

theorem runIn_lift (step : StateM FileTree α) (tree : FileTree) :
    runIn (ExceptT.lift step) tree = (.ok (step.run tree).1, (step.run tree).2) := rfl

theorem runIn_attempt (step : StateM FileTree (Except FileError α)) (tree : FileTree) :
    runIn (attempt step) tree = ((step.run tree).1.mapError .file, (step.run tree).2) := rfl

/-- Whatever a program yields, the tree that it leaves is related to the tree in which it runs. -/
def Leaves (related : FileTree → FileTree → Prop)
    (program : ExceptT OutputError (StateM FileTree) α) : Prop :=
  ∀ tree, related tree (runIn program tree).2

theorem Leaves.bind {related : FileTree → FileTree → Prop}
    {program : ExceptT OutputError (StateM FileTree) α}
    {next : α → ExceptT OutputError (StateM FileTree) β}
    (trans : ∀ {before middle after}, related before middle → related middle after →
      related before after)
    (first : Leaves related program) (second : ∀ value, Leaves related (next value)) :
    Leaves related (program >>= next) := by
  intro tree
  have related_first := first tree
  rw [runIn_bind]
  rcases outcome : runIn program tree with ⟨error | value, middle⟩
  · rwa [outcome] at related_first
  · rw [outcome] at related_first
    exact trans related_first (second value middle)

end Programs

/-! ## Looking -/

theorem run_kind (path : FilePath) (tree : FileTree) :
    (FileStore.kind path : StateM FileTree _).run tree = (tree.kind path, tree) := rfl

theorem runIn_isTaken (path : FilePath) (tree : FileTree) :
    runIn (isTaken path) tree =
      (((tree.kind path).map Option.isSome).mapError .file, tree) := by
  rw [isTaken, runIn_bind, runIn_attempt, run_kind]
  cases tree.kind path <;> rfl

theorem runIn_isDirectory (path : FilePath) (tree : FileTree) :
    runIn (isDirectory path) tree =
      (((tree.kind path).map (· == some .directory)).mapError .file, tree) := by
  rw [isDirectory, runIn_bind, runIn_attempt, run_kind]
  cases tree.kind path <;> rfl

/-! ## Making directories -/

/-- All that one tree has more than another one is directories. -/
structure AddsDirectories (before after : FileTree) : Prop where
  workingDirectory : after.workingDirectory = before.workingDirectory
  get? : ∀ place, after.get? place = before.get? place ∨
    before.get? place = none ∧ after.get? place = some .directory

theorem AddsDirectories.refl (tree : FileTree) : AddsDirectories tree tree :=
  ⟨rfl, fun _ => .inl rfl⟩

theorem AddsDirectories.trans {before middle after : FileTree}
    (first : AddsDirectories before middle) (second : AddsDirectories middle after) :
    AddsDirectories before after where
  workingDirectory := second.workingDirectory.trans first.workingDirectory
  get? place := by
    rcases second.get? place with same | ⟨free, made⟩
    · rw [same]
      exact first.get? place
    · rcases first.get? place with same | ⟨_, made'⟩
      · exact .inr ⟨same ▸ free, made⟩
      · rw [made'] at free
        cases free

theorem AddsDirectories.extends {before after : FileTree} (added : AddsDirectories before after) :
    before.Extends after where
  workingDirectory := added.workingDirectory
  kept place entry stands := by
    rcases added.get? place with same | ⟨free, _⟩
    · rw [same, stands]
    · rw [free] at stands
      cases stands

theorem addsDirectories_put {tree : FileTree} {place : Place} (free : tree.get? place = none) :
    AddsDirectories tree (tree.put place .directory) where
  workingDirectory := rfl
  get? other := by
    rw [FileTree.get?_put]
    by_cases root : other.isEmpty
    · rw [if_pos root, FileTree.get?, if_pos root]
      exact .inl rfl
    · rw [if_neg root]
      split
      · rename_i same
        exact .inr ⟨same ▸ free, rfl⟩
      · exact .inl rfl

theorem AddsDirectories.file_iff {before after : FileTree} (added : AddsDirectories before after)
    {place : Place} {content : ByteArray} :
    after.get? place = some (.file content) ↔ before.get? place = some (.file content) := by
  rcases added.get? place with same | ⟨free, made⟩
  · rw [same]
  · simp [free, made]

/-- A place lies on the way of a path: a beginning of the path leads to it. -/
def OnTheWay (tree : FileTree) (path : FilePath) (place : Place) : Prop :=
  ∃ names, names <+: path.components ∧ tree.locate ⟨path.slashes, names⟩ = .ok place

theorem OnTheWay.later {before after : FileTree} {path : FilePath} {place : Place}
    (onTheWay : OnTheWay before path place) (develops : before.Develops after) :
    OnTheWay after path place := by
  obtain ⟨names, begins, leads⟩ := onTheWay
  refine ⟨names, begins, ?_⟩
  rw [FileTree.locate_eq_of_develops develops (by simp [leads]), leads]

/-- All that one tree has more than another one is directories on the way of a path. -/
structure MakesWay (path : FilePath) (before after : FileTree) : Prop
    extends AddsDirectories before after where
  onTheWay : ∀ place, before.get? place = none → after.get? place ≠ none →
    OnTheWay after path place

theorem MakesWay.refl (path : FilePath) (tree : FileTree) : MakesWay path tree tree where
  toAddsDirectories := .refl tree
  onTheWay _ free stands := absurd free stands

theorem MakesWay.trans {path : FilePath} {before middle after : FileTree}
    (first : MakesWay path before middle) (second : MakesWay path middle after) :
    MakesWay path before after where
  toAddsDirectories := first.toAddsDirectories.trans second.toAddsDirectories
  onTheWay place free stands := by
    by_cases made : middle.get? place = none
    · exact second.onTheWay place made stands
    · exact (first.onTheWay place free made).later second.extends.develops

theorem MakesWay.mono {slashes : Nat} {names others : List String} {before after : FileTree}
    (makes : MakesWay ⟨slashes, names⟩ before after) (begins : names <+: others) :
    MakesWay ⟨slashes, others⟩ before after where
  toAddsDirectories := makes.toAddsDirectories
  onTheWay place free stands := by
    obtain ⟨first, begins', leads⟩ := makes.onTheWay place free stands
    exact ⟨first, begins'.trans begins, leads⟩

theorem makesWay_make {tree after : FileTree} {path : FilePath}
    (made : tree.make path .directory = .ok after) : MakesWay path tree after := by
  obtain ⟨place, located, free, rfl⟩ := FileTree.make_eq_ok_iff.mp made
  have added := addsDirectories_put free
  refine ⟨added, fun other freeBefore stands => ?_⟩
  have same : place = other := by
    by_contra different
    rw [FileTree.get?_put, if_neg different, freeBefore] at stands
    split at stands
    · rename_i root
      rw [FileTree.get?, if_pos root] at freeBefore
      cases freeBefore
    · exact stands rfl
  subst same
  have leads : OnTheWay tree path place := ⟨path.components, List.prefix_rfl, located⟩
  exact leads.later added.extends.develops

theorem run_makeDirectory (path : FilePath) (tree : FileTree) :
    (FileStore.makeDirectory path : StateM FileTree _).run tree =
      (FileTree.step (·.make path .directory)).run tree := rfl

theorem run_step (next : FileTree → Except FileError FileTree) (tree : FileTree) :
    (FileTree.step next).run tree =
      match next tree with
      | .ok changed => (.ok (), changed)
      | .error error => (.error error, tree) := rfl

theorem leaves_isDirectory (way path : FilePath) : Leaves (MakesWay way) (isDirectory path) := by
  intro tree
  rw [runIn_isDirectory]
  exact .refl way tree

theorem leaves_ensureDirectory (path : FilePath) :
    Leaves (MakesWay path) (ensureDirectory path) := by
  rw [ensureDirectory]
  refine .bind .trans ?_ ?_
  · intro tree
    rw [runIn_lift, run_makeDirectory, run_step]
    cases made : tree.make path .directory with
    | error error => exact .refl path tree
    | ok after => exact makesWay_make made
  · intro outcome
    split
    · exact .refl path
    · exact .refl path
    · refine .bind .trans (leaves_isDirectory path path) fun found => ?_
      cases found <;> exact .refl path

theorem leaves_makeDirectories (slashes : Nat) (components : List String) :
    Leaves (MakesWay ⟨slashes, components.reverse⟩) (makeDirectories slashes components) := by
  have failing (way : FilePath) (made : Bool) : Leaves (MakesWay way)
      (if !made then throw (.file .notFound) else pure PUnit.unit) := by
    cases made <;> exact .refl way
  induction components with
  | nil => exact .bind .trans (leaves_ensureDirectory _) (failing _)
  | cons component others induction =>
      refine .bind .trans (leaves_ensureDirectory _) fun made => ?_
      cases made with
      | true => exact .refl _
      | false =>
          have before : others.reverse <+: (component :: others).reverse := by simp
          exact .bind .trans (fun tree => (induction tree).mono before) fun _ =>
            .bind .trans (leaves_ensureDirectory _) (failing _)

/-! ## Putting a content in place -/

theorem run_create (path : FilePath) (content : ByteArray) (tree : FileTree) :
    (FileStore.create path content : StateM FileTree _).run tree =
      (FileTree.step (·.make path (.file content))).run tree := rfl

/-- A temporary file is made where nothing stands, or nothing is changed. -/
theorem runIn_createTemporary (path : FilePath) (content : ByteArray) (remaining : Nat)
    (tree : FileTree) :
    (∃ error, runIn (createTemporary path content remaining) tree = (.error error, tree)) ∨
      ∃ candidate after, tree.make candidate (.file content) = .ok after ∧
        runIn (createTemporary path content remaining) tree = (.ok candidate, after) := by
  induction remaining with
  | zero => exact .inl ⟨_, rfl⟩
  | succ remaining induction =>
      let candidate := temporary path (maxAttempts - (remaining + 1))
      rw [createTemporary]
      rw [runIn_bind, runIn_lift, run_create, run_step]
      rcases made : tree.make candidate (.file content) with error | after
      · cases error with
        | alreadyExists => exact induction
        | _ => exact .inl ⟨_, rfl⟩
      · exact .inr ⟨candidate, after, made, rfl⟩

theorem run_rename (path target : FilePath) (tree : FileTree) :
    (FileStore.rename path target : StateM FileTree _).run tree =
      (FileTree.step (·.rename path target)).run tree := rfl

theorem run_remove (path : FilePath) (tree : FileTree) :
    (FileStore.remove path : StateM FileTree _).run tree =
      (FileTree.step (·.remove path)).run tree := rfl

/-- A write through a temporary file succeeds as a plain write does, or leaves the tree as it
was. -/
theorem runIn_replace (path : FilePath) (content : ByteArray) (tree : FileTree) :
    (∃ error, runIn (replace path content) tree = (.error error, tree)) ∨
      ∃ after, tree.write path content = .ok after ∧
        runIn (replace path content) tree = (.ok (), after) := by
  rw [replace, runIn_bind]
  rcases runIn_createTemporary path content maxAttempts tree with
    ⟨error, failed⟩ | ⟨source, middle, made, created⟩
  · rw [failed]
    exact .inl ⟨error, rfl⟩
  · rw [created]
    simp only [runIn_bind, runIn_lift, run_rename, run_step]
    cases renamed : middle.rename source path with
    | ok after => exact .inr ⟨after, FileTree.write_of_rename made renamed, rfl⟩
    | error error =>
        obtain ⟨place, located, stands, erased⟩ := FileTree.exists_place_of_make made
        have taken : runIn (isTaken source) middle = (.ok true, middle) := by
          simp [runIn_isTaken, FileTree.kind, located, stands, Except.map, Except.mapError]
        have removed : middle.remove source = .ok tree := by
          simp [FileTree.remove, located, stands, erased, bind, Except.bind, pure, Except.pure]
        refine .inl ⟨.file error, ?_⟩
        simp [runIn_bind, taken, runIn_attempt, run_remove, run_step, removed, Except.mapError]

theorem develops_of_write {tree after : FileTree} {path : FilePath} {content : ByteArray}
    (written : tree.write path content = .ok after) : tree.Develops after := by
  obtain ⟨place, _, fileOrNothing, rfl⟩ := FileTree.write_eq_ok_iff.mp written
  refine FileTree.develops_put fun old stands => ?_
  cases old with
  | directory => exact absurd stands fileOrNothing
  | file old => rfl

theorem run_write (path : FilePath) (content : ByteArray) (tree : FileTree) :
    (FileStore.write path content : StateM FileTree _).run tree =
      (FileTree.step (·.write path content)).run tree := rfl

theorem runIn_check (content : ByteArray) (tree : FileTree) :
    runIn (ExceptT.mk (return check content)) tree = (check content, tree) := rfl

/-- A content is put at a path directly or through a temporary file, with the same effect. -/
theorem runIn_put (path : FilePath) (content : ByteArray) (atomic : Bool) (tree : FileTree) :
    (∃ error, runIn (if atomic then replace path content
        else attempt (FileStore.write path content)) tree = (.error error, tree)) ∨
      ∃ after, tree.write path content = .ok after ∧
        runIn (if atomic then replace path content
          else attempt (FileStore.write path content)) tree = (.ok (), after) := by
  cases atomic with
  | true => exact runIn_replace path content tree
  | false =>
      simp only [Bool.false_eq_true, if_false, runIn_attempt, run_write, run_step]
      cases tree.write path content with
      | error error => exact .inl ⟨.file error, rfl⟩
      | ok after => exact .inr ⟨after, rfl, rfl⟩

/-- A write with a check is the check and then a write without one. -/
theorem write_checked (path : FilePath) (content : ByteArray) (atomic : Bool) :
    (write path content atomic true : ExceptT OutputError (StateM FileTree) Unit) =
      ExceptT.mk (return check content) >>= fun _ => write path content atomic false := rfl

theorem write_unchecked (path : FilePath) (content : ByteArray) (atomic : Bool) :
    (write path content atomic false : ExceptT OutputError (StateM FileTree) Unit) =
      makeDirectories path.slashes path.components.dropLast.reverse >>= fun _ =>
        if atomic then replace path content else attempt (FileStore.write path content) := rfl

/-- A write makes directories; then it succeeds as a plain write does, or fails and leaves no file
behind. -/
theorem runIn_write (path : FilePath) (content : ByteArray) (atomic checked : Bool)
    (tree : FileTree) :
    ∃ middle, MakesWay path.parent tree middle ∧
      ((∃ error, runIn (write path content atomic checked) tree = (.error error, middle)) ∨
        ∃ after, middle.write path content = .ok after ∧
          runIn (write path content atomic checked) tree = (.ok (), after)) := by
  have written : ∃ middle, MakesWay path.parent tree middle ∧
      ((∃ error, runIn (write path content atomic false) tree = (.error error, middle)) ∨
        ∃ after, middle.write path content = .ok after ∧
          runIn (write path content atomic false) tree = (.ok (), after)) := by
    have directed := leaves_makeDirectories path.slashes path.components.dropLast.reverse tree
    rw [List.reverse_reverse] at directed
    rw [write_unchecked, runIn_bind]
    rcases made : runIn (makeDirectories path.slashes path.components.dropLast.reverse) tree with
      ⟨error | _, middle⟩
    · rw [made] at directed
      exact ⟨middle, directed, .inl ⟨error, rfl⟩⟩
    · rw [made] at directed
      exact ⟨middle, directed, runIn_put path content atomic middle⟩
  cases checked with
  | false => exact written
  | true =>
      rw [write_checked, runIn_bind, runIn_check]
      cases check content with
      | error error => exact ⟨tree, .refl _ tree, .inl ⟨error, rfl⟩⟩
      | ok valid => exact written

end Output
end ProtocolCodegen
