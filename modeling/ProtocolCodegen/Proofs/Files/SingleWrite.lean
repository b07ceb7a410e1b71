import Mathlib
import ProtocolCodegen.Proofs.Files.Writing

/-!
# A single write

A write either succeeds, and then its content stands at the path, or it fails, and then no file has
changed and none is left behind.  In both cases all else that is new is directories on the way,
which were missing.
-/

namespace ProtocolCodegen
namespace Output

/-- What stands at a place is what stood there, or a directory on the way of a path where nothing
stood. -/
def IsKept (way : FilePath) (before after : FileTree) (place : Place) : Prop :=
  after.get? place = before.get? place ∨
    before.get? place = none ∧ after.get? place = some .directory ∧ OnTheWay after way place

section Keeping

variable {way : FilePath} {before middle after : FileTree} {place : Place}

theorem IsKept.file_iff (kept : IsKept way before after place) {content : ByteArray} :
    after.get? place = some (.file content) ↔ before.get? place = some (.file content) := by
  rcases kept with same | ⟨free, made, _⟩
  · rw [same]
  · simp [free, made]

theorem MakesWay.isKept (makes : MakesWay way before after) (place : Place) :
    IsKept way before after place := by
  rcases makes.get? place with same | ⟨free, made⟩
  · exact .inl same
  · exact .inr ⟨free, made, makes.onTheWay place free (by simp [made])⟩

/-- A place is kept where something else is put. -/
theorem IsKept.put (kept : IsKept way before middle place) {target : Place}
    (different : place ≠ target) {entry : Entry}
    (develops : middle.Develops (middle.put target entry)) :
    IsKept way before (middle.put target entry) place := by
  have same : (middle.put target entry).get? place = middle.get? place :=
    FileTree.get?_put_of_ne (Ne.symm different) entry
  rcases kept with unchanged | ⟨free, made, onTheWay⟩
  · exact .inl (same.trans unchanged)
  · exact .inr ⟨free, same.trans made, onTheWay.later develops⟩

end Keeping

/-- A path that leads to a place after a tree has grown led there before, or a directory on it was
missing. -/
theorem locate_before_of_develops {before after : FileTree} (develops : before.Develops after)
    {path : FilePath} {place : Place} (leads : after.locate path = .ok place) :
    before.locate path = .ok place ∨ before.locate path = .error .notFound := by
  by_cases missing : before.locate path = .error .notFound
  · exact .inr missing
  · rw [FileTree.locate_eq_of_develops develops missing] at leads
    exact .inl leads

/-- A write is all or nothing.  If it succeeds, the path leads to a file with the content, to which
it led before unless a directory on the way was missing, and all other places are kept.  If it
fails, all places are kept, so that every file is as it was and no other file is there.  What is new
at a kept place is a directory on the way. -/
theorem write_all_or_nothing (tree : FileTree) (path : FilePath) (content : ByteArray)
    (atomic checked : Bool) :
    match runIn (write path content atomic checked) tree with
    | (.ok _, after) =>
        ∃ place, after.locate path = .ok place ∧ after.get? place = some (.file content) ∧
          (tree.locate path = .ok place ∨ tree.locate path = .error .notFound) ∧
          ∀ other, other ≠ place → IsKept path.parent tree after other ∧
            ∀ old, after.get? other = some (.file old) ↔ tree.get? other = some (.file old)
    | (.error _, after) =>
        ∀ place, IsKept path.parent tree after place ∧
          ∀ old, after.get? place = some (.file old) ↔ tree.get? place = some (.file old) := by
  obtain ⟨middle, makes, ⟨error, failed⟩ | ⟨after, written, succeeded⟩⟩ :=
    runIn_write path content atomic checked tree
  · rw [failed]
    exact fun place => ⟨makes.isKept place, fun _ => makes.file_iff⟩
  · rw [succeeded]
    have develops := develops_of_write written
    obtain ⟨place, leads, noDirectory, rfl⟩ := FileTree.write_eq_ok_iff.mp written
    have nonempty : place.isEmpty = false := by
      cases place with
      | nil => exact absurd rfl noDirectory
      | cons name names => rfl
    refine ⟨place, ?_, ?_, ?_, fun other different => ?_⟩
    · rw [FileTree.locate_eq_of_develops develops (by simp [leads]), leads]
    · simp [FileTree.get?_put, nonempty]
    · exact locate_before_of_develops makes.extends.develops leads
    · have kept := (makes.isKept other).put different develops
      exact ⟨kept, fun _ => kept.file_iff⟩

/-- A missing directory is made on the way to a file. -/
example :
    let empty : FileTree := .ofEntries ["work"] [] []
    let (result, after) := runIn (write (.ofText "a/b.kt") "new".toUTF8 true true) empty
    result = .ok () ∧
      after.listing = [(["a"], .directory), (["a", "b.kt"], .file "new".toUTF8)] := by
  decide +kernel

/-- Where a directory stands nothing can be written, and the temporary file is gone. -/
example :
    let occupied : FileTree := .ofEntries ["work"] [["a"]] []
    let (result, after) := runIn (write (.ofText "a") "new".toUTF8 true true) occupied
    result = .error (.file .isDirectory) ∧ after = occupied := by
  decide +kernel

end Output
end ProtocolCodegen
