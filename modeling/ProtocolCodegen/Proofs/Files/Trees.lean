import ProtocolCodegen.Files.FileTree

/-!
# Steps on directory trees

A path that leads to a place leads there as long as what stands on the way stays of its kind, and
so a path that was blocked by a file stays blocked.  Only where a directory was missing can a path
lead somewhere later.  A file that was made and then moved is as good as one written at its target.
-/

namespace ProtocolCodegen

theorem Dictionary.erase_put_of_get?_eq_none {κ α : Type} [DecidableEq κ] {key : κ} {value : α}
    {dictionary : Dictionary κ α} (free : dictionary.get? key = none) :
    (dictionary.put key value).erase key = dictionary := by
  induction dictionary with
  | nil => simp [put, erase]
  | cons entry rest induction =>
      obtain ⟨other, old⟩ := entry
      rw [get?] at free
      split at free
      · cases free
      · rename_i different
        have kept : (put key value rest).erase key = rest := induction free
        simp only [erase] at kept ⊢
        rw [put, if_neg different, List.filter_cons_of_pos (by simpa using different), kept]

namespace FileTree

/-- What stands in a tree stands in another one too, files as files and directories as
directories. -/
structure Develops (before after : FileTree) : Prop where
  workingDirectory : after.workingDirectory = before.workingDirectory
  kind : ∀ place entry, before.get? place = some entry →
    ∃ later, after.get? place = some later ∧ later.kind = entry.kind

/-- What stands in a tree stands unchanged in another one. -/
structure Extends (before after : FileTree) : Prop where
  workingDirectory : after.workingDirectory = before.workingDirectory
  kept : ∀ place entry, before.get? place = some entry → after.get? place = some entry

/-- Whatever stands in a tree stands in a directory. -/
def IsRooted (tree : FileTree) : Prop :=
  ∀ place name, tree.get? (place ++ [name]) ≠ none → tree.get? place = some .directory

theorem isRooted_iff {tree : FileTree} :
    tree.IsRooted ↔
      ∀ entry ∈ tree.entries, tree.get? entry.1.dropLast = some .directory := by
  constructor
  · rintro rooted ⟨place, entry⟩ listed
    rcases List.eq_nil_or_concat place with rfl | ⟨init, name, rfl⟩
    · rfl
    · rw [List.concat_eq_append] at listed ⊢
      have known : (tree.entries.get? (init ++ [name])).isSome :=
        Dictionary.hasKey_iff_mem_keys.mpr (List.mem_map_of_mem listed)
      rw [List.dropLast_concat]
      exact rooted init name (by simpa [get?, Option.isSome_iff_ne_none] using known)
  · intro inDirectories place name stands
    obtain ⟨entry, found⟩ := Option.ne_none_iff_exists'.mp stands
    simp only [get?, List.isEmpty_iff, List.append_eq_nil_iff, List.cons_ne_nil, and_false,
      if_false] at found
    simpa using inDirectories _ (Dictionary.mem_of_get? found)

instance (tree : FileTree) : Decidable tree.IsRooted :=
  decidable_of_iff _ isRooted_iff.symm

/-- No file stands at the root. -/
theorem isEmpty_of_file {tree : FileTree} {place : Place} {content : ByteArray}
    (stands : tree.get? place = some (.file content)) : place.isEmpty = false := by
  cases place with
  | nil => cases stands
  | cons name names => rfl

theorem Extends.refl (tree : FileTree) : tree.Extends tree :=
  ⟨rfl, fun _ _ stands => stands⟩

theorem Extends.develops {before after : FileTree} (grown : before.Extends after) :
    before.Develops after where
  workingDirectory := grown.workingDirectory
  kind place entry stands := ⟨entry, grown.kept place entry stands, rfl⟩

theorem Develops.refl (tree : FileTree) : tree.Develops tree :=
  (Extends.refl tree).develops

theorem Develops.trans {before middle after : FileTree} (first : before.Develops middle)
    (second : middle.Develops after) : before.Develops after where
  workingDirectory := second.workingDirectory.trans first.workingDirectory
  kind place entry stands := by
    obtain ⟨later, stands, same⟩ := first.kind place entry stands
    obtain ⟨last, stands, same'⟩ := second.kind place later stands
    exact ⟨last, stands, same'.trans same⟩

theorem get?_put_self {tree : FileTree} {place : Place} (inner : tree.get? place ≠ some .directory)
    (entry : Entry) : (tree.put place entry).get? place = some entry := by
  cases place with
  | nil => exact absurd rfl inner
  | cons name names => simp [get?_put]

theorem get?_put_of_ne {tree : FileTree} {place other : Place} (different : place ≠ other)
    (entry : Entry) : (tree.put place entry).get? other = tree.get? other := by
  rw [get?_put, if_neg different, get?]
  split <;> rfl

theorem extends_put {tree : FileTree} {place : Place} (free : tree.get? place = none)
    (entry : Entry) : tree.Extends (tree.put place entry) where
  workingDirectory := rfl
  kept other stood stands := by
    rw [get?_put]
    split
    · rename_i root
      rw [get?, if_pos root] at stands
      exact stands
    · have different : place ≠ other := by
        rintro rfl
        rw [free] at stands
        cases stands
      rw [if_neg different, stands]

theorem develops_put {tree : FileTree} {place : Place} {entry : Entry}
    (same : ∀ old, tree.get? place = some old → old.kind = entry.kind) :
    tree.Develops (tree.put place entry) where
  workingDirectory := rfl
  kind other stood stands := by
    rw [get?_put]
    split
    · rename_i root
      rw [get?, if_pos root] at stands
      cases stands
      exact ⟨.directory, rfl, rfl⟩
    · split
      · rename_i equal
        exact ⟨entry, rfl, (same stood (equal ▸ stands)).symm⟩
      · exact ⟨stood, stands, rfl⟩

/-! ## Following a path -/

theorem descend_eq_of_develops {before after : FileTree} (develops : before.Develops after)
    {place : Place} {component : String}
    (found : before.descend place component ≠ .error .notFound) :
    after.descend place component = before.descend place component := by
  rw [descend, descend]
  cases stands : before.get? place with
  | none => exact absurd (by rw [descend, stands]) found
  | some entry =>
      obtain ⟨later, stands', same⟩ := develops.kind place entry stands
      rw [stands']
      rcases entry with _ | content <;> rcases later with _ | content'
      · rfl
      · cases same
      · cases same
      · rfl

theorem foldlM_descend_eq_of_develops {before after : FileTree}
    (develops : before.Develops after) {components : List String} {place : Place}
    (found : components.foldlM before.descend place ≠ .error .notFound) :
    components.foldlM after.descend place = components.foldlM before.descend place := by
  induction components generalizing place with
  | nil => rfl
  | cons component rest induction =>
      rw [List.foldlM_cons] at found
      rw [List.foldlM_cons, List.foldlM_cons]
      cases next : before.descend place component with
      | error error =>
          have here : before.descend place component ≠ .error .notFound := by
            rintro equal
            rw [equal] at found
            exact found rfl
          rw [descend_eq_of_develops develops here, next]
          rfl
      | ok middle =>
          have here : before.descend place component ≠ .error .notFound := by
            rw [next]
            nofun
          rw [descend_eq_of_develops develops here, next]
          rw [next] at found
          exact induction found

/-- A path leads where it led before, unless a directory on the way was missing. -/
theorem locate_eq_of_develops {before after : FileTree} (develops : before.Develops after)
    {path : FilePath} (found : before.locate path ≠ .error .notFound) :
    after.locate path = before.locate path := by
  have start_eq : after.start path = before.start path := by
    rw [start, start, develops.workingDirectory]
  rw [locate] at found
  rw [locate, locate, start_eq]
  split
  · rfl
  · rename_i clean
    rw [if_neg clean] at found
    split
    · rename_i short
      rw [if_pos short] at found
      exact foldlM_descend_eq_of_develops develops found
    · rfl

/-! ## Paths without a step back -/

theorem get?_of_isRooted {tree : FileTree} (rooted : tree.IsRooted) {place : Place}
    {names : List String} {name : String}
    (stands : tree.get? (place ++ name :: names) ≠ none) : tree.get? place = some .directory := by
  induction names generalizing place name with
  | nil => exact rooted place name stands
  | cons next names induction =>
      have below : tree.get? (place ++ [name]) = some .directory := by
        refine @induction (place ++ [name]) next ?_
        simpa using stands
      exact rooted place name (by simp [below])

theorem descend_eq_ok_iff {tree : FileTree} {place next : Place} {component : String} :
    tree.descend place component = .ok next ↔
      tree.get? place = some .directory ∧ component.utf8ByteSize ≤ maxNameSize ∧
        next = FilePath.enter place component := by
  rw [descend]
  rcases tree.get? place with _ | (_ | content)
  · simp
  · by_cases short : component.utf8ByteSize ≤ maxNameSize <;> simp [short, eq_comm]
  · simp

/-- Without a step back, a path that leads to something in a later tree leads there in an earlier
one in which something stands at that place. -/
theorem foldlM_descend_of_stands {before after : FileTree} (rooted : before.IsRooted)
    {components : List String} {place target : Place} (direct : ".." ∉ components)
    (leads : components.foldlM after.descend place = .ok target) :
    target = place ++ components ∧
      (before.get? target ≠ none → components.foldlM before.descend place = .ok target) := by
  induction components generalizing place with
  | nil =>
      cases leads
      exact ⟨(List.append_nil _).symm, fun _ => rfl⟩
  | cons component rest induction =>
      rw [List.foldlM_cons] at leads
      cases next : after.descend place component with
      | error error =>
          rw [next] at leads
          cases leads
      | ok middle =>
          rw [next] at leads
          obtain ⟨_, short, rfl⟩ := descend_eq_ok_iff.mp next
          have forward : component ≠ ".." := fun equal => direct (equal ▸ List.mem_cons_self)
          rw [FilePath.enter_name place forward] at leads
          obtain ⟨rfl, leads_before⟩ :=
            induction (fun back => direct (List.mem_cons_of_mem _ back)) leads
          refine ⟨by simp, fun stands => ?_⟩
          have above : before.get? place = some .directory :=
            get?_of_isRooted rooted (by simpa using stands)
          have next_before : before.descend place component = .ok (place ++ [component]) :=
            descend_eq_ok_iff.mpr ⟨above, short, (FilePath.enter_name place forward).symm⟩
          rw [List.foldlM_cons, next_before]
          exact leads_before stands

theorem locate_of_stands {before after : FileTree} (develops : before.Develops after)
    (rooted : before.IsRooted) {path : FilePath} {place : Place}
    (direct : ".." ∉ path.components) (leads : after.locate path = .ok place)
    (stands : before.get? place ≠ none) : before.locate path = .ok place := by
  have start_eq : after.start path = before.start path := by
    rw [start, start, develops.workingDirectory]
  rw [locate, start_eq] at leads
  rw [locate]
  split at leads
  · cases leads
  · rename_i clean
    split at leads
    · rename_i short
      rw [if_neg clean, if_pos short]
      exact (foldlM_descend_of_stands rooted direct leads).2 stands
    · cases leads

/-! ## Making, writing and moving -/

theorem make_eq_ok_iff {tree after : FileTree} {path : FilePath} {entry : Entry} :
    tree.make path entry = .ok after ↔
      ∃ place, tree.locate path = .ok place ∧ tree.get? place = none ∧
        after = tree.put place entry := by
  rw [make]
  cases located : tree.locate path with
  | error error => simp [bind, Except.bind]
  | ok place =>
      simp only [bind, Except.bind, Except.ok.injEq, exists_eq_left']
      cases tree.get? place with
      | none => simp [pure, Except.pure, eq_comm]
      | some old => simp [throw, throwThe, MonadExceptOf.throw]

theorem write_eq_ok_iff {tree after : FileTree} {path : FilePath} {content : ByteArray} :
    tree.write path content = .ok after ↔
      ∃ place, tree.locate path = .ok place ∧ tree.get? place ≠ some .directory ∧
        after = tree.put place (.file content) := by
  rw [write]
  cases located : tree.locate path with
  | error error => simp [bind, Except.bind]
  | ok place =>
      simp only [bind, Except.bind, Except.ok.injEq, exists_eq_left']
      rcases tree.get? place with _ | _ | _ <;>
        simp [pure, Except.pure, eq_comm, throw, throwThe, MonadExceptOf.throw]

theorem erase_put_of_free {tree : FileTree} {place : Place} {entry : Entry}
    (free : tree.get? place = none) : (tree.put place entry).erase place = tree := by
  rw [get?] at free
  split at free
  · cases free
  · simp [put, erase, Dictionary.erase_put_of_get?_eq_none free]

/-- A file that was just made stands at its path, and without it the tree is as it was. -/
theorem exists_place_of_make {tree after : FileTree} {path : FilePath} {content : ByteArray}
    (made : tree.make path (.file content) = .ok after) :
    ∃ place, after.locate path = .ok place ∧ after.get? place = some (.file content) ∧
      after.erase place = tree := by
  obtain ⟨place, located, free, rfl⟩ := make_eq_ok_iff.mp made
  refine ⟨place, ?_, ?_, erase_put_of_free free⟩
  · rw [locate_eq_of_develops (extends_put free _).develops (by simp [located]), located]
  · rw [get?_put]
    split
    · rename_i root
      rw [get?, if_pos root] at free
      cases free
    · rw [if_pos rfl]

/-- Moving a file that was just made is writing its content at the target in the tree that was there
before. -/
theorem write_of_rename {tree middle after : FileTree} {source target : FilePath}
    {content : ByteArray} (made : tree.make source (.file content) = .ok middle)
    (renamed : middle.rename source target = .ok after) :
    tree.write target content = .ok after := by
  obtain ⟨place, located, stands, erased⟩ := exists_place_of_make made
  simp only [rename, read, remove, located, stands, bind, Except.bind, pure, Except.pure] at renamed
  cases aimed : middle.locate target with
  | error error => simp [aimed] at renamed
  | ok goal =>
      simp only [aimed, erased] at renamed
      split at renamed
      · cases renamed
      · exact renamed

end FileTree
end ProtocolCodegen
