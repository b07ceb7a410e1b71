import Mathlib
import ProtocolCodegen.Files.FilePath
import ProtocolCodegen.Proofs.Text.Pieces

/-!
# Spelled paths

The components of a path that a text spells are neither empty nor single points, and no slash occurs
in them.  An absolute path with such components is the path that its own text spells.
-/

namespace ProtocolCodegen
namespace FilePath

/-- Whether a text can be a component of a path that a text spells. -/
def IsComponent (text : String) : Prop :=
  text ≠ "" ∧ text ≠ "." ∧ '/' ∉ text.toList

instance (text : String) : Decidable (IsComponent text) :=
  inferInstanceAs (Decidable (_ ∧ _ ∧ _))

theorem isComponent_of_mem_ofText {text component : String}
    (listed : component ∈ (ofText text).components) : IsComponent component := by
  obtain ⟨piece, proper⟩ := List.mem_filter.mp listed
  simp only [Bool.and_eq_true, bne_iff_ne] at proper
  refine ⟨proper.1, proper.2, ?_⟩
  obtain ⟨chars, among, rfl⟩ := List.mem_map.mp piece
  rw [String.toList_ofList]
  exact Text.not_mem_of_mem_pieces among

theorem mem_of_mem_foldl_enter {names components : List String} {name : String}
    (listed : name ∈ components.foldl enter names) : name ∈ names ∨ name ∈ components := by
  induction components generalizing names with
  | nil => exact .inl listed
  | cons component rest induction =>
      rcases induction listed with entered | among
      · rw [enter] at entered
        split at entered
        · exact .inl (List.mem_of_mem_dropLast entered)
        · rcases List.mem_append.mp entered with among | same
          · exact .inl among
          · exact .inr (List.mem_singleton.mp same ▸ List.mem_cons_self)
      · exact .inr (List.mem_cons_of_mem _ among)

theorem isComponent_of_mem_resolve {directory : FilePath} {text component : String}
    (proper : ∀ name ∈ directory.components, IsComponent name)
    (listed : component ∈ (resolve directory (ofText text)).components) :
    IsComponent component := by
  rcases mem_of_mem_foldl_enter listed with none | among
  · cases none
  · rw [join] at among
    split at among
    · rcases List.mem_append.mp among with before | spelled
      · exact proper component before
      · exact isComponent_of_mem_ofText spelled
    · exact isComponent_of_mem_ofText among

theorem takeWhile_slash_intercalate {components : List String}
    (proper : ∀ component ∈ components, IsComponent component) :
    (String.intercalate "/" components).toList.takeWhile (· == '/') = [] := by
  cases components with
  | nil => rfl
  | cons component rest =>
      obtain ⟨nonempty, -, free⟩ := proper component List.mem_cons_self
      obtain ⟨first, others, chars⟩ :=
        List.exists_cons_of_ne_nil (mt String.toList_eq_nil_iff.mp nonempty)
      have different : first ≠ '/' := by
        rintro rfl
        exact free (chars ▸ List.mem_cons_self)
      have starts : ∃ tail,
          (String.intercalate "/" (component :: rest)).toList = first :: tail := by
        cases rest with
        | nil => exact ⟨others, by rw [String.intercalate_singleton, chars]⟩
        | cons next remaining =>
            rw [String.intercalate_cons_cons, String.toList_append, String.toList_append, chars]
            exact ⟨_, rfl⟩
      obtain ⟨tail, starts⟩ := starts
      rw [starts, List.takeWhile_cons_of_neg (by simpa using different)]

theorem ofText_text {path : FilePath} (absolute : path.slashes = 1)
    (proper : ∀ component ∈ path.components, IsComponent component) :
    ofText path.text = path := by
  obtain ⟨slashes, components⟩ := path
  obtain rfl : slashes = 1 := absolute
  have spelled : (⟨1, components⟩ : FilePath).text =
      "" ++ String.singleton '/' ++ String.intercalate "/" components := rfl
  have pieces : Text.splitOn '/' (String.intercalate "/" components) = components ∨
      components = [] := by
    by_cases empty : components = []
    · exact .inr empty
    · left
      have slash : "/" = String.singleton '/' := rfl
      rw [slash, Text.splitOn_intercalate '/' empty]
      exact Text.flatMap_splitOn_of_not_mem fun component listed => (proper component listed).2.2
  have kept : components.filter (fun component => component != "" && component != ".") =
      components := by
    refine List.filter_eq_self.mpr fun component listed => ?_
    obtain ⟨nonempty, noPoint, -⟩ := proper component listed
    simp [nonempty, noPoint]
  rw [ofText, spelled, Text.splitOn_append]
  congr
  · have chars : ("" ++ String.singleton '/' ++ String.intercalate "/" components).toList =
        '/' :: (String.intercalate "/" components).toList := by simp
    rw [chars, List.takeWhile_cons_of_pos (by rfl), takeWhile_slash_intercalate proper]
    rfl
  · rw [List.filter_append]
    rcases pieces with split | rfl
    · rw [split, kept]
      rfl
    · rfl

end FilePath
end ProtocolCodegen
