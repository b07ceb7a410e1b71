import Mathlib
import ProtocolCodegen.Outline.Analysis
import ProtocolCodegen.Target.Proto.File

/-!
# Proto: numbers of enum members

The members of an enumeration keep their values as numbers where its type is numeric and every value
is whole, and are counted from one otherwise.  The number zero comes first: it is the number of the
members that have it, or else of a member that is added.
-/

namespace ProtocolCodegen.Proto

open Outline

/-! ## Numbers -/

/-- The members of an enumeration can keep their values as numbers. -/
def KeepsValues (declared : Outline.Enum) : Prop :=
  declared.category.isNumeric = true ∧
    ∀ member ∈ declared.members, ∃ value, member.value = .int value

/-- The numbers of the members of an enumeration, in order: their values, or else their places
counted from one. -/
structure IsNumbering (declared : Outline.Enum) (numbers : List Int) : Prop where
  /-- Values that can be numbers are kept. -/
  kept : KeepsValues declared → declared.members.map (·.value) = numbers.map .int
  /-- Otherwise the members are counted. -/
  counted : ¬ KeepsValues declared →
    numbers = (List.range' 1 declared.members.length).map Int.ofNat

/-- The line of a member of an enum under a number. -/
def memberLine (start : String) (member : Member) (number : Int) : EnumLine where
  name := start ++ "_" ++ Name.screamingSnakeCase member.name
  number := toString number
  isZero := number == 0
  comment := memberComment member.documentation

/-- The line of the member that has the number zero if no other one has. -/
def unspecifiedLine (start : String) : EnumLine where
  name := start ++ "_UNSPECIFIED"
  number := toString (0 : Int)
  isZero := true
  comment := []

/-- What the names of the members of an enum begin with. -/
def enumStart (declared : Outline.Enum) : String :=
  Name.screamingSnakeCase (Name.withoutMarks declared.originalName)

/-- The values of an enumeration are strings, whole numbers and other numbers, so that all that
passes for a whole number is one. -/
theorem isNumbered_enumOf (analyzer : Analyzer) (declared : Enumeration) :
    isNumbered (analyzer.enumOf declared) = true ↔ KeepsValues (analyzer.enumOf declared) := by
  have whole (value : EnumValue) : isWhole (Analyzer.memberOf value).value = true ↔
      ∃ number, (Analyzer.memberOf value).value = .int number := by
    rcases value with ⟨_, _ | _ | _, _, _, _⟩ <;>
      simp [Analyzer.memberOf, Constant.toJson, isWhole]
  simp only [isNumbered, KeepsValues, Analyzer.enumOf, Bool.and_eq_true, List.all_eq_true,
    List.forall_mem_map, whole]

theorem exists_isNumbering (declared : Outline.Enum) :
    ∃ numbers, IsNumbering declared numbers := by
  by_cases keeps : KeepsValues declared
  · have whole : ∀ value ∈ declared.members.map (·.value), value ∈ Set.range Json.int :=
      List.forall_mem_map.mpr fun member listed => (keeps.2 member listed).imp fun _ => Eq.symm
    obtain ⟨numbers, values⟩ : declared.members.map (·.value) ∈ Set.range (List.map Json.int) :=
      (Set.range_list_map Json.int).ge whole
    exact ⟨numbers, fun _ => values.symm, fun counts => absurd keeps counts⟩
  · exact ⟨_, fun keeps' => absurd keeps' keeps, fun _ => rfl⟩

section

variable {declared : Outline.Enum} {numbers : List Int}

theorem IsNumbering.length_eq (numbering : IsNumbering declared numbers) :
    numbers.length = declared.members.length := by
  by_cases keeps : KeepsValues declared
  · simpa using (congrArg List.length (numbering.kept keeps)).symm
  · simp [numbering.counted keeps]

theorem IsNumbering.map_snd_zip (numbering : IsNumbering declared numbers) :
    (declared.members.zip numbers).map Prod.snd = numbers :=
  List.map_snd_zip numbering.length_eq.le

/-- Counted numbers are distinct; kept ones are as far as the values are. -/
theorem IsNumbering.nodup_iff (numbering : IsNumbering declared numbers) :
    numbers.Nodup ↔ (KeepsValues declared → (declared.members.map (·.value)).Nodup) := by
  by_cases keeps : KeepsValues declared
  · have injective : Function.Injective Json.int := fun _ _ => Json.int.inj
    rw [numbering.kept keeps, List.nodup_map_iff injective]
    exact ⟨fun distinct _ => distinct, fun distinct => distinct keeps⟩
  · refine iff_of_true ?_ fun keeps' => absurd keeps' keeps
    rw [numbering.counted keeps]
    exact List.Nodup.map (fun _ _ => Int.ofNat.inj) List.nodup_range'

theorem IsNumbering.getElem_kept (numbering : IsNumbering declared numbers)
    (keeps : KeepsValues declared) {index : Nat} (listed : index < declared.members.length)
    (bound : index < numbers.length) :
    declared.members[index].value = .int numbers[index] := by
  have value := List.getElem_of_eq (numbering.kept keeps) (by simpa using listed)
  simpa using value

theorem IsNumbering.getElem_counted (numbering : IsNumbering declared numbers)
    (counts : ¬ KeepsValues declared) {index : Nat} (bound : index < numbers.length) :
    numbers[index] = Int.ofNat (index + 1) := by
  have listed := List.getElem_of_eq (numbering.counted counts) bound
  simpa [Nat.add_comm] using listed

theorem numberedLines_eq (plain : isNumbered declared = true ↔ KeepsValues declared)
    (numbering : IsNumbering declared numbers) (start : String) :
    numberedLines declared start =
      (declared.members.zip numbers).map fun (member, number) =>
        memberLine start member number := by
  unfold numberedLines
  refine List.ext_getElem (by simp [numbering.length_eq]) fun index bound _ => ?_
  have listed : index < declared.members.length := by simpa using bound
  have bound : index < numbers.length := numbering.length_eq.symm ▸ listed
  by_cases keeps : KeepsValues declared
  · have value := numbering.getElem_kept keeps listed bound
    simp [plain.mpr keeps, value, memberLine, isZeroValue, Json.text, Json.display]
  · have number := numbering.getElem_counted keeps bound
    simp only [List.getElem_map, List.getElem_zipIdx, List.getElem_zip, memberLine,
      Bool.eq_false_iff.mpr (mt plain.mp keeps), number, Nat.zero_add]
    rfl

/-! ## Order -/

/-- Numbered members with those of number zero before the others. -/
def zeroFirst (numbered : List (Member × Int)) : List (Member × Int) :=
  numbered.filter (·.2 == 0) ++ numbered.filter (·.2 != 0)

theorem zeroFirst_perm (numbered : List (Member × Int)) : (zeroFirst numbered).Perm numbered :=
  List.filter_append_perm (fun member : Member × Int => member.2 == 0) numbered

theorem filter_zeroFirst (numbered : List (Member × Int)) :
    (zeroFirst numbered).filter (·.2 != 0) = numbered.filter (·.2 != 0) := by
  simp [zeroFirst, List.filter_append, List.filter_filter]

theorem zeroFirst_of_forall_ne {numbered : List (Member × Int)}
    (other : ∀ member ∈ numbered, member.2 ≠ 0) : zeroFirst numbered = numbered := by
  have none : numbered.filter (·.2 == 0) = [] :=
    List.filter_eq_nil_iff.mpr fun member listed => by simpa using other member listed
  have all : numbered.filter (·.2 != 0) = numbered :=
    List.filter_eq_self.mpr fun member listed => by simpa using other member listed
  rw [zeroFirst, none, all, List.nil_append]

theorem head?_zeroFirst {numbered : List (Member × Int)} {member : Member × Int}
    (listed : member ∈ numbered) (zero : member.2 = 0) :
    ∃ first, (zeroFirst numbered).head? = some first ∧ first.2 = 0 := by
  have found : (numbered.find? (·.2 == 0)).isSome = true :=
    List.find?_isSome.mpr ⟨member, listed, beq_iff_eq.mpr zero⟩
  obtain ⟨first, found⟩ := Option.isSome_iff_exists.mp found
  have zero := List.find?_some found
  refine ⟨first, ?_, eq_of_beq zero⟩
  rw [zeroFirst, List.head?_append, List.head?_filter, found, Option.some_or]

theorem enumLines_eq (plain : isNumbered declared = true ↔ KeepsValues declared)
    (numbering : IsNumbering declared numbers) :
    enumLines declared =
      (if 0 ∈ numbers then [] else [unspecifiedLine (enumStart declared)]) ++
        (zeroFirst (declared.members.zip numbers)).map fun (member, number) =>
          memberLine (enumStart declared) member number := by
  have lines := numberedLines_eq plain numbering (enumStart declared)
  have zero : (numberedLines declared (enumStart declared)).any (·.isZero) = true ↔
      0 ∈ numbers := by
    conv => rhs; rw [← numbering.map_snd_zip]
    simp [lines, memberLine]
  rw [enumLines, ← enumStart]
  -- With a zero the two filters are those of the order; without one the order changes nothing.
  by_cases listed : 0 ∈ numbers
  · rw [if_pos (zero.mpr listed), if_pos listed, lines, List.filter_map, List.filter_map,
      ← List.map_append]
    rfl
  · have other : ∀ member ∈ declared.members.zip numbers, member.2 ≠ 0 := by
      intro member paired isZero
      rw [← numbering.map_snd_zip] at listed
      exact listed (List.mem_map.mpr ⟨member, paired, isZero⟩)
    rw [if_neg (mt zero.mp listed), if_neg listed, lines, zeroFirst_of_forall_ne other]
    rfl

/-- The first member has the number zero. -/
theorem head?_enumLines (plain : isNumbered declared = true ↔ KeepsValues declared)
    (numbering : IsNumbering declared numbers) :
    (enumLines declared).head?.map (·.number) = some (toString (0 : Int)) := by
  rw [enumLines_eq plain numbering]
  by_cases listed : 0 ∈ numbers
  · obtain ⟨member, paired, zero⟩ := List.mem_map.mp (numbering.map_snd_zip.symm ▸ listed)
    obtain ⟨first, isFirst, zero⟩ := head?_zeroFirst paired zero
    simp only [if_pos listed, List.nil_append, List.head?_map, isFirst, Option.map_some,
      memberLine, zero]
  · rw [if_neg listed]
    rfl

/-- The numbers of an enum are those of its members, and zero. -/
theorem perm_numbers (plain : isNumbered declared = true ↔ KeepsValues declared)
    (numbering : IsNumbering declared numbers) :
    ((enumLines declared).map (·.number)).Perm
      ((if 0 ∈ numbers then numbers else 0 :: numbers).map toString) := by
  have own : ((zeroFirst (declared.members.zip numbers)).map fun member => toString member.2).Perm
      (numbers.map toString) := by
    conv => rhs; rw [← numbering.map_snd_zip, List.map_map]
    exact (zeroFirst_perm _).map _
  rw [enumLines_eq plain numbering, List.map_append, List.map_map]
  split
  · exact own
  · exact own.cons _

end

/-- The members of an enum have the numbers of the members of its enumeration, of which zero stands
first, whether it is the number of one or of the member that is added for it; they are different if
the values of the members are. -/
theorem enum_numbers (analyzer : Analyzer) (declared : Enumeration) :
    let outlined := analyzer.enumOf declared
    let lines := enumLines outlined
    lines.head?.map (·.number) = some (toString (0 : Int)) ∧
    (∃ numbers, IsNumbering outlined numbers ∧
      ∃ sorted : List (Member × Int),
        sorted.Perm (outlined.members.zip numbers) ∧
        sorted.filter (·.2 != 0) = (outlined.members.zip numbers).filter (·.2 != 0) ∧
        lines = (if 0 ∈ numbers then [] else [unspecifiedLine (enumStart outlined)]) ++
          sorted.map fun (member, number) => memberLine (enumStart outlined) member number) ∧
    ((lines.map (·.number)).Nodup ↔
      (KeepsValues outlined → (outlined.members.map (·.value)).Nodup)) := by
  intro outlined lines
  have plain := isNumbered_enumOf analyzer declared
  obtain ⟨numbers, numbering⟩ := exists_isNumbering outlined
  have written := enumLines_eq plain numbering
  refine ⟨head?_enumLines plain numbering,
    ⟨numbers, numbering, _, zeroFirst_perm _, filter_zeroFirst _, written⟩, ?_⟩
  have injective : Function.Injective (toString : Int → String) := fun _ _ => Int.repr_inj.mp
  rw [(perm_numbers plain numbering).nodup_iff, List.nodup_map_iff injective,
    ← numbering.nodup_iff]
  by_cases listed : 0 ∈ numbers
  · rw [if_pos listed]
  · rw [if_neg listed]
    exact List.nodup_cons.trans (and_iff_right listed)

example :
    let declared : Outline.Enum :=
      { (default : Outline.Enum) with
        category := .integer, members := [⟨"a", .int 2, ""⟩, ⟨"b", .int 0, ""⟩, ⟨"c", .int (-1), ""⟩] }
    (enumLines declared).map (·.number) = ["0", "2", "-1"] := by
  decide

end ProtocolCodegen.Proto
