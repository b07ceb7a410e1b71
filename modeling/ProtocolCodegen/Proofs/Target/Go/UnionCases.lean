import Mathlib
import ProtocolCodegen.Proofs.Outline.BuiltTypes
import ProtocolCodegen.Proofs.Target.Go.TypeText

/-!
# Go: cases of unions

A union is generated as a switch over the Go types of its members, which have to be different.  The
members differ by their identifiers.  An identifier says which Go type it stands for as long as it
is made of spelled types and of the names of declared ones; a placeholder does not.
-/

namespace ProtocolCodegen.Go

variable {lowerer : Lowerer}

/-! ## Names of lowered types -/

theorem isWord_unionName {idents : List String} (words : ∀ ident ∈ idents, IsWord ident) :
    IsWord (profile.naming.unionName idents) := by
  have joined : (String.intercalate "_" idents).toList.all isWordChar = true := by
    induction idents with
    | nil => rfl
    | cons ident rest induction =>
        have first := (words ident List.mem_cons_self).2
        cases rest with
        | nil => simpa using first
        | cons next others =>
            have joinedRest := induction fun other listed =>
              words other (List.mem_cons_of_mem _ listed)
            rw [String.intercalate_cons_cons, String.toList_append, String.toList_append,
              List.all_append, List.all_append, first, joinedRest]
            rfl
  constructor
  · intro empty
    exact absurd (String.append_eq_empty_iff.mp empty).1 (by decide)
  · rw [Naming.unionName, String.toList_append, List.all_append]
    exact Bool.and_eq_true_iff.mpr ⟨by decide, joined⟩

section Names

variable (forGo : IsForGo lowerer)

include forGo

theorem isWord_ident {node : Node} (words : ∀ name ∈ node.references true,
    IsWord (lowerer.profile.naming.typeName name)) : IsWord (lowerer.ident node) := by
  induction node using Node.induction with
  | base source name =>
      rw [Lowerer.ident, forGo.bases]
      split
      · rename_i category _
        cases category <;> decide
      · decide
  | reference source name => exact words name List.mem_cons_self
  | array source element induction =>
      exact IsWord.append (by decide) (induction words)
  | map source key value inductionKey inductionValue =>
      rw [Node.references, List.forall_mem_append] at words
      exact ((by decide : IsWord "Map").append (inductionKey words.1)).append
        (inductionValue words.2)
  | literal | constant | union | intersection | tuple =>
      rw [Lowerer.ident, forGo.naming]
      decide

theorem hasWords_scalar (category : Category) :
    (goType (lowerer.scalar category)).HasWords := by
  rw [Lowerer.scalar, forGo.bases]
  cases category <;> decide

theorem hasWords_anything : (goType lowerer.anything).HasWords := by
  rw [Lowerer.anything, forGo.bases]
  decide

theorem mapWrapping?_eq_none (value : Node) :
    lowerer.mapWrapping? value = none := by
  cases value <;> simp [Lowerer.mapWrapping?, forGo.mapArrays]

theorem descriptor_map (source : Path) (key value : Node) :
    lowerer.descriptor (.map source key value) =
      .map (lowerer.descriptor key) (lowerer.descriptor value) := by
  rw [Lowerer.descriptor, mapKey_eq forGo, mapWrapping?_eq_none forGo]
  rfl

omit forGo in
theorem goType_ofName {kind : TypeKind} (plain : kind = .named ∨ kind = .union) {name : String}
    (isWord : IsWord name) : goType (.ofName kind name) = .name name := by
  rcases plain with rfl | rfl <;> exact if_neg isWord.1

/-- Where the references of a type are words, so are all names in its Go type. -/
theorem hasWords_descriptor {node : Node} (words : ∀ name ∈ node.references true,
    IsWord (lowerer.profile.naming.typeName name)) :
    (goType (lowerer.descriptor node)).HasWords := by
  induction node using Node.induction with
  | base source name =>
      rw [Lowerer.descriptor]
      split
      · exact hasWords_scalar forGo _
      · exact hasWords_anything forGo
  | reference source name =>
      have isWord := words name List.mem_cons_self
      rw [Lowerer.descriptor, Lowerer.reference]
      split
      · exact hasWords_scalar forGo _
      · rw [goType_ofName (.inl rfl) isWord]
        exact isWord
  | array source element induction => exact induction words
  | map source key value inductionKey inductionValue =>
      rw [Node.references, List.forall_mem_append] at words
      rw [descriptor_map forGo]
      exact ⟨inductionKey words.1, inductionValue words.2⟩
  | literal | intersection => exact hasWords_anything forGo
  | constant source value => exact hasWords_scalar forGo .string
  | tuple source members => exact hasWords_scalar forGo .array
  | union source members induction =>
      have wordsOf {member : Node} (listed : member ∈ members) :
          ∀ name ∈ member.references true, IsWord (lowerer.profile.naming.typeName name) :=
        fun name mentioned =>
          words name (Node.mem_referencesOfMembers_iff.mpr ⟨member, listed, mentioned⟩)
      have entered {member : Node} (listed : member ∈ (lowerer.unionShape members).members) :
          (goType (lowerer.descriptor member)).HasWords :=
        have among := Lowerer.mem_of_mem_unionShape lowerer listed
        induction member among (wordsOf among)
      rw [Lowerer.descriptor_union]
      cases shape : lowerer.unionShape members with
      | optional member => exact (entered (by rw [shape]; exact List.mem_cons_self)).pointerTo
      | empty => exact hasWords_anything forGo
      | single member => exact entered (by rw [shape]; exact List.mem_cons_self)
      | several different =>
          have isWord : IsWord (lowerer.unionName different) := by
            rw [Lowerer.unionName, forGo.naming]
            refine isWord_unionName fun ident listed => ?_
            obtain ⟨member, among, rfl⟩ := List.mem_map.mp listed
            refine isWord_ident forGo (wordsOf (Lowerer.mem_of_mem_unionShape lowerer ?_))
            rw [shape]
            exact among
          rw [goType_ofName (.inr rfl) isWord]
          exact isWord

end Names

/-! ## Types that their identifiers tell apart -/

/-- The identifier that a Go type gives to a type of its own. -/
def GoType.ident : GoType → String
  | .name text => text
  | .pointer target => target.ident
  | .slice element => "Arr" ++ element.ident
  | .dictionary key value => "Map" ++ key.ident ++ value.ident

/-- A type whose identifier follows from its Go type: a base type of its own spelling, a declared
type that is not overridden, or a list or a dictionary of such types. -/
inductive IsPlain (lowerer : Lowerer) : Node → Prop where
  | base {source : Path} {name : String}
      (own : Category.ofBaseType? name ∉ [some .null, some .object, some .array]) :
      IsPlain lowerer (.base source name)
  | reference {source : Path} {name : String} (kept : lowerer.profile.overrides.get? name = none)
      (isWord : IsWord (lowerer.profile.naming.typeName name)) :
      IsPlain lowerer (.reference source name)
  | array {source : Path} {element : Node} (plain : IsPlain lowerer element) :
      IsPlain lowerer (.array source element)
  | map {source : Path} {key value : Node} (plainKey : IsPlain lowerer key)
      (plainValue : IsPlain lowerer value) : IsPlain lowerer (.map source key value)

theorem IsPlain.ident_eq (forGo : IsForGo lowerer) {node : Node} (plain : IsPlain lowerer node) :
    (goType (lowerer.descriptor node)).HasWords ∧
      (goType (lowerer.descriptor node)).ident = lowerer.ident node := by
  induction plain with
  | base own =>
      rw [Lowerer.descriptor, Lowerer.ident, forGo.bases]
      split
      · rename_i category known
        rw [known] at own
        rw [Lowerer.scalar, forGo.bases]
        cases category with
        | null | object | array => simp at own
        | _ => exact ⟨by decide, rfl⟩
      · rw [Lowerer.anything, forGo.bases]
        exact ⟨by decide, rfl⟩
  | reference kept isWord =>
      rw [Lowerer.descriptor, Lowerer.reference, kept, Lowerer.ident]
      dsimp only
      rw [goType_ofName (.inl rfl) isWord]
      exact ⟨isWord, rfl⟩
  | array plain induction => exact ⟨induction.1, congrArg ("Arr" ++ ·) induction.2⟩
  | map plainKey plainValue inductionKey inductionValue =>
      rw [descriptor_map forGo, Lowerer.ident]
      refine ⟨⟨inductionKey.1, inductionValue.1⟩, ?_⟩
      rw [← inductionKey.2, ← inductionValue.2]
      rfl

/-- Two types that their identifiers tell apart are written differently. -/
theorem IsPlain.typeText_ne (forGo : IsForGo lowerer) {first second : Node}
    (plain : IsPlain lowerer first) (plain' : IsPlain lowerer second)
    (different : lowerer.ident first ≠ lowerer.ident second) :
    typeText (lowerer.descriptor first) ≠ typeText (lowerer.descriptor second) := by
  obtain ⟨words, ident⟩ := plain.ident_eq forGo
  obtain ⟨words', ident'⟩ := plain'.ident_eq forGo
  rw [typeText_of_builds forGo (lowerer.builds_descriptor first),
    typeText_of_builds forGo (lowerer.builds_descriptor second)]
  intro equal
  have same := GoType.text_injective words words' (Except.ok.inj equal)
  exact different (by rw [← ident, ← ident', same])

theorem memberWrapping?_eq_none (forGo : IsForGo lowerer) (member : Node) :
    lowerer.memberWrapping? member = none := by
  simp [Lowerer.memberWrapping?, forGo.collections]

theorem exists_union_of_gives (forGo : IsForGo lowerer) {place : Node} {name : String}
    {composite : Composite} (gives : lowerer.Gives place name composite) :
    ∃ source members, place = .union source members ∧
      composite = .union name ((lowerer.distinctMembers members).map fun member =>
        ⟨lowerer.ident member, lowerer.descriptor member⟩) := by
  cases gives with
  | @union source members several =>
      refine ⟨source, members, rfl, ?_⟩
      simp only [Lowerer.unionOf, Lowerer.memberDescriptor, memberWrapping?_eq_none forGo]
      rfl
  | value wrapped => simp [mapWrapping?_eq_none forGo] at wrapped
  | member several listed wrapped => simp [memberWrapping?_eq_none forGo] at wrapped

/-- In Go, every composite is the union of the distinct members of a union in a type that was
lowered.  Distinct members have different identifiers, and each of them has a Go type as it is
written.  If all references in the union are words, these texts are different exactly if the Go
types are, and two members that their identifiers tell apart are always written differently. -/
theorem union_cases (overrides : Dictionary String Category) (model : Model)
    (includesProposed includesMethods : Bool) (selection : Option (List String))
    (events : List Event) :
    let analyzer : Analyzer :=
      .ofModel model (profile.withOverrides overrides) includesProposed selection
    let lowerer := analyzer.lowerer
    let text (member : Node) := typeText (lowerer.descriptor member)
    (∀ entry ∈ (analyzer.analyze includesMethods ⟨[], events⟩).1.composites,
      ∃ node source members,
        AnalysisStep.lower (some node) ∈ analyzer.steps includesMethods ∧
        Node.Within lowerer.entered (.union source members) node ∧
        entry.2 = .union entry.1 ((lowerer.distinctMembers members).map fun member =>
          ⟨lowerer.ident member, lowerer.descriptor member⟩)) ∧
    ∀ members,
      let distinct := lowerer.distinctMembers members
      (distinct.map lowerer.ident).Nodup ∧
      (∀ member ∈ distinct, ∃ type, text member = .ok type) ∧
      ((∀ name ∈ Node.referencesOfMembers true members,
          IsWord (lowerer.profile.naming.typeName name)) →
        ((distinct.map text).Nodup ↔
          (distinct.map fun member => goType (lowerer.descriptor member)).Nodup)) ∧
      distinct.Pairwise fun first second =>
        IsPlain lowerer first → IsPlain lowerer second → text first ≠ text second := by
  intro analyzer lowerer text
  have forGo : IsForGo lowerer := ⟨rfl, rfl, rfl, rfl, rfl⟩
  have written (member : Node) : text member = .ok (goType (lowerer.descriptor member)).text :=
    typeText_of_builds forGo (lowerer.builds_descriptor member)
  constructor
  · intro entry listed
    obtain ⟨node, step, place, within, gives⟩ :=
      Analyzer.givesInSteps_of_mem_enrolled analyzer ((Text.sortedBy_perm _ _).mem_iff.mp listed)
    obtain ⟨source, members, rfl, equal⟩ := exists_union_of_gives forGo gives
    exact ⟨node, source, members, step, within, equal⟩
  · intro members distinct
    have ordered := lowerer.pairwise_distinctMembers members
    refine ⟨?_, fun member _ => ⟨_, written member⟩, fun words => ?_, ?_⟩
    · exact List.pairwise_map.mpr (ordered.imp fun less => less.ne)
    · have wordsOf {member : Node} (kept : member ∈ distinct) :
          (goType (lowerer.descriptor member)).HasWords := by
        have among := (lowerer.mem_of_mem_distinctMembers kept).1
        exact hasWords_descriptor forGo fun name mentioned =>
          words name (Node.mem_referencesOfMembers_iff.mpr ⟨member, among, mentioned⟩)
      rw [List.Nodup, List.Nodup, List.pairwise_map, List.pairwise_map]
      refine List.Pairwise.iff_of_mem fun kept kept' => not_congr ?_
      rw [written, written, Except.ok.injEq]
      exact ⟨GoType.text_injective (wordsOf kept) (wordsOf kept'), congrArg GoType.text⟩
    · exact ordered.imp fun less plain plain' => plain.typeText_ne forGo plain' less.ne

/-- The cases of a union of a list, a declared type and a base type are different. -/
theorem union_cases_of_plain_members :
    let analyzer : Analyzer := .ofModel default (profile.withOverrides []) false none
    let lowerer := analyzer.lowerer
    let text (member : Node) := typeText (lowerer.descriptor member)
    let members : List Node := [
      .array (.root "first") (.base (.root "element") "string"),
      .reference (.root "second") "Range",
      .base (.root "third") "string"]
    lowerer.distinctMembers members = members ∧
      members.map text = [.ok "[]string", .ok "Range", .ok "string"] ∧
      (members.map text).Nodup := by
  intro analyzer lowerer text members
  have distinct : lowerer.distinctMembers members = members :=
    Lowerer.distinctMembers_eq_self (by decide) (by decide)
  have plain : ∀ member ∈ members, IsPlain lowerer member := by
    intro member listed
    simp only [members, List.mem_cons, List.not_mem_nil, or_false] at listed
    rcases listed with rfl | rfl | rfl
    · exact .array (.base (by decide))
    · exact .reference (by decide) (by decide)
    · exact .base (by decide)
  obtain ⟨_, _, _, different⟩ := (union_cases [] default false true none []).2 members
  rw [distinct] at different
  refine ⟨distinct, by decide, List.pairwise_map.mpr (different.imp_of_mem ?_)⟩
  exact fun listed listed' apart => apart (plain _ listed) (plain _ listed')

/-- A string constant and a string make two cases of one type. -/
theorem union_cases_of_constant_and_string :
    let members : List Node := [.base (.root "first") "string", .constant (.root "second") "auto"]
    let record (type : Node) : Structure :=
      { (default : Structure) with
        name := "Options"
        properties := [{ (default : Property Node) with name := "mode", type }] }
    let analyzer (type : Node) : Analyzer :=
      .ofModel { (default : Model) with structures := [record type] } (profile.withOverrides [])
        false none
    let outline := ((analyzer (.union (.root "type") members)).analyze true ⟨[], []⟩).1
    ∃ first second : Variant,
      outline.composites =
          [("Or_String_string", .union "Or_String_string" [first, second])] ∧
        typeText first.type = .ok "string" ∧ typeText second.type = .ok "string" := by
  intro members record analyzer outline
  let string : Node := .base (.root "first") "string"
  let constant : Node := .constant (.root "second") "auto"
  let lowerer := (analyzer (.union (.root "type") members)).lowerer
  have steps (type : Node) : (analyzer type).steps true = [.lower (some type)] := by cbv
  have enrolled : (analyzer (.union (.root "type") members)).enrolled true ⟨[], []⟩ =
      lowerer.enroll (.union (.root "type") members) ⟨[], []⟩ := by
    rw [Analyzer.enrolled, steps]
    rfl
  have sorted : Text.sortedBy lowerer.ident members = [constant, string] := by
    have after : ¬lowerer.ident string ≤ lowerer.ident constant := by decide
    simp [Text.sortedBy, members, List.mergeSort, after, string, constant]
  have distinct : lowerer.distinctMembers members = [constant, string] := by
    rw [Lowerer.distinctMembers, List.filter_eq_self.mpr (by decide), sorted]
    exact Text.distinctByFrom_eq_self (by decide) (by decide)
  have shape : lowerer.unionShape members = .several [constant, string] := by
    rw [Lowerer.unionShape_eq_several lowerer (by rw [distinct]; decide), distinct]
  have registered : (lowerer.enroll (.union (.root "type") members) ⟨[], []⟩).composites =
      [("Or_String_string", lowerer.unionOf [constant, string])] := by
    rw [Lowerer.enroll_union, shape]
    decide
  refine ⟨⟨"String", lowerer.descriptor constant⟩, ⟨"string", lowerer.descriptor string⟩, ?_,
    by decide, by decide⟩
  have listed : outline.composites = Text.sortedBy (·.1)
      ((analyzer (.union (.root "type") members)).enrolled true ⟨[], []⟩).composites := rfl
  rw [listed, enrolled, registered]
  exact List.mergeSort_singleton _

end ProtocolCodegen.Go
