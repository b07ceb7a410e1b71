import ProtocolCodegen.Proofs.Lowering.Registration

/-!
# Forms of descriptors

Lowering builds descriptors of a few forms: base types, string constants, what the language cannot
express, references by name, and lists, dictionaries and optional types of these.  Flat records of
other contents, which can come from elsewhere, do not arise.  Records around a collection are
defined for collections alone.
-/

namespace ProtocolCodegen

/-- What the names of composites begin with. -/
def Naming.compositeStarts (naming : Naming) : List String :=
  [naming.unionStart, naming.arrayStart, naming.mapStart, naming.mapArrayStart]

namespace Lowerer

variable {lowerer : Lowerer}

/-! ## Wrapped collections -/

theorem mapWrapping?_eq_some {value : Node} {record : Wrapping}
    (wrapped : lowerer.mapWrapping? value = some record) :
    ∃ source element, value = .array source element ∧
      record = ⟨lowerer.profile.naming.mapArrayStart ++ lowerer.ident element, "items"⟩ := by
  cases value with
  | array source element =>
      rw [mapWrapping?] at wrapped
      split at wrapped
      · cases wrapped
        exact ⟨source, element, rfl, rfl⟩
      · cases wrapped
  | _ => cases wrapped

theorem memberWrapping?_eq_some {member : Node} {record : Wrapping}
    (wrapped : lowerer.memberWrapping? member = some record) :
    (∃ source element, member = .array source element ∧
      record = ⟨lowerer.profile.naming.arrayStart ++ lowerer.ident element, "items"⟩) ∨
    ∃ source key value, member = .map source key value ∧
      record = ⟨lowerer.profile.naming.mapStart ++
        (lowerer.ident key ++
          (lowerer.profile.naming.wrapperSeparator ++ lowerer.ident value)), "pairs"⟩ := by
  by_cases wraps : lowerer.profile.wrapsUnionCollections = true
  · simp only [memberWrapping?, if_pos wraps] at wrapped
    cases member with
    | array source element =>
        cases wrapped
        exact .inl ⟨source, element, rfl, rfl⟩
    | map source key value =>
        cases wrapped
        exact .inr ⟨source, key, value, rfl, by simp only [String.append_assoc]⟩
    | _ => cases wrapped
  · simp only [memberWrapping?, if_neg wraps] at wrapped
    cases wrapped

/-! ## Distinct members -/

theorem pairwise_distinctMembers (lowerer : Lowerer) (members : List Node) :
    (lowerer.distinctMembers members).Pairwise fun first second =>
      lowerer.ident first < lowerer.ident second :=
  Text.pairwise_distinctByFrom (Text.pairwise_sortedBy lowerer.ident _) []

theorem distinctMembers_eq_self {members : List Node}
    (kept : ∀ member ∈ members, lowerer.keeps member = true)
    (ordered : members.Pairwise fun first second => lowerer.ident first < lowerer.ident second) :
    lowerer.distinctMembers members = members := by
  rw [distinctMembers, List.filter_eq_self.mpr kept, Text.distinctBy_sortedBy_eq_self ordered]

/-! ## Names of composites -/

theorem Gives.name_eq {node : Node} {name : String} {composite : Composite}
    (gives : lowerer.Gives node name composite) : composite.name = name := by
  cases gives <;> rfl

theorem Gives.exists_start {node : Node} {name : String} {composite : Composite}
    (gives : lowerer.Gives node name composite) :
    ∃ start ∈ lowerer.profile.naming.compositeStarts, ∃ rest, name = start ++ rest := by
  let naming := lowerer.profile.naming
  cases gives with
  | union several => exact ⟨naming.unionStart, by simp [naming, Naming.compositeStarts], _, rfl⟩
  | value wrapped =>
      obtain ⟨_, _, _, rfl⟩ := mapWrapping?_eq_some wrapped
      exact ⟨naming.mapArrayStart, by simp [naming, Naming.compositeStarts], _, rfl⟩
  | member several listed wrapped =>
      rcases memberWrapping?_eq_some wrapped with ⟨_, _, _, rfl⟩ | ⟨_, _, _, _, rfl⟩
      · exact ⟨naming.arrayStart, by simp [naming, Naming.compositeStarts], _, rfl⟩
      · exact ⟨naming.mapStart, by simp [naming, Naming.compositeStarts], _, rfl⟩

/-! ## Descriptors -/

/-- The forms of descriptors that a lowerer builds. -/
inductive Builds (lowerer : Lowerer) : Descriptor → Prop where
  | scalar (category : Category) : Builds lowerer (lowerer.scalar category)
  | constant (value : String) :
      Builds lowerer { lowerer.scalar .string with constant := some value }
  | anything : Builds lowerer lowerer.anything
  | named (name : String) : Builds lowerer (.ofName .named name)
  | union (name : String) : Builds lowerer (.ofName .union name)
  | wrapper (name : String) : Builds lowerer (.ofName .wrapper name)
  | array {element : Descriptor} (built : Builds lowerer element) : Builds lowerer (.array element)
  | map {key value : Descriptor} (builtKey : Builds lowerer key)
      (builtValue : Builds lowerer value) : Builds lowerer (.map (lowerer.mapKey key) value)
  | optional {inner : Descriptor} (built : Builds lowerer inner) : Builds lowerer (.optional inner)

theorem Builds.wrap {wrapped : Descriptor} (built : lowerer.Builds wrapped)
    (wrapping : Option Wrapping) : lowerer.Builds (wrap wrapping wrapped) := by
  cases wrapping with
  | some record => exact .wrapper record.name
  | none => exact built

theorem Builds.mapKey {key : Descriptor} (built : lowerer.Builds key) :
    lowerer.Builds (lowerer.mapKey key) := by
  rw [Lowerer.mapKey]
  split
  · exact .scalar .string
  · exact built

theorem Builds.argument {descriptor argument : Descriptor} (built : lowerer.Builds descriptor)
    (listed : argument ∈ descriptor.arguments) : lowerer.Builds argument := by
  cases built with
  | array builtElement => exact List.mem_singleton.mp listed ▸ builtElement
  | optional builtInner => exact List.mem_singleton.mp listed ▸ builtInner
  | map builtKey builtValue =>
      rcases List.mem_pair.mp listed with rfl | rfl
      · exact builtKey.mapKey
      · exact builtValue
  | _ => cases listed

theorem Builds.within {inner descriptor : Descriptor} (built : lowerer.Builds descriptor)
    (within : inner.Within descriptor) : lowerer.Builds inner := by
  induction within with
  | self => exact built
  | argument listed _ induction => exact induction (built.argument listed)

theorem builds_reference (name : String) : lowerer.Builds (lowerer.reference name) := by
  rw [reference]
  split
  · exact .scalar _
  · exact .named _

theorem builds_union {source : Path} {members : List Node}
    (each : ∀ member ∈ members, lowerer.Builds (lowerer.descriptor member)) :
    lowerer.Builds (lowerer.descriptor (.union source members)) := by
  have entered {member : Node} (listed : member ∈ (lowerer.unionShape members).members) :
      lowerer.Builds (lowerer.descriptor member) :=
    each member (mem_of_mem_unionShape lowerer listed)
  rw [descriptor_union]
  cases shape : lowerer.unionShape members with
  | optional member => exact .optional (entered (by rw [shape]; exact List.mem_cons_self))
  | empty => exact .anything
  | single member => exact entered (by rw [shape]; exact List.mem_cons_self)
  | several different => exact .union _

theorem builds_descriptor (lowerer : Lowerer) (node : Node) :
    lowerer.Builds (lowerer.descriptor node) := by
  induction node using Node.induction with
  | base source name =>
      rw [descriptor]
      split
      · exact .scalar _
      · exact .anything
  | reference source name => exact builds_reference name
  | array source element induction => exact .array induction
  | map source key value inductionKey inductionValue =>
      exact .map inductionKey (inductionValue.wrap _)
  | literal source properties => exact .anything
  | constant source value => exact .constant value
  | union source members induction => exact builds_union induction
  | intersection source members => exact .anything
  | tuple source members => exact .scalar .array

theorem builds_descriptorOf (lowerer : Lowerer) (node : Option Node) :
    lowerer.Builds (lowerer.descriptorOf node) := by
  cases node with
  | none => exact .anything
  | some node => exact lowerer.builds_descriptor node

theorem builds_of_gives {node : Node} {name : String} {composite : Composite}
    (gives : lowerer.Gives node name composite) :
    ∀ type ∈ composite.descriptors, lowerer.Builds type := by
  intro type inside
  obtain ⟨part, _, wrapping, rfl⟩ := exists_entered_of_gives gives inside
  exact (lowerer.builds_descriptor part).wrap wrapping

/-- A union is defined with something to choose from. -/
theorem variants_ne_nil_of_gives {node : Node} {key name : String} {variants : List Variant}
    (gives : lowerer.Gives node key (.union name variants)) : variants ≠ [] := by
  rintro rfl
  generalize same : Composite.union name [] = composite at gives
  cases gives with
  | union several =>
      obtain ⟨_, none⟩ := Composite.union.inj same
      rw [List.map_eq_nil_iff.mp none.symm] at several
      cases several
  | value wrapped => cases same
  | member several member wrapped => cases same

/-- A record is defined around a list or a dictionary. -/
theorem kind_of_gives_wrapper {node : Node} {name own field : String} {wrapped : Descriptor}
    (gives : lowerer.Gives node name (.wrapper own field wrapped)) :
    wrapped.kind = .array ∨ wrapped.kind = .map := by
  cases gives with
  | value among =>
      obtain ⟨source, element, rfl, _⟩ := mapWrapping?_eq_some among
      exact .inl rfl
  | member several listed among =>
      rcases memberWrapping?_eq_some among with
        ⟨source, element, rfl, _⟩ | ⟨source, key, value, rfl, _⟩
      · exact .inl rfl
      · exact .inr rfl

end Lowerer
end ProtocolCodegen
