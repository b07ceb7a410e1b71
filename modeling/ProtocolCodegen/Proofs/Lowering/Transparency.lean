import Mathlib
import ProtocolCodegen.Proofs.Lowering.Registration
import ProtocolCodegen.Target.Language

/-!
# Transparency of the ledger

A lowerer looks up the name of a union before it lowers the members, so a name that is given with
two definitions gets the one that comes first.  Where no name is given with two definitions, the
ledger defines every name that can be reached as if each type had been lowered on its own.
-/

namespace ProtocolCodegen

/-- The names to which descriptors lead through the definitions of a ledger. -/
inductive Ledger.Reaches (ledger : Ledger) (returned : List Descriptor) : String → Prop where
  | used {descriptor : Descriptor} {name : String} (listed : descriptor ∈ returned)
      (uses : descriptor.Uses name) : Reaches ledger returned name
  | through {middle name : String} {composite : Composite}
      (reached : Reaches ledger returned middle)
      (found : ledger.composites.get? middle = some composite)
      (uses : composite.Uses name) : Reaches ledger returned name

/-- From what a closed ledger covers, only names that it defines are reached. -/
theorem Ledger.Reaches.defines {ledger : Ledger} {returned : List Descriptor} {name : String}
    (reaches : ledger.Reaches returned name) (closed : ledger.IsClosed)
    (covers : ∀ descriptor ∈ returned, ledger.Covers descriptor) :
    ledger.defines name = true := by
  cases reaches with
  | used listed uses => exact covers _ listed name uses
  | through _ found uses =>
      obtain ⟨descriptor, inside, uses⟩ := uses
      exact closed.covers _ (Dictionary.mem_of_get? found) descriptor inside name uses

namespace Lowerer

variable {lowerer : Lowerer}

/-- Lowers types one after the other. -/
def lowerAll (lowerer : Lowerer) (nodes : List (Option Node)) : StateM Ledger (List Descriptor) :=
  nodes.mapM lowerer.lower

/-- A composite name is given somewhere within one of several types. -/
def GivesAmong (lowerer : Lowerer) (enter : Node → List Node) (nodes : List (Option Node))
    (name : String) (composite : Composite) : Prop :=
  ∃ node, some node ∈ nodes ∧ lowerer.GivesWithin enter node name composite

/-- No composite name is given with two definitions. -/
def Agrees (lowerer : Lowerer) (enter : Node → List Node) (nodes : List (Option Node)) : Prop :=
  ∀ name first second, lowerer.GivesAmong enter nodes name first →
    lowerer.GivesAmong enter nodes name second → first = second

theorem GivesAmong.mono {enter enter' : Node → List Node} {nodes : List (Option Node)}
    {name : String} {composite : Composite}
    (gives : lowerer.GivesAmong enter nodes name composite)
    (entered : ∀ node, enter node ⊆ enter' node) :
    lowerer.GivesAmong enter' nodes name composite := by
  obtain ⟨node, listed, place, within, gives⟩ := gives
  exact ⟨node, listed, place, within.mono entered, gives⟩

theorem run_lowerAll (nodes : List (Option Node)) (ledger : Ledger) :
    (lowerer.lowerAll nodes).run ledger =
      (nodes.map lowerer.descriptorOf,
        nodes.foldl (fun ledger node => lowerer.enrollOf node ledger) ledger) := by
  induction nodes generalizing ledger with
  | nil => rfl
  | cons node rest induction =>
      have split : (lowerer.lowerAll (node :: rest)).run ledger =
          Prod.map (lowerer.descriptorOf node :: ·) id
            ((lowerer.lowerAll rest).run (lowerer.enrollOf node ledger)) := by
        rw [lowerAll, List.mapM_cons]
        rfl
      rw [split, induction]
      rfl

theorem growth_lowerAll (nodes : List (Option Node)) (ledger : Ledger) :
    Ledger.Growth (lowerer.GivesAmong lowerer.entered nodes) ledger
        ((lowerer.lowerAll nodes).run ledger).2 ∧
      ∀ node ∈ nodes,
        ((lowerer.lowerAll nodes).run ledger).2.Covers (lowerer.descriptorOf node) := by
  rw [run_lowerAll]
  apply Ledger.growth_foldl _ fun ledger node => ledger.Covers (lowerer.descriptorOf node)
  · exact fun _ grown covers => covers.mono grown
  · intro node listed ledger
    refine (growth_enrollOf node ledger).imp_left fun growth => growth.weaken ?_
    rintro name composite ⟨whole, rfl, gives⟩
    exact ⟨whole, listed, gives⟩

theorem isClosed_lowerAll (nodes : List (Option Node)) (events : List Event) :
    ((lowerer.lowerAll nodes).run ⟨[], events⟩).2.IsClosed :=
  (growth_lowerAll nodes _).1.isClosed (Ledger.isClosed_of_no_composites events)

/-- Every name that is reached has a definition, which is the own definition of a type that was
entered. -/
theorem exists_entry_of_reaches {nodes : List (Option Node)} {events : List Event} {name : String}
    (reaches : ((lowerer.lowerAll nodes).run ⟨[], events⟩).2.Reaches
      ((lowerer.lowerAll nodes).run ⟨[], events⟩).1 name) :
    ∃ composite,
      ((lowerer.lowerAll nodes).run ⟨[], events⟩).2.composites.get? name = some composite ∧
        lowerer.GivesAmong lowerer.entered nodes name composite := by
  obtain ⟨growth, covers⟩ := growth_lowerAll nodes (⟨[], events⟩ : Ledger)
  have returned : ∀ descriptor ∈ ((lowerer.lowerAll nodes).run ⟨[], events⟩).1,
      ((lowerer.lowerAll nodes).run ⟨[], events⟩).2.Covers descriptor := by
    intro descriptor listed
    rw [run_lowerAll] at listed
    obtain ⟨node, given, rfl⟩ := List.mem_map.mp listed
    exact covers node given
  obtain ⟨composite, found⟩ :=
    Ledger.defines_iff.mp (reaches.defines (isClosed_lowerAll nodes events) returned)
  refine ⟨composite, found, ?_⟩
  rcases growth.mem_composites (Dictionary.mem_of_get? found) with before | ⟨_, ⟨gives, _⟩, _⟩
  · cases before
  · exact gives

theorem GivesAmong.perm {enter : Node → List Node} {nodes order : List (Option Node)}
    {name : String} {composite : Composite} (reordered : order.Perm nodes)
    (gives : lowerer.GivesAmong enter order name composite) :
    lowerer.GivesAmong enter nodes name composite := by
  obtain ⟨node, listed, gives⟩ := gives
  exact ⟨node, reordered.mem_iff.mp listed, gives⟩

/-- Where no name is given with two definitions, the order in which types are lowered has no effect
on which names are reached. -/
theorem reaches_of_perm {nodes order : List (Option Node)} {events : List Event}
    (reordered : order.Perm nodes) (agrees : lowerer.Agrees lowerer.entered nodes) {name : String}
    (reaches : ((lowerer.lowerAll nodes).run ⟨[], events⟩).2.Reaches
      ((lowerer.lowerAll nodes).run ⟨[], events⟩).1 name) :
    ((lowerer.lowerAll order).run ⟨[], events⟩).2.Reaches
      ((lowerer.lowerAll order).run ⟨[], events⟩).1 name := by
  induction reaches with
  | used listed uses =>
      rw [run_lowerAll] at listed
      refine .used ?_ uses
      rw [run_lowerAll]
      exact (reordered.map _).mem_iff.mpr listed
  | through reached found uses induction =>
      obtain ⟨_, same, gives⟩ := exists_entry_of_reaches reached
      obtain rfl := Option.some.inj (found.symm.trans same)
      obtain ⟨other, foundOther, givesOther⟩ := exists_entry_of_reaches induction
      -- Another type may have come first for this name, but with the same definition.
      obtain rfl := agrees _ _ _ gives (givesOther.perm reordered)
      exact .through induction foundOther uses

/-- If no composite name is given with two definitions, the ledger defines every name that is
reached by the definition that all types of the name have, in whatever order the types are lowered.
This holds whether all types within the given ones count or those that lowering enters. -/
theorem lowerAll_transparent (lowerer : Lowerer) (nodes : List (Option Node))
    (events : List Event) :
    let (returned, ledger) := (lowerer.lowerAll nodes).run ⟨[], events⟩
    ∀ enter ∈ [Node.parts, lowerer.entered], lowerer.Agrees enter nodes →
      ∀ name, ledger.Reaches returned name →
        ∃ composite, ledger.composites.get? name = some composite ∧
          lowerer.GivesAmong enter nodes name composite ∧
          (∀ other, lowerer.GivesAmong enter nodes name other → other = composite) ∧
          ∀ order : List (Option Node), order.Perm nodes →
            ((lowerer.lowerAll order).run ⟨[], events⟩).2.composites.get? name =
              some composite := by
  intro enter counted agrees name reaches
  have entered (node : Node) : lowerer.entered node ⊆ enter node := by
    rcases List.mem_pair.mp counted with rfl | rfl
    · exact entered_subset_parts node
    · exact List.Subset.refl _
  have agreesEntered : lowerer.Agrees lowerer.entered nodes :=
    fun name first second gives gives' =>
      agrees name first second (gives.mono entered) (gives'.mono entered)
  obtain ⟨composite, found, gives⟩ := exists_entry_of_reaches reaches
  refine ⟨composite, found, gives.mono entered, ?_, ?_⟩
  · exact fun other givesOther => agrees name other composite givesOther (gives.mono entered)
  · intro order reordered
    obtain ⟨other, foundOther, givesOther⟩ :=
      exists_entry_of_reaches (reaches_of_perm reordered agreesEntered reaches)
    rw [foundOther, agreesEntered name composite other gives (givesOther.perm reordered)]

/-- In proto, an array in a union that is lowered twice has one wrapping record. -/
theorem lowerAll_transparent_shared_union :
    let lowerer : Lowerer := ⟨Language.proto.profile, false, []⟩
    let array : Node := .array (.root "array") (.reference (.root "element") "B")
    let members : List Node := [.reference (.root "first") "A", array]
    let nodes := [some (.union (.root "union") members), some (.union (.root "union") members)]
    let (returned, ledger) := (lowerer.lowerAll nodes).run ⟨[], []⟩
    lowerer.Agrees Node.parts nodes ∧ ledger.Reaches returned "ArrayOf_B" ∧
      ∃ composite, ledger.composites.get? "ArrayOf_B" = some composite ∧
        ∀ other, lowerer.GivesAmong Node.parts nodes "ArrayOf_B" other → other = composite := by
  intro lowerer array members nodes
  have distinct : lowerer.distinctMembers members = members := by cbv
  have inReference {source : Path} {target name : String} {composite : Composite} :
      ¬lowerer.GivesWithin Node.parts (.reference source target) name composite := by
    rw [givesWithin_iff]
    rintro (gives | ⟨part, listed, _⟩)
    · cases gives
    · cases listed
  have inArray {source inner : Path} {target name : String} {composite : Composite} :
      ¬lowerer.GivesWithin Node.parts (.array source (.reference inner target)) name composite := by
    rw [givesWithin_iff]
    rintro (gives | ⟨part, listed, given⟩)
    · cases gives
    · obtain rfl := List.mem_singleton.mp listed
      exact inReference given
  have only {name : String} {composite : Composite}
      (given : lowerer.GivesAmong Node.parts nodes name composite) :
      name = "Or_A_ArrB" ∧ composite = lowerer.unionOf members ∨
        name = "ArrayOf_B" ∧
          composite = .wrapper "ArrayOf_B" "items" (lowerer.descriptor array) := by
    obtain ⟨node, listed, given⟩ := given
    obtain rfl : node = .union (.root "union") members := by simpa [nodes] using listed
    rcases givesWithin_iff.mp given with gives | ⟨part, listed, given⟩
    · cases gives with
      | union several =>
          rw [distinct]
          exact .inl ⟨by cbv, rfl⟩
      | member several listed wrapped =>
          rw [distinct] at listed
          rcases List.mem_pair.mp listed with rfl | rfl <;> cases wrapped
          exact .inr ⟨by cbv, by cbv⟩
    · rcases List.mem_pair.mp listed with rfl | rfl
      · exact absurd given inReference
      · exact absurd given inArray
  have agrees : lowerer.Agrees Node.parts nodes := by
    intro name first second given given'
    rcases only given with ⟨rfl, rfl⟩ | ⟨rfl, rfl⟩
    · rcases only given' with ⟨-, rfl⟩ | ⟨equal, -⟩
      · rfl
      · exact absurd equal (by decide)
    · rcases only given' with ⟨equal, -⟩ | ⟨-, rfl⟩
      · exact absurd equal (by decide)
      · rfl
  have uses : (lowerer.unionOf members).Uses "ArrayOf_B" :=
    ⟨.ofName .wrapper "ArrayOf_B", by cbv; exact .tail _ (.head _), by simp⟩
  have reaches : ((lowerer.lowerAll nodes).run ⟨[], []⟩).2.Reaches
      ((lowerer.lowerAll nodes).run ⟨[], []⟩).1 "ArrayOf_B" := by
    have run : (lowerer.lowerAll nodes).run ⟨[], []⟩ =
        ([.ofName .union "Or_A_ArrB", .ofName .union "Or_A_ArrB"],
          ⟨[("ArrayOf_B", .wrapper "ArrayOf_B" "items" (lowerer.descriptor array)),
              ("Or_A_ArrB", lowerer.unionOf members)],
            [.registered "Or_A_ArrB", .registered "ArrayOf_B"]⟩) := by cbv
    rw [run]
    have first : (Descriptor.ofName .union "Or_A_ArrB").Uses "Or_A_ArrB" := by simp
    exact .through (.used List.mem_cons_self first) rfl uses
  obtain ⟨composite, defined, _, unique, _⟩ :=
    lowerAll_transparent lowerer nodes [] Node.parts (by simp) agrees "ArrayOf_B" reaches
  exact ⟨agrees, reaches, composite, defined, unique⟩

end Lowerer
end ProtocolCodegen
