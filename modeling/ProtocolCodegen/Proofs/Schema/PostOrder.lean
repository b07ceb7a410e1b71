import ProtocolCodegen.Proofs.Schema.Closures
import ProtocolCodegen.Remaining

/-!
# Lineages in post-order

A lineage is the depth-first listing of the records above a record: all that lend to a record are
listed first, in the order in which it names them, and a record that was entered is not entered
again.  The listing is determined by these rules alone, so it does not matter how deep a search may
go, as long as it may enter every declared name.  It holds exactly the records from which properties
are taken over, each of them once, and without cycles none stands after a record that takes over
from it.
-/

namespace ProtocolCodegen

/-! ## Names that remain -/

theorem length_remaining_le (names : List String) {seen seen' : List String}
    (more : seen ⊆ seen') :
    (remaining names seen').length ≤ (remaining names seen).length := by
  refine List.Sublist.length_le (List.monotone_filter_right names fun name fresh => ?_)
  simp only [decide_eq_true_eq] at fresh ⊢
  exact fun known => fresh (more known)

theorem mem_of_length_remaining_le_zero {names seen : List String} {name : String}
    (listed : name ∈ names) (none_left : (remaining names seen).length ≤ 0) : name ∈ seen := by
  by_contra fresh
  have left : name ∈ remaining names seen := List.mem_filter.mpr ⟨listed, by simpa using fresh⟩
  rw [List.eq_nil_of_length_eq_zero (Nat.le_zero.mp none_left)] at left
  cases left

/-! ## Pairs in order -/

theorem pair_sublist_iff {α : Type} {first second : α} {items : List α} :
    [first, second].Sublist items ↔
      ∃ before after, items = before ++ after ∧ first ∈ before ∧ second ∈ after := by
  rw [List.cons_sublist_iff]
  simp only [List.singleton_sublist]

/-- In a list without repetitions, standing before is transitive. -/
theorem pair_sublist_trans {α : Type} {first second third : α} {items : List α}
    (distinct : items.Nodup) (early : [first, second].Sublist items)
    (late : [second, third].Sublist items) : [first, third].Sublist items := by
  obtain ⟨before, after, rfl, first_mem, second_mem⟩ := pair_sublist_iff.mp early
  obtain ⟨before', after', split, second_mem', third_mem⟩ := pair_sublist_iff.mp late
  rcases List.append_eq_append_iff.mp split with ⟨between, rfl, rfl⟩ | ⟨between, rfl, rfl⟩
  · exact pair_sublist_iff.mpr
      ⟨before, between ++ after', rfl, first_mem, List.mem_append_right _ third_mem⟩
  · -- The second item would stand in both parts.
    exact absurd rfl ((List.nodup_append.mp distinct).2.2 second
      (List.mem_append_left _ second_mem') second second_mem)

namespace Model

variable {model : Model}

/-- The records of a pending list and all above them in depth-first post-order, without the names
that were entered before.  The names of listed records count as entered. -/
inductive PostOrder (model : Model) : (entered : List String) → (pending : List Structure) →
    (listed : List Structure) → Prop where
  | done {entered : List String} : PostOrder model entered [] []
  | again {entered : List String} {record : Structure} {pending listed : List Structure}
      (known : record.name ∈ entered) (later : PostOrder model entered pending listed) :
      PostOrder model entered (record :: pending) listed
  | enter {entered : List String} {record : Structure} {pending above listed : List Structure}
      (fresh : record.name ∉ entered)
      (ascends : PostOrder model (record.name :: entered) (model.lenders record) above)
      (later : PostOrder model (record.name :: (above.map (·.name) ++ entered)) pending listed) :
      PostOrder model entered (record :: pending) (above ++ record :: listed)

namespace PostOrder

variable {entered : List String} {pending listed : List Structure}

/-- The listing is determined by the rules. -/
theorem unique {other : List Structure} (order : model.PostOrder entered pending listed)
    (order' : model.PostOrder entered pending other) : other = listed := by
  induction order generalizing other with
  | done =>
      cases order'
      rfl
  | again known _ induction =>
      cases order' with
      | again _ later => exact induction later
      | enter fresh _ _ => exact absurd known fresh
  | enter fresh _ _ inductionAbove inductionLater =>
      cases order' with
      | again known _ => exact absurd known fresh
      | enter _ ascends later =>
          obtain rfl := inductionAbove ascends
          obtain rfl := inductionLater later
          rfl

theorem of_mem_iff {entered' : List String} (order : model.PostOrder entered pending listed)
    (same : ∀ name, name ∈ entered ↔ name ∈ entered') :
    model.PostOrder entered' pending listed := by
  induction order generalizing entered' with
  | done => exact .done
  | again known _ induction => exact .again ((same _).mp known) (induction same)
  | enter fresh _ _ inductionAbove inductionLater =>
      refine .enter (fun known => fresh ((same _).mpr known)) (inductionAbove ?_)
        (inductionLater ?_)
      · simp [same]
      · simp [same]

theorem append {pending' listed' : List Structure} (order : model.PostOrder entered pending listed)
    (order' : model.PostOrder (listed.map (·.name) ++ entered) pending' listed') :
    model.PostOrder entered (pending ++ pending') (listed ++ listed') := by
  induction order with
  | done => exact order'
  | again known _ induction => exact .again known (induction order')
  | enter fresh ascends _ _ inductionLater =>
      rw [List.append_assoc, List.cons_append]
      refine .enter fresh ascends (inductionLater (order'.of_mem_iff fun name => ?_))
      simp only [List.map_append, List.map_cons, List.mem_append, List.mem_cons]
      tauto

/-! ## What is listed -/

/-- Every pending record is entered, and so is every record that lends to a listed one. -/
theorem covers (order : model.PostOrder entered pending listed) :
    (∀ record ∈ pending, record.name ∈ listed.map (·.name) ++ entered) ∧
      ∀ child ∈ listed, ∀ parent, model.Inherits child parent →
        parent.name ∈ listed.map (·.name) ++ entered := by
  induction order with
  | done => simp
  | again known _ induction =>
      refine ⟨fun record among => ?_, induction.2⟩
      rcases List.mem_cons.mp among with rfl | later
      · exact List.mem_append_right _ known
      · exact induction.1 record later
  | @enter entered record pending above listed fresh _ _ inductionAbove inductionLater =>
      have early {name : String} (found : name ∈ above.map (·.name) ++ record.name :: entered) :
          name ∈ (above ++ record :: listed).map (·.name) ++ entered := by
        simp only [List.map_append, List.map_cons, List.mem_append, List.mem_cons] at found ⊢
        tauto
      have late {name : String}
          (found : name ∈ listed.map (·.name) ++ record.name :: (above.map (·.name) ++ entered)) :
          name ∈ (above ++ record :: listed).map (·.name) ++ entered := by
        simp only [List.map_append, List.map_cons, List.mem_append, List.mem_cons] at found ⊢
        tauto
      constructor
      · intro other among
        rcases List.mem_cons.mp among with rfl | later
        · simp
        · exact late (inductionLater.1 other later)
      · intro child among parent inherits
        rcases List.mem_append.mp among with before | others
        · exact early (inductionAbove.2 child before parent inherits)
        · rcases List.mem_cons.mp others with rfl | after
          · exact early (inductionAbove.1 parent inherits)
          · exact late (inductionLater.2 child after parent inherits)

/-- Only records above a pending one are listed. -/
theorem inherits_of_mem (order : model.PostOrder entered pending listed) {record : Structure}
    (among : record ∈ listed) :
    ∃ start ∈ pending, Relation.ReflTransGen model.Inherits start record := by
  induction order with
  | done => cases among
  | again _ _ induction =>
      obtain ⟨start, pending, path⟩ := induction among
      exact ⟨start, List.mem_cons_of_mem _ pending, path⟩
  | enter _ _ _ inductionAbove inductionLater =>
      rcases List.mem_append.mp among with before | others
      · obtain ⟨start, lends, path⟩ := inductionAbove before
        exact ⟨_, List.mem_cons_self, .head lends path⟩
      · rcases List.mem_cons.mp others with rfl | after
        · exact ⟨_, List.mem_cons_self, .refl⟩
        · obtain ⟨start, pending, path⟩ := inductionLater after
          exact ⟨start, List.mem_cons_of_mem _ pending, path⟩

/-- No name is listed twice or after it was entered. -/
theorem nodup (order : model.PostOrder entered pending listed) (distinct : entered.Nodup) :
    (listed.map (·.name) ++ entered).Nodup := by
  induction order with
  | done => exact distinct
  | again _ _ induction => exact induction distinct
  | @enter entered record pending above listed fresh _ _ inductionAbove inductionLater =>
      have before := inductionAbove (List.nodup_cons.mpr ⟨fresh, distinct⟩)
      have after := inductionLater ((List.perm_middle.nodup_iff).mp before)
      have rearranged : (listed.map (·.name) ++ record.name :: (above.map (·.name) ++ entered)).Perm
          ((above ++ record :: listed).map (·.name) ++ entered) := by
        refine List.perm_iff_count.mpr fun name => ?_
        simp only [List.map_append, List.map_cons, List.count_append, List.count_cons]
        omega
      exact rearranged.nodup_iff.mp after

/-- A record that lends to a listed one is listed before it or was entered before, or it is itself
below the other one. -/
theorem precedes (order : model.PostOrder entered pending listed) {child parent : Structure}
    (among : child ∈ listed) (inherits : model.Inherits child parent) :
    [parent.name, child.name].Sublist (listed.map (·.name)) ∨ parent.name ∈ entered ∨
      ∃ below ∈ listed, below.name = parent.name ∧
        Relation.ReflTransGen model.Inherits below child := by
  induction order with
  | done => cases among
  | again _ _ induction => exact induction among
  | @enter entered record pending above listed fresh ascends later inductionAbove inductionLater =>
      have pair {first second : String} (before : first ∈ above.map (·.name))
          (after : second ∈ record.name :: listed.map (·.name)) :
          [first, second].Sublist ((above ++ record :: listed).map (·.name)) := by
        rw [List.map_append, List.map_cons]
        exact (List.singleton_sublist.mpr before).append (List.singleton_sublist.mpr after)
      rcases List.mem_append.mp among with early | others
      · rcases inductionAbove early with ordered | known | ⟨below, listed, equal, path⟩
        · refine .inl (ordered.trans ?_)
          rw [List.map_append]
          exact List.sublist_append_left _ _
        · rcases List.mem_cons.mp known with equal | before
          · obtain ⟨start, lends, path⟩ := ascends.inherits_of_mem early
            exact .inr (.inr ⟨record, by simp, equal.symm, .head lends path⟩)
          · exact .inr (.inl before)
        · exact .inr (.inr ⟨below, List.mem_append_left _ listed, equal, path⟩)
      · rcases List.mem_cons.mp others with rfl | late
        · have found := ascends.covers.1 parent inherits
          rcases List.mem_append.mp found with before | known
          · exact .inl (pair before List.mem_cons_self)
          · rcases List.mem_cons.mp known with equal | before
            · exact .inr (.inr ⟨child, by simp, equal.symm, .refl⟩)
            · exact .inr (.inl before)
        · rcases inductionLater late with ordered | known | ⟨below, listed, equal, path⟩
          · refine .inl (ordered.trans ?_)
            rw [List.map_append, List.map_cons]
            exact (List.sublist_cons_self _ _).trans (List.sublist_append_right _ _)
          · have name_mem : child.name ∈ listed.map (·.name) := List.mem_map_of_mem late
            rcases List.mem_cons.mp known with equal | before
            · refine .inl ?_
              rw [equal, List.map_append, List.map_cons]
              exact ((List.singleton_sublist.mpr name_mem).cons_cons _).trans
                (List.sublist_append_right _ _)
            · rcases List.mem_append.mp before with early | before
              · exact .inl (pair early (List.mem_cons_of_mem _ name_mem))
              · exact .inr (.inl before)
          · refine .inr (.inr ⟨below, ?_, equal, path⟩)
            exact List.mem_append_right _ (List.mem_cons_of_mem _ listed)

end PostOrder

/-! ## Lineages -/

/-- What was listed above pending records is in post-order, and the names of these records are the
ones that were entered. -/
structure Ascends (model : Model) (seen : List String) (pending : List Structure)
    (lineage : Lineage) : Prop where
  order : model.PostOrder seen pending lineage.records
  seen_iff : ∀ name, name ∈ lineage.seen ↔ name ∈ lineage.records.map (·.name) ++ seen

theorem Ascends.add {ascend : Structure → List String → Lineage} {seen : List String}
    {pending : List Structure} {lineage : Lineage} {record : Structure}
    (ascends : model.Ascends seen pending lineage)
    (next : model.Ascends lineage.seen [record] (ascend record lineage.seen)) :
    model.Ascends seen (pending ++ [record]) (lineage.add ascend record) where
  order := ascends.order.append (next.order.of_mem_iff ascends.seen_iff)
  seen_iff name := by
    simp only [Lineage.add, next.seen_iff, ascends.seen_iff, List.map_append, List.mem_append]
    tauto

theorem Ascends.foldl {ascend : Structure → List String → Lineage} {seen : List String}
    {before pending : List Structure} {lineage : Lineage}
    (ascends : model.Ascends seen before lineage)
    (each : ∀ record ∈ pending, ∀ seen', seen ⊆ seen' →
      model.Ascends seen' [record] (ascend record seen')) :
    model.Ascends seen (before ++ pending) (pending.foldl (Lineage.add ascend) lineage) := by
  induction pending generalizing before lineage with
  | nil => rwa [List.append_nil]
  | cons record rest induction =>
      have known : seen ⊆ lineage.seen := fun name entered =>
        (ascends.seen_iff name).mpr (List.mem_append_right _ entered)
      have next := ascends.add (each record List.mem_cons_self lineage.seen known)
      have rest := induction next fun other listed => each other (List.mem_cons_of_mem _ listed)
      rwa [List.append_assoc] at rest

theorem ascends_of_known {record : Structure} {seen : List String} (known : record.name ∈ seen) :
    model.Ascends seen [record] ⟨[], seen⟩ :=
  ⟨.again known .done, fun _ => by simp⟩

theorem mem_structures_of_inherits {child parent : Structure}
    (inherits : model.Inherits child parent) : parent ∈ model.structures :=
  (isLastNamed_of_inherits inherits).mem

/-- A search that may go as deep as there are declared names left lists everything. -/
theorem ascends_lineageFrom {depth : Nat} {declared : Structure} {seen : List String}
    (listed : declared ∈ model.structures)
    (enough : (remaining (model.structures.map (·.name)) seen).length ≤ depth) :
    model.Ascends seen [declared] (model.lineageFrom depth declared seen) := by
  have named : declared.name ∈ model.structures.map (·.name) := List.mem_map_of_mem listed
  induction depth generalizing declared seen with
  | zero => exact ascends_of_known (mem_of_length_remaining_le_zero named enough)
  | succ depth induction =>
      rw [lineageFrom]
      split
      · rename_i known
        exact ascends_of_known known
      · rename_i fresh
        have fewer := length_remaining_cons_lt named fresh
        have start : model.Ascends (declared.name :: seen) [] ⟨[], declared.name :: seen⟩ :=
          ⟨.done, fun _ => by simp⟩
        have each (record : Structure) (lends : record ∈ model.lenders declared)
            (seen' : List String) (more : declared.name :: seen ⊆ seen') :
            model.Ascends seen' [record] (model.lineageFrom depth record seen') := by
          have known := mem_structures_of_inherits lends
          have smaller := length_remaining_le (model.structures.map (·.name)) more
          exact induction known (by omega) (List.mem_map_of_mem known)
        have above := start.foldl each
        refine ⟨.enter fresh above.order .done, fun name => ?_⟩
        simp only [above.seen_iff, List.map_append, List.map_cons, List.map_nil, List.mem_append,
          List.mem_cons, List.not_mem_nil]
        tauto

/-- The lineage of a record is listed in post-order. -/
theorem postOrder_lineage {declared : Structure} (listed : declared ∈ model.structures) :
    model.PostOrder [] [declared] (model.lineage declared) := by
  refine (ascends_lineageFrom listed ?_).order
  have fewer : (remaining (model.structures.map (·.name)) []).length ≤ model.structures.length := by
    simp [remaining]
  omega

theorem nodup_lineage {declared : Structure} (listed : declared ∈ model.structures) :
    ((model.lineage declared).map (·.name)).Nodup := by
  simpa using (postOrder_lineage listed).nodup List.nodup_nil

theorem mem_structures_of_path {declared record : Structure}
    (listed : declared ∈ model.structures)
    (path : Relation.ReflTransGen model.Inherits declared record) : record ∈ model.structures := by
  rcases path.cases_tail with rfl | ⟨child, _, inherits⟩
  · exact listed
  · exact mem_structures_of_inherits inherits

/-- Where a rank decreases from every record to those that lend to it, there are no cycles. -/
theorem acyclic_of_rank {rank : Structure → Nat}
    (decreases : ∀ child ∈ model.structures, ∀ parent ∈ model.lenders child,
      rank parent < rank child) {record : Structure} (listed : record ∈ model.structures) :
    ¬Relation.TransGen model.Inherits record record := by
  have descends {parent : Structure} (path : Relation.TransGen model.Inherits record parent) :
      parent ∈ model.structures ∧ rank parent < rank record := by
    induction path with
    | single inherits => exact ⟨mem_structures_of_inherits inherits, decreases _ listed _ inherits⟩
    | tail _ inherits induction =>
        exact ⟨mem_structures_of_inherits inherits,
          (decreases _ induction.1 _ inherits).trans induction.2⟩
  exact fun cycle => (descends cycle).2.false

section Distinct

variable (distinct : (model.structures.map (·.name)).Nodup) {declared : Structure}
  (listed : declared ∈ model.structures)

include distinct listed

omit distinct in
theorem mem_structures_of_mem_lineage {record : Structure}
    (above : record ∈ model.lineage declared) : record ∈ model.structures :=
  mem_structures_of_path listed (inherits_of_mem_lineage above)

theorem eq_of_mem_lineage {record other : Structure} (above : record ∈ model.lineage declared)
    (known : other ∈ model.structures) (same : other.name = record.name) : other = record :=
  List.inj_on_of_nodup_map distinct known
    (mem_structures_of_mem_lineage listed above) same

/-- Where names are distinct, a lineage holds exactly the records from which properties are taken
over. -/
theorem mem_lineage_iff {record : Structure} :
    record ∈ model.lineage declared ↔ Relation.ReflTransGen model.Inherits declared record := by
  refine ⟨inherits_of_mem_lineage, fun path => ?_⟩
  obtain ⟨starts, closed⟩ := (postOrder_lineage listed).covers
  have among {other : Structure} (known : other ∈ model.structures)
      (found : other.name ∈ (model.lineage declared).map (·.name) ++ []) :
      other ∈ model.lineage declared := by
    rw [List.append_nil] at found
    obtain ⟨same, above, equal⟩ := List.mem_map.mp found
    rwa [eq_of_mem_lineage distinct listed above known equal.symm]
  induction path with
  | refl => exact among listed (starts declared List.mem_cons_self)
  | tail _ inherits induction =>
      exact among (mem_structures_of_inherits inherits) (closed _ induction _ inherits)

section Acyclic

variable (acyclic : ∀ record, Relation.ReflTransGen model.Inherits declared record →
  ¬Relation.TransGen model.Inherits record record)

include acyclic

theorem pair_sublist_of_inherits {child parent : Structure}
    (above : child ∈ model.lineage declared) (inherits : model.Inherits child parent) :
    [parent.name, child.name].Sublist ((model.lineage declared).map (·.name)) := by
  rcases (postOrder_lineage listed).precedes above inherits with
    ordered | known | ⟨below, among, same, path⟩
  · exact ordered
  · cases known
  · obtain rfl :=
      eq_of_mem_lineage distinct listed among (mem_structures_of_inherits inherits) same.symm
    exact absurd (.head' inherits path) (acyclic child (inherits_of_mem_lineage above))

/-- Without cycles, a lineage lists a record after all from which it takes over properties. -/
theorem exists_split_of_inherits {child parent : Structure}
    (above : child ∈ model.lineage declared)
    (path : Relation.TransGen model.Inherits child parent) :
    ∃ before after, model.lineage declared = before ++ after ∧ parent ∈ before ∧
      child ∈ after := by
  have names_distinct := nodup_lineage listed
  have ordered : [parent.name, child.name].Sublist ((model.lineage declared).map (·.name)) := by
    induction path with
    | single inherits => exact pair_sublist_of_inherits distinct listed acyclic above inherits
    | @tail middle parent path inherits induction =>
        have middle_above : middle ∈ model.lineage declared :=
          (mem_lineage_iff distinct listed).mpr
            ((inherits_of_mem_lineage above).trans path.to_reflTransGen)
        exact pair_sublist_trans names_distinct
          (pair_sublist_of_inherits distinct listed acyclic middle_above inherits) induction
  obtain ⟨names, names', split, parent_mem, child_mem⟩ := pair_sublist_iff.mp ordered
  obtain ⟨before, after, records_eq, rfl, rfl⟩ := List.map_eq_append_iff.mp split
  obtain ⟨lender, early, lender_name⟩ := List.mem_map.mp parent_mem
  obtain ⟨taker, late, taker_name⟩ := List.mem_map.mp child_mem
  obtain rfl : parent = lender := by
    obtain ⟨_, _, inherits⟩ := Relation.TransGen.tail'_iff.mp path
    exact eq_of_mem_lineage distinct listed (records_eq ▸ List.mem_append_left _ early)
      (mem_structures_of_inherits inherits) lender_name.symm
  obtain rfl : child = taker :=
    eq_of_mem_lineage distinct listed (records_eq ▸ List.mem_append_right _ late)
      (mem_structures_of_mem_lineage listed above) taker_name.symm
  exact ⟨before, after, records_eq, early, late⟩

end Acyclic

end Distinct

end Model
end ProtocolCodegen
