import Mathlib.Data.List.Sort
import Mathlib.Data.String.Basic
import ProtocolCodegen.Text.Sorted

/-!
# Order of texts

Sorting by a key and keeping the first item of each key commute with a change of the items.  The
keys that are left stand in strictly increasing order, so they depend on the set of keys alone.
Sorting is stable: the items of each key keep their order, which determines the sorted list, so
that a selection of items can be made before or after they are sorted.
-/

namespace ProtocolCodegen.Text

/-! ## Change of items -/

theorem sortedBy_map {α β : Type} (key : β → String) (change : α → β) (items : List α) :
    sortedBy key (items.map change) =
      (sortedBy (fun item => key (change item)) items).map change := by
  symm
  exact List.map_mergeSort fun _ _ _ _ => rfl

theorem distinctByFrom_map {α β : Type} (key : β → String) (change : α → β) (items : List α)
    (seen : List String) :
    distinctByFrom key seen (items.map change) =
      (distinctByFrom (fun item => key (change item)) seen items).map change := by
  induction items generalizing seen with
  | nil => rfl
  | cons item rest induction =>
      simp only [List.map_cons, distinctByFrom]
      split
      · exact induction seen
      · rw [induction, List.map_cons]

theorem distinctBy_map {α β : Type} (key : β → String) (change : α → β) (items : List α) :
    distinctBy key (items.map change) =
      (distinctBy (fun item => key (change item)) items).map change :=
  distinctByFrom_map key change items []

/-! ## The first item of each key -/

theorem distinctByFrom_sublist {α : Type} (key : α → String) (items : List α)
    (seen : List String) : (distinctByFrom key seen items).Sublist items := by
  induction items generalizing seen with
  | nil => exact .slnil
  | cons item rest induction =>
      rw [distinctByFrom]
      split
      · exact (induction seen).cons item
      · exact (induction _).cons_cons item

theorem distinctBy_sublist {α : Type} (key : α → String) (items : List α) :
    (distinctBy key items).Sublist items :=
  distinctByFrom_sublist key items []

theorem not_mem_seen_of_mem_distinctByFrom {α : Type} {key : α → String} {items : List α}
    {seen : List String} {item : α} (kept : item ∈ distinctByFrom key seen items) :
    key item ∉ seen := by
  induction items generalizing seen with
  | nil => cases kept
  | cons first rest induction =>
      rw [distinctByFrom] at kept
      split at kept
      · exact induction kept
      · rename_i fresh
        rcases List.mem_cons.mp kept with rfl | later
        · exact fresh
        · exact fun before => induction later (List.mem_cons_of_mem _ before)

theorem exists_mem_distinctByFrom {α : Type} {key : α → String} {items : List α}
    {seen : List String} {item : α} (listed : item ∈ items) (fresh : key item ∉ seen) :
    ∃ kept ∈ distinctByFrom key seen items, key kept = key item := by
  induction items generalizing seen with
  | nil => cases listed
  | cons first rest induction =>
      rw [distinctByFrom]
      by_cases same : key first = key item
      · rw [if_neg (same ▸ fresh)]
        exact ⟨first, List.mem_cons_self, same⟩
      · have later : item ∈ rest :=
          (List.mem_cons.mp listed).resolve_left fun equal => same (equal ▸ rfl)
        split
        · exact induction later fresh
        · have fresh : key item ∉ key first :: seen := by
            simpa [Ne.symm same] using fresh
          obtain ⟨kept, listed, equal⟩ := induction later fresh
          exact ⟨kept, List.mem_cons_of_mem _ listed, equal⟩

theorem mem_map_distinctBy {α : Type} {key : α → String} {items : List α} {text : String} :
    text ∈ (distinctBy key items).map key ↔ text ∈ items.map key := by
  simp only [List.mem_map]
  constructor
  · rintro ⟨item, kept, rfl⟩
    exact ⟨item, (distinctBy_sublist key items).subset kept, rfl⟩
  · rintro ⟨item, listed, rfl⟩
    exact exists_mem_distinctByFrom listed List.not_mem_nil

theorem pairwise_distinctByFrom {α : Type} {key : α → String} {items : List α}
    (ordered : items.Pairwise fun first second => key first ≤ key second) (seen : List String) :
    (distinctByFrom key seen items).Pairwise fun first second => key first < key second := by
  induction items generalizing seen with
  | nil => exact .nil
  | cons item rest induction =>
      obtain ⟨least, ordered⟩ := List.pairwise_cons.mp ordered
      rw [distinctByFrom]
      split
      · exact induction ordered seen
      · refine List.pairwise_cons.mpr ⟨?_, induction ordered _⟩
        intro later kept
        have below := least later ((distinctByFrom_sublist key rest _).subset kept)
        have different : key later ≠ key item := fun equal =>
          not_mem_seen_of_mem_distinctByFrom kept (equal ▸ List.mem_cons_self)
        exact lt_of_le_of_ne below different.symm

theorem distinctByFrom_eq_self {α : Type} {key : α → String} {items : List α} {seen : List String}
    (fresh : ∀ item ∈ items, key item ∉ seen) (distinct : (items.map key).Nodup) :
    distinctByFrom key seen items = items := by
  induction items generalizing seen with
  | nil => rfl
  | cons item rest induction =>
      obtain ⟨different, distinctRest⟩ := List.nodup_cons.mp distinct
      rw [distinctByFrom, if_neg (fresh item List.mem_cons_self), induction _ distinctRest]
      intro later listed
      rw [List.mem_cons, not_or]
      refine ⟨fun same => different ?_, fresh later (List.mem_cons_of_mem _ listed)⟩
      exact same ▸ List.mem_map_of_mem listed

theorem sortedBy_eq_self {α : Type} {key : α → String} {items : List α}
    (ordered : items.Pairwise fun first second => key first ≤ key second) :
    sortedBy key items = items :=
  List.mergeSort_of_pairwise (ordered.imp fun below => decide_eq_true below)

/-- Items that are in the order of their keys, all of which are different, stay as they are. -/
theorem distinctBy_sortedBy_eq_self {α : Type} {key : α → String} {items : List α}
    (ordered : items.Pairwise fun first second => key first < key second) :
    distinctBy key (sortedBy key items) = items := by
  rw [sortedBy_eq_self (ordered.imp fun less => less.le), distinctBy]
  exact distinctByFrom_eq_self (fun _ _ => List.not_mem_nil)
    (List.pairwise_map.mpr (ordered.imp fun less => less.ne))

/-! ## Sorting -/

theorem key_le_trans {α : Type} (key : α → String) (first second third : α)
    (below : decide (key first ≤ key second) = true)
    (above : decide (key second ≤ key third) = true) :
    decide (key first ≤ key third) = true := by
  simp only [decide_eq_true_eq] at below above ⊢
  exact le_trans below above

theorem key_le_total {α : Type} (key : α → String) (first second : α) :
    (decide (key first ≤ key second) || decide (key second ≤ key first)) = true := by
  simpa using le_total (key first) (key second)

theorem pairwise_sortedBy {α : Type} (key : α → String) (items : List α) :
    (sortedBy key items).Pairwise fun first second => key first ≤ key second := by
  have ordered : (sortedBy key items).Pairwise fun first second =>
      decide (key first ≤ key second) = true :=
    List.pairwise_mergeSort (key_le_trans key) (key_le_total key) items
  exact ordered.imp of_decide_eq_true

theorem pairwise_sorted (texts : List String) :
    (sorted texts).Pairwise fun first second => first ≤ second :=
  pairwise_sortedBy id texts

theorem nodup_eraseDups (texts : List String) : texts.eraseDups.Nodup := by
  induction length : texts.length using Nat.strongRecOn generalizing texts with
  | ind size induction =>
      cases texts with
      | nil => exact List.nodup_nil
      | cons text rest =>
          rw [List.eraseDups_cons, List.nodup_cons]
          constructor
          · simp
          · have shorter := List.length_filter_le (fun other => !other == text) rest
            exact induction _ (by simp at length; omega) _ rfl

theorem pairwise_sortedSet (texts : List String) :
    (sortedSet texts).Pairwise fun first second => first < second := by
  have distinct : (sortedSet texts).Nodup :=
    (sorted_perm texts.eraseDups).nodup_iff.mpr (nodup_eraseDups texts)
  have ordered := pairwise_sorted texts.eraseDups
  exact ordered.imp₂ (fun _ _ below different => lt_of_le_of_ne below different) distinct

theorem eq_of_pairwise_lt {first second : List String}
    (ordered : first.Pairwise fun left right => left < right)
    (ordered' : second.Pairwise fun left right => left < right)
    (same : ∀ text, text ∈ first ↔ text ∈ second) : first = second := by
  have distinct : first.Nodup := ordered.imp fun below => below.ne
  have distinct' : second.Nodup := ordered'.imp fun below => below.ne
  exact ((List.perm_ext_iff_of_nodup distinct distinct').mpr same).eq_of_pairwise
    (fun _ _ _ _ below above => absurd above below.asymm) ordered ordered'

theorem two_le_length_sortedSet {texts : List String} {first second : String}
    (listed : first ∈ texts) (listed' : second ∈ texts) (different : first ≠ second) :
    2 ≤ (sortedSet texts).length := by
  have distinct : [first, second].Nodup := by simpa using different
  refine (List.subperm_of_subset distinct fun text among => ?_).length_le
  rcases List.mem_pair.mp among with rfl | rfl
  · exact mem_sortedSet.mpr listed
  · exact mem_sortedSet.mpr listed'

theorem sortedSet_eq_iff {first second : List String} :
    sortedSet first = sortedSet second ↔ ∀ text, text ∈ first ↔ text ∈ second := by
  constructor
  · intro equal text
    rw [← mem_sortedSet, equal, mem_sortedSet]
  · intro same
    exact eq_of_pairwise_lt (pairwise_sortedSet first) (pairwise_sortedSet second) (by simpa)

/-- The keys of the items that are kept depend on the set of keys alone. -/
theorem map_distinctBy_sortedBy {α : Type} (key : α → String) (items : List α) :
    (distinctBy key (sortedBy key items)).map key = sortedSet (items.map key) := by
  apply eq_of_pairwise_lt
  · exact List.pairwise_map.mpr (pairwise_distinctByFrom (pairwise_sortedBy key items) [])
  · exact pairwise_sortedSet _
  · intro text
    rw [mem_map_distinctBy, mem_sortedSet]
    exact ((sortedBy_perm key items).map key).mem_iff

/-! ## Stability -/

/-- Items of equal keys keep their order. -/
theorem filter_key_sortedBy {α : Type} (key : α → String) (items : List α) (text : String) :
    (sortedBy key items).filter (key · == text) = items.filter (key · == text) := by
  have equal_keys : (items.filter (key · == text)).Pairwise fun first second =>
      decide (key first ≤ key second) = true := by
    refine List.pairwise_of_forall_mem_list fun first listed second listed' => ?_
    have first_eq : key first = text := by simpa using (List.mem_filter.mp listed).2
    have second_eq : key second = text := by simpa using (List.mem_filter.mp listed').2
    simp [first_eq, second_eq]
  have inside : (items.filter (key · == text)).Sublist (sortedBy key items) :=
    List.sublist_mergeSort (key_le_trans key) (key_le_total key) equal_keys List.filter_sublist
  have kept := inside.filter (key · == text)
  rw [List.filter_filter] at kept
  simp only [Bool.and_self] at kept
  exact (kept.eq_of_length ((sortedBy_perm key items).filter _).length_eq.symm).symm

theorem mem_iff_of_filter_key {α : Type} {key : α → String} {first second : List α}
    (same : ∀ text, first.filter (key · == text) = second.filter (key · == text)) (item : α) :
    item ∈ first ↔ item ∈ second := by
  have listed := congrArg (item ∈ ·) (same (key item))
  simpa using listed

/-- A list in the order of its keys is determined by the items of each key. -/
theorem eq_of_filter_key {α : Type} {key : α → String} {first second : List α}
    (ordered : first.Pairwise fun left right => key left ≤ key right)
    (ordered' : second.Pairwise fun left right => key left ≤ key right)
    (same : ∀ text, first.filter (key · == text) = second.filter (key · == text)) :
    first = second := by
  induction first generalizing second with
  | nil =>
      symm
      simpa [List.eq_nil_iff_forall_not_mem] using mem_iff_of_filter_key same
  | cons item rest induction =>
      cases second with
      | nil => simpa using mem_iff_of_filter_key same item
      | cons item' rest' =>
          have mem_iff := mem_iff_of_filter_key same
          obtain ⟨least, orderedRest⟩ := List.pairwise_cons.mp ordered
          obtain ⟨least', orderedRest'⟩ := List.pairwise_cons.mp ordered'
          have below : key item ≤ key item' := by
            rcases List.mem_cons.mp ((mem_iff item').mpr List.mem_cons_self) with rfl | later
            · exact le_rfl
            · exact least item' later
          have above : key item' ≤ key item := by
            rcases List.mem_cons.mp ((mem_iff item).mp List.mem_cons_self) with rfl | later
            · exact le_rfl
            · exact least' item later
          have equal_key : key item = key item' := le_antisymm below above
          have heads := same (key item')
          simp only [List.filter_cons, equal_key, beq_self_eq_true, if_true, List.cons.injEq]
            at heads
          obtain ⟨rfl, _⟩ := heads
          have tails (text : String) :
              rest.filter (key · == text) = rest'.filter (key · == text) := by
            have both := same text
            by_cases here : key item = text
            · simpa [here] using both
            · simpa [here] using both
          rw [induction orderedRest orderedRest' tails]

/-- Selecting items and sorting them can be done in either order. -/
theorem filter_sortedBy {α : Type} (key : α → String) (kept : α → Bool) (items : List α) :
    (sortedBy key items).filter kept = sortedBy key (items.filter kept) := by
  apply eq_of_filter_key ((pairwise_sortedBy key items).filter kept)
    (pairwise_sortedBy key (items.filter kept))
  intro text
  rw [filter_key_sortedBy, List.filter_comm, filter_key_sortedBy, List.filter_comm]

/-- Where keys are distinct, the order of the items has no effect on their sorting. -/
theorem sortedBy_eq_of_perm {α : Type} {key : α → String} {items items' : List α}
    (reordered : items'.Perm items) (distinct : (items.map key).Nodup) :
    sortedBy key items' = sortedBy key items := by
  have same_items : (sortedBy key items').Perm (sortedBy key items) :=
    (sortedBy_perm key items').trans (reordered.trans (sortedBy_perm key items).symm)
  apply same_items.eq_of_pairwise _ (pairwise_sortedBy key items') (pairwise_sortedBy key items)
  intro first second listed listed' below above
  have among : first ∈ items := reordered.mem_iff.mp ((sortedBy_perm key items').mem_iff.mp listed)
  have among' : second ∈ items := (sortedBy_perm key items).mem_iff.mp listed'
  exact List.inj_on_of_nodup_map distinct among among' (le_antisymm below above)

/-- Only the keys of the items have an effect on their sorting. -/
theorem sortedBy_congr {α : Type} {key key' : α → String} {items : List α}
    (same : ∀ item ∈ items, key' item = key item) : sortedBy key' items = sortedBy key items := by
  have listed {item : α} (among : item ∈ sortedBy key' items) : item ∈ items :=
    (sortedBy_perm key' items).mem_iff.mp among
  have ordered : (sortedBy key' items).Pairwise fun first second => key first ≤ key second := by
    refine (pairwise_sortedBy key' items).imp_of_mem fun first second below => ?_
    rwa [same _ (listed first), same _ (listed second)] at below
  apply eq_of_filter_key ordered (pairwise_sortedBy key items)
  intro text
  have kept {kept : List α} (among : ∀ item ∈ kept, item ∈ items) :
      kept.filter (key · == text) = kept.filter (key' · == text) :=
    List.filter_congr fun item inside => by rw [same item (among item inside)]
  rw [filter_key_sortedBy, kept fun item => listed, filter_key_sortedBy, kept fun item => id]

/-- Sorting leaves items that correspond in corresponding places. -/
theorem forall₂_sortedBy {α β : Type} {corresponds : α → β → Prop} {key : α → String}
    {key' : β → String} {items : List α} {items' : List β}
    (each : List.Forall₂ corresponds items items')
    (same : ∀ item item', corresponds item item' → key' item' = key item) :
    List.Forall₂ corresponds (sortedBy key items) (sortedBy key' items') := by
  obtain ⟨pairs, rfl, rfl, paired⟩ : ∃ pairs : List (α × β), pairs.map (·.1) = items ∧
      pairs.map (·.2) = items' ∧ ∀ pair ∈ pairs, corresponds pair.1 pair.2 := by
    obtain ⟨length_eq, zipped⟩ := List.forall₂_iff_zip.mp each
    exact ⟨items.zip items', List.map_fst_zip length_eq.le, List.map_snd_zip length_eq.ge,
      fun pair listed => zipped listed⟩
  have sorted : sortedBy (fun pair => key' pair.2) pairs = sortedBy (fun pair => key pair.1) pairs :=
    sortedBy_congr fun pair listed => same _ _ (paired pair listed)
  rw [sortedBy_map, sortedBy_map, sorted, List.forall₂_map_left_iff, List.forall₂_map_right_iff,
    List.forall₂_same]
  exact fun pair listed => paired pair ((sortedBy_perm _ _).mem_iff.mp listed)

theorem forall₂_distinctByFrom {α β : Type} {corresponds : α → β → Prop} {key : α → String}
    {key' : β → String} {items : List α} {items' : List β}
    (each : List.Forall₂ corresponds items items')
    (same : ∀ item item', corresponds item item' → key' item' = key item) (seen : List String) :
    List.Forall₂ corresponds (distinctByFrom key seen items)
      (distinctByFrom key' seen items') := by
  induction each generalizing seen with
  | nil => exact .nil
  | cons first _ induction =>
      rw [distinctByFrom, distinctByFrom, same _ _ first]
      split
      · exact induction seen
      · exact .cons first (induction _)

/-- The keys of fewer items are, in order, among those of more items. -/
theorem map_sortedBy_sublist {α β : Type} {key : α → String} {key' : β → String}
    {items : List α} {items' : List β} (fewer : (items.map key).Sublist (items'.map key')) :
    ((sortedBy key items).map key).Sublist ((sortedBy key' items').map key') := by
  have ordered : ((sortedBy key items).map key).Pairwise (· ≤ ·) :=
    List.pairwise_map.mpr (pairwise_sortedBy key items)
  have ordered' : ((sortedBy key' items').map key').Pairwise (· ≤ ·) :=
    List.pairwise_map.mpr (pairwise_sortedBy key' items')
  have among : ((sortedBy key items).map key).Subperm ((sortedBy key' items').map key') :=
    (((sortedBy_perm key items).map key).subperm.trans fewer.subperm).trans
      ((sortedBy_perm key' items').map key').symm.subperm
  exact List.sublist_of_subperm_of_pairwise among ordered ordered'

end ProtocolCodegen.Text
