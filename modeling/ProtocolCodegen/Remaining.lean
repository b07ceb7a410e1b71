/-!
# Names that remain

A search that marks names works on those of a finite list that it has not seen yet.  Marking one of
them leaves fewer, and marking any other name leaves the same ones.
-/

namespace ProtocolCodegen

/-- The names of a list that have not been seen. -/
def remaining (names seen : List String) : List String :=
  names.filter (· ∉ seen)

theorem remaining_cons (names seen : List String) (name : String) :
    remaining names (name :: seen) = (remaining names seen).filter (· ≠ name) := by
  simp [remaining, List.filter_filter]

theorem length_remaining_cons_lt {names seen : List String} {name : String}
    (listed : name ∈ names) (fresh : name ∉ seen) :
    (remaining names (name :: seen)).length < (remaining names seen).length := by
  rw [remaining_cons]
  apply List.length_filter_lt_length_iff_exists.mpr
  exact ⟨name, by simp [remaining, listed, fresh], by simp⟩

theorem remaining_cons_of_not_mem {names : List String} {name : String} (seen : List String)
    (unlisted : name ∉ names) : remaining names (name :: seen) = remaining names seen := by
  rw [remaining_cons, List.filter_eq_self]
  intro other member
  have other_listed : other ∈ names := (List.mem_filter.mp member).1
  simpa using fun same : other = name => unlisted (same ▸ other_listed)

end ProtocolCodegen
