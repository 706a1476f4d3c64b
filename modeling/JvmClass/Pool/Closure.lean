import JvmClass.Pool.Basic
import Std.Data.TreeSet

/-!
# JvmClass.Pool.Closure — all constants that some depend on.

`Pool.closure` collects the slots that can be reached from given ones along the references of
constants.  A slot without a constant is collected but leads nowhere, and the number 0 refers to
nothing.  The search visits no slot twice, so it ends on cyclic pools as well: each step either
shortens the list of what is pending or uses up one of the finitely many numbers not yet seen.
-/

namespace JvmClass

/-- A set of slot numbers, listed in ascending order. -/
abbrev IndexSet := Std.TreeSet UInt16

namespace IndexSet

/-- The set of the numbers in a list that refer to something. -/
def ofReferences (indices : List UInt16) : IndexSet :=
  .ofList (indices.filter (· ≠ 0))

/-! ## At most 65536 numbers -/

theorem length_le_of_ascending {numbers : List UInt16} (least : Nat)
    (ascending : numbers.Pairwise fun a b => a < b)
    (bounded : ∀ n ∈ numbers, least ≤ n.toNat) (small : least ≤ 65536) :
    numbers.length + least ≤ 65536 := by
  induction numbers generalizing least with
  | nil => simpa using small
  | cons n rest ih =>
    have next : rest.length + (n.toNat + 1) ≤ 65536 := by
      apply ih _ ascending.of_cons
      · intro m hm
        exact UInt16.lt_iff_toNat_lt.mp ((List.pairwise_cons.mp ascending).1 m hm)
      · exact n.toNat_lt
    have := bounded n (by simp)
    simp only [List.length_cons]
    omega

theorem size_le (s : IndexSet) : s.size ≤ 65536 := by
  rw [← Std.TreeSet.length_toList]
  refine length_le_of_ascending 0 ?_ (by simp) (by decide)
  refine Std.TreeSet.ordered_toList.imp ?_
  intro a b h
  exact Std.compare_eq_lt.mp h

theorem size_insert_of_notMem {s : IndexSet} {i : UInt16} (h : i ∉ s) :
    (s.insert i).size = s.size + 1 := by
  rw [Std.TreeSet.size_insert, if_neg]
  rwa [← Std.TreeSet.mem_iff_contains]

/-- A number that is not in a set leaves room in it: inserting it uses up one of those not yet
seen. -/
theorem room_insert_lt {s : IndexSet} {i : UInt16} (h : i ∉ s) :
    65536 - (s.insert i).size < 65536 - s.size := by
  have := size_le (s.insert i)
  have := size_insert_of_notMem h
  omega

end IndexSet

namespace Pool

/-- Collects into `seen` what can be reached from the pending numbers. -/
def closureFrom (p : Pool) : List UInt16 → IndexSet → IndexSet
  | [], seen => seen
  | i :: pending, seen =>
    if i = 0 then p.closureFrom pending seen
    else if i ∈ seen then p.closureFrom pending seen
    else
      match p.get? i with
      | some entry => p.closureFrom (entry.references ++ pending) (seen.insert i)
      | none => p.closureFrom pending (seen.insert i)
  termination_by pending seen => (65536 - seen.size, pending.length)
  decreasing_by
    · exact Prod.Lex.right _ (by simp)
    · exact Prod.Lex.right _ (by simp)
    · exact Prod.Lex.left _ _ (IndexSet.room_insert_lt ‹i ∉ seen›)
    · exact Prod.Lex.left _ _ (IndexSet.room_insert_lt ‹i ∉ seen›)

/-- The given slots and all that their constants depend on. -/
def closure (p : Pool) (roots : List UInt16) : IndexSet :=
  p.closureFrom roots ∅

end Pool

end JvmClass
