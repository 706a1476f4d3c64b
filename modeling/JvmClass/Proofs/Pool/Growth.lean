import JvmClass.Proofs.Pool.Layout

/-!
# JvmClass.Proofs.Pool.Growth — what pushing constants leaves alone.

A constant is put behind those that are there, or it is refused and the pool stays as it is.  Either
way the slots in use stand where they stood: the pool is the beginning of the one that a call leaves
(`Pool.Extends`), and so of the one that any number of calls leaves.  Marks are added in their
places, so that a canonical pool stays canonical.
-/

namespace JvmClass

namespace Pool

/-! ## Calls -/

/-- The pool that a call of `push` leaves. -/
def afterPush (p : Pool) (e : Entry) : Pool :=
  match p.push e with
  | .ok (_, q) => q
  | .error _ => p

/-- The pool that calls of `push` leave, one after the other. -/
def afterPushes (p : Pool) (entries : List Entry) : Pool :=
  entries.foldl afterPush p

/-- All that a call can do: refuse a constant that makes the pool too large, or put it behind the
others. -/
theorem afterPush_cases (p : Pool) (e : Entry) :
    maxSize < p.size + e.width ∧ p.afterPush e = p ∨
      p.size + e.width ≤ maxSize ∧ p.afterPush e = ⟨p.slots ++ e.slots⟩ := by
  unfold afterPush
  cases pushed : p.push e with
  | error o => exact .inl ⟨(push_eq_error_iff.mp pushed).1, rfl⟩
  | ok result =>
      obtain ⟨room, -, appended⟩ := push_eq_ok_iff.mp pushed
      exact .inr ⟨room, appended⟩

/-! ## The slots in use -/

/-- The pool has the slots of the other one, and perhaps more behind them. -/
def Extends (q p : Pool) : Prop :=
  p.slots.toList <+: q.slots.toList

theorem Extends.refl (p : Pool) : p.Extends p :=
  List.prefix_rfl

theorem Extends.trans {p q r : Pool} (first : q.Extends p) (second : r.Extends q) : r.Extends p :=
  List.IsPrefix.trans first second

theorem extends_afterPush (p : Pool) (e : Entry) : (p.afterPush e).Extends p := by
  rcases p.afterPush_cases e with ⟨-, same⟩ | ⟨-, appended⟩
  · rw [same]
    exact .refl p
  · rw [appended]
    exact ⟨e.slots, Array.toList_appendList.symm⟩

theorem extends_afterPushes (p : Pool) (entries : List Entry) :
    (p.afterPushes entries).Extends p := by
  induction entries generalizing p with
  | nil => exact .refl p
  | cons e entries ih => exact (p.extends_afterPush e).trans (ih (p.afterPush e))

theorem get?_eq (p : Pool) (index : UInt16) :
    p.get? index = if index = 0 then none else p.slots.toList[index.toNat - 1]? := by
  rw [get?, Array.getElem?_toList]

/-- A number that stands for something stands for the same in a pool that extends the first. -/
theorem Extends.get?_eq_some {p q : Pool} (h : q.Extends p) {index : UInt16} {entry : Entry}
    (found : p.get? index = some entry) : q.get? index = some entry := by
  rw [get?_eq] at found ⊢
  by_cases zero : index = 0
  · rw [if_pos zero] at found
    cases found
  · rw [if_neg zero] at found ⊢
    obtain ⟨within, rfl⟩ := List.getElem?_eq_some_iff.mp found
    exact List.prefix_iff_getElem?.mp h _ within

/-! ## Marks -/

/-- Pushing a constant lays it out like the others. -/
theorem canonical_afterPush {p : Pool} (h : p.Canonical) {e : Entry} (constant : e ≠ .unusable) :
    (p.afterPush e).Canonical := by
  rcases p.afterPush_cases e with ⟨-, same⟩ | ⟨-, appended⟩
  · rwa [same]
  · rw [canonical_iff] at h ⊢
    obtain ⟨entries, constants, rfl⟩ := h
    refine ⟨entries ++ [e], ?_, ?_⟩
    · rw [List.mem_append, List.mem_singleton]
      exact not_or.mpr ⟨constants, constant.symm⟩
    · rw [appended, ofEntries, ofEntries, List.flatMap_append, List.flatMap_singleton,
        List.toArray_appendList]

theorem canonical_afterPushes {p : Pool} (h : p.Canonical) {entries : List Entry}
    (constants : .unusable ∉ entries) : (p.afterPushes entries).Canonical := by
  induction entries generalizing p with
  | nil => exact h
  | cons e entries ih =>
      rw [List.mem_cons, not_or] at constants
      exact ih (canonical_afterPush h (Ne.symm constants.1)) constants.2

end Pool

end JvmClass
