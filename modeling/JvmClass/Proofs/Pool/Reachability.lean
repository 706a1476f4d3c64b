import JvmClass.Pool.Closure
import Mathlib.Logic.Relation

/-!
# JvmClass.Proofs.Pool.Reachability — the search for what constants depend on.

`Pool.closure` takes the pending numbers in one order.  What it collects does not depend on the
order, and neither does the fact that it ends; so both are proved of `Pool.Step`, which takes any
pending number.  A number that is 0 or was collected already is dropped.  Any other one is
collected, and what it refers to takes its place.

Two things carry the proofs.  The invariant `Search.Sound` says that all numbers in sight can be
reached, and that nothing that the collected ones refer to was lost.  And `Search.measure` goes down
with each step: a step that collects a number adds two pending ones at most, and there are 65535
numbers to collect.

The pool may be any list of slots.  Its references may form cycles or lead out of it.
-/

namespace JvmClass

namespace IndexSet

theorem mem_insert_iff {s : IndexSet} {i j : UInt16} : j ∈ s.insert i ↔ j = i ∨ j ∈ s := by
  rw [Std.TreeSet.mem_insert, Std.compare_eq_iff_eq, eq_comm]

theorem notMem_empty (i : UInt16) : i ∉ (∅ : IndexSet) :=
  Std.TreeSet.not_mem_emptyc

/-- Without the number 0 there is room for one less. -/
theorem size_le_of_zero_notMem {s : IndexSet} (h : 0 ∉ s) : s.size ≤ 65535 := by
  have bound : s.toList.length + 1 ≤ 65536 := by
    refine length_le_of_ascending 1 ?_ ?_ (by decide)
    · refine Std.TreeSet.ordered_toList.imp ?_
      intro a b h
      exact Std.compare_eq_lt.mp h
    · intro i hi
      have nonzero : i ≠ 0 := by
        rintro rfl
        exact h (Std.TreeSet.mem_toList.mp hi)
      rw [Nat.one_le_iff_ne_zero]
      intro zero
      exact nonzero (UInt16.toNat_inj.mp zero)
  rw [Std.TreeSet.length_toList] at bound
  omega

end IndexSet

theorem Entry.length_references_le (e : Entry) : e.references.length ≤ 2 := by
  cases e <;> simp [references]

namespace Pool

/-! ## Chains of references -/

/-- The constant in the first slot refers to the second number. -/
def RefersTo (p : Pool) (i j : UInt16) : Prop :=
  ∃ e, p.get? i = some e ∧ j ∈ e.references

/-- A chain of references leads from one of the roots to the number.  All numbers in front of the
last one stand for constants, and the last need not. -/
def Reachable (p : Pool) (roots : List UInt16) (i : UInt16) : Prop :=
  ∃ root ∈ roots, Relation.ReflTransGen p.RefersTo root i

theorem not_refersTo_zero {p : Pool} {j : UInt16} : ¬ p.RefersTo 0 j := by
  rintro ⟨e, found, -⟩
  cases found

theorem Reachable.step {p : Pool} {roots : List UInt16} {i j : UInt16} (h : p.Reachable roots i)
    (next : p.RefersTo i j) : p.Reachable roots j := by
  obtain ⟨root, given, chain⟩ := h
  exact ⟨root, given, chain.tail next⟩

/-- The numbers that the constant in a slot refers to.  A number that stands for nothing leads
nowhere. -/
def references (p : Pool) (i : UInt16) : List UInt16 :=
  match p.get? i with
  | some e => e.references
  | none => []

theorem mem_references_iff {p : Pool} {i j : UInt16} : j ∈ p.references i ↔ p.RefersTo i j := by
  unfold references RefersTo
  cases p.get? i <;> simp

theorem length_references_le (p : Pool) (i : UInt16) : (p.references i).length ≤ 2 := by
  unfold references
  split
  · exact Entry.length_references_le _
  · exact Nat.zero_le 2

/-! ## Searches in any order -/

/-- Where a search stands: the numbers that are pending, and those that were collected. -/
structure Search where
  pending : List UInt16
  seen : IndexSet

/-- One step of a search, on a pending number at any place. -/
inductive Step (p : Pool) : Search → Search → Prop
  | skip (before after : List UInt16) {seen : IndexSet} {i : UInt16} :
      i = 0 ∨ i ∈ seen → Step p ⟨before ++ i :: after, seen⟩ ⟨before ++ after, seen⟩
  | visit (before after : List UInt16) {seen : IndexSet} {i : UInt16} :
      i ≠ 0 → i ∉ seen →
      Step p ⟨before ++ i :: after, seen⟩ ⟨before ++ (p.references i ++ after), seen.insert i⟩

/-- So many steps, one after the other. -/
inductive Walk (p : Pool) : Nat → Search → Search → Prop
  | done (s : Search) : Walk p 0 s s
  | step {n : Nat} {s t u : Search} : Step p s t → Walk p n t u → Walk p (n + 1) s u

/-- A search goes on as long as a number is pending. -/
theorem exists_step (p : Pool) {s : Search} (h : s.pending ≠ []) : ∃ t, p.Step s t := by
  obtain ⟨pending, seen⟩ := s
  cases pending with
  | nil => exact absurd rfl h
  | cons i after =>
      by_cases old : i = 0 ∨ i ∈ seen
      · exact ⟨_, .skip [] after old⟩
      · obtain ⟨nonzero, unseen⟩ := not_or.mp old
        exact ⟨_, .visit [] after nonzero unseen⟩

/-- The number needs no more attention than it will get. -/
def Search.Covers (s : Search) (i : UInt16) : Prop :=
  i = 0 ∨ i ∈ s.seen ∨ i ∈ s.pending

/-- Nothing in sight is out of reach, and nothing that can be reached in one step was lost. -/
structure Search.Sound (p : Pool) (roots : List UInt16) (s : Search) : Prop where
  nonzero : 0 ∉ s.seen
  seen : ∀ i ∈ s.seen, p.Reachable roots i
  pending : ∀ i ∈ s.pending, p.Reachable roots i
  started : ∀ root ∈ roots, s.Covers root
  followed : ∀ i ∈ s.seen, ∀ j, p.RefersTo i j → s.Covers j

variable {p : Pool} {roots : List UInt16} {s t : Search} {n : Nat}

theorem Search.sound_start (p : Pool) (roots : List UInt16) : Search.Sound p roots ⟨roots, ∅⟩ where
  nonzero := IndexSet.notMem_empty 0
  seen i h := absurd h (IndexSet.notMem_empty i)
  pending i h := ⟨i, h, .refl⟩
  started _ h := .inr (.inr h)
  followed i h := absurd h (IndexSet.notMem_empty i)

/-- A step loses nothing. -/
theorem Step.covers (step : p.Step s t) {i : UInt16} (h : s.Covers i) : t.Covers i := by
  cases step with
  | skip before after old =>
      simp only [Search.Covers, List.mem_append, List.mem_cons] at h ⊢
      rcases h with zero | seen | front | rfl | back
      · exact .inl zero
      · exact .inr (.inl seen)
      · exact .inr (.inr (.inl front))
      · exact old.imp_right .inl
      · exact .inr (.inr (.inr back))
  | visit before after nonzero unseen =>
      simp only [Search.Covers, List.mem_append, List.mem_cons, IndexSet.mem_insert_iff] at h ⊢
      rcases h with zero | seen | front | rfl | back
      · exact .inl zero
      · exact .inr (.inl (.inr seen))
      · exact .inr (.inr (.inl front))
      · exact .inr (.inl (.inl rfl))
      · exact .inr (.inr (.inr (.inr back)))

theorem Step.sound (step : p.Step s t) (h : s.Sound p roots) : t.Sound p roots := by
  have kept : ∀ j, s.Covers j → t.Covers j := fun _ => step.covers
  have started : ∀ root ∈ roots, t.Covers root := fun root given => kept root (h.started root given)
  cases step with
  | skip before after old =>
      refine ⟨h.nonzero, h.seen, fun j hj => h.pending j ?_, started, fun j hj k next => ?_⟩
      · exact ((List.sublist_cons_self _ after).append_left before).subset hj
      · exact kept k (h.followed j hj k next)
  | @visit before after seen i nonzero unseen =>
      have reached : p.Reachable roots i := h.pending i (by simp)
      refine ⟨?_, fun j hj => ?_, fun j hj => ?_, started, fun j hj k next => ?_⟩
      · rw [IndexSet.mem_insert_iff]
        exact not_or.mpr ⟨nonzero.symm, h.nonzero⟩
      · rcases IndexSet.mem_insert_iff.mp hj with rfl | old
        · exact reached
        · exact h.seen j old
      · -- what takes the place of the number is one step further from the roots
        simp only [List.mem_append] at hj
        rcases hj with front | new | back
        · exact h.pending j (by simp [front])
        · exact reached.step (mem_references_iff.mp new)
        · exact h.pending j (by simp [back])
      · rcases IndexSet.mem_insert_iff.mp hj with rfl | old
        · refine .inr (.inr ?_)
          simp [mem_references_iff, next]
        · exact kept k (h.followed j old k next)

/-- Pending numbers count once, and those that are not collected twice, since they may bring two
more. -/
def Search.measure (s : Search) : Nat :=
  s.pending.length + 2 * (65535 - s.seen.size)

theorem Step.measure_lt (step : p.Step s t) (h : s.Sound p roots) : t.measure < s.measure := by
  have bound := IndexSet.size_le_of_zero_notMem (step.sound h).nonzero
  cases step with
  | skip before after old =>
      simp only [Search.measure, List.length_append, List.length_cons]
      omega
  | @visit before after seen i nonzero unseen =>
      have few := p.length_references_le i
      have grown := IndexSet.size_insert_of_notMem unseen
      simp only [Search.measure, List.length_append, List.length_cons, grown] at bound ⊢
      omega

theorem Walk.sound (walk : p.Walk n s t) (h : s.Sound p roots) : t.Sound p roots := by
  induction walk with
  | done s => exact h
  | step first _ ih => exact ih (first.sound h)

theorem Walk.measure_le (walk : p.Walk n s t) (h : s.Sound p roots) :
    n + t.measure ≤ s.measure := by
  induction walk with
  | done s => exact Nat.le_of_eq (Nat.zero_add _)
  | step first _ ih =>
      have less := first.measure_lt h
      have rest := ih (first.sound h)
      omega

/-- When nothing is pending any more, just what can be reached was collected. -/
theorem Search.Sound.mem_seen_iff (h : s.Sound p roots) (ended : s.pending = []) {i : UInt16} :
    i ∈ s.seen ↔ i ≠ 0 ∧ p.Reachable roots i := by
  have settled : ∀ j, s.Covers j → j = 0 ∨ j ∈ s.seen := by
    intro j covered
    rw [Search.Covers, ended] at covered
    exact covered.imp_right fun h => h.resolve_right List.not_mem_nil
  constructor
  · intro found
    refine ⟨?_, h.seen i found⟩
    rintro rfl
    exact h.nonzero found
  · rintro ⟨nonzero, root, given, chain⟩
    -- along the chain, each number was collected before the next one was met
    have collected : i = 0 ∨ i ∈ s.seen := by
      induction chain with
      | refl => exact settled root (h.started root given)
      | @tail j k _ next ih =>
          have inner : j ≠ 0 := by
            rintro rfl
            exact not_refersTo_zero next
          exact settled k (h.followed j ((ih inner).resolve_left inner) k next)
    exact collected.resolve_left nonzero

/-! ## The order of the library -/

/-- `closureFrom` takes the first of the pending numbers at each step. -/
theorem exists_walk_closureFrom (p : Pool) (pending : List UInt16) (seen : IndexSet) :
    ∃ n, p.Walk n ⟨pending, seen⟩ ⟨[], p.closureFrom pending seen⟩ := by
  induction pending, seen using closureFrom.induct p with
  | case1 seen =>
      rw [closureFrom]
      exact ⟨0, .done _⟩
  | case2 pending seen ih =>
      obtain ⟨n, walk⟩ := ih
      rw [closureFrom, if_pos rfl]
      exact ⟨n + 1, .step (.skip [] pending (.inl rfl)) walk⟩
  | case3 i pending seen nonzero old ih =>
      obtain ⟨n, walk⟩ := ih
      rw [closureFrom, if_neg nonzero, if_pos old]
      exact ⟨n + 1, .step (.skip [] pending (.inr old)) walk⟩
  | case4 i pending seen nonzero unseen e found ih =>
      obtain ⟨n, walk⟩ := ih
      have step := Step.visit (p := p) [] pending nonzero unseen
      rw [show p.references i = e.references by rw [references, found]] at step
      rw [closureFrom, if_neg nonzero, if_neg unseen, found]
      exact ⟨n + 1, .step step walk⟩
  | case5 i pending seen nonzero unseen missing ih =>
      obtain ⟨n, walk⟩ := ih
      have step := Step.visit (p := p) [] pending nonzero unseen
      rw [show p.references i = [] by rw [references, missing]] at step
      rw [closureFrom, if_neg nonzero, if_neg unseen, missing]
      exact ⟨n + 1, .step step walk⟩

/-- The closure holds just the numbers other than 0 that can be reached from the roots.  It is found
by a search, and every search from the roots, whichever of the pending numbers it takes at each
step, ends after a bounded number of steps with the same numbers collected. -/
theorem closure_exact (p : Pool) (roots : List UInt16) :
    (∀ i, i ∈ p.closure roots ↔ i ≠ 0 ∧ p.Reachable roots i) ∧
      (∃ n, p.Walk n ⟨roots, ∅⟩ ⟨[], p.closure roots⟩) ∧
      ∀ n s, p.Walk n ⟨roots, ∅⟩ s →
        n ≤ roots.length + 2 * 65535 ∧ (s.pending ≠ [] → ∃ t, p.Step s t) ∧
          (s.pending = [] → ∀ i, i ∈ s.seen ↔ i ∈ p.closure roots) := by
  have start := Search.sound_start p roots
  have found := p.exists_walk_closureFrom roots ∅
  have reached : ∀ i, i ∈ p.closure roots ↔ i ≠ 0 ∧ p.Reachable roots i := by
    obtain ⟨n, walk⟩ := found
    exact fun i => (walk.sound start).mem_seen_iff rfl
  refine ⟨reached, found, fun n s walk => ⟨?_, p.exists_step, fun ended i => ?_⟩⟩
  · have bound := walk.measure_le start
    have full : Search.measure ⟨roots, ∅⟩ = roots.length + 2 * 65535 := by
      rw [Search.measure, Std.TreeSet.size_emptyc]
    omega
  · rw [(walk.sound start).mem_seen_iff ended, reached]

/-- The class refers to itself and is not asked for, and two of the numbers lead out of the pool. -/
example :
    (closure ⟨#[.classRef 1, .nameAndType 3 9, .string 2]⟩ [3, 0, 7, 3]).toList = [2, 3, 7, 9] := by
  cbv

end Pool

end JvmClass
