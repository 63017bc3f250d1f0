import UnitFacts.Facts.Order

/-!
What stays in the reported lists. Sorting and the search for neighbours that are equal lose no item; of the
references only a read goes, and only where a call to the same symbol stands.
-/

namespace UnitFacts

section Unique

variable {α : Type} [DecidableEq α]

theorem mem_dropRepeats (items : List α) (a : α) :
    a ∈ dropRepeats (fun first second => decide (first = second)) items ↔ a ∈ items := by
  fun_induction dropRepeats (fun first second => decide (first = second)) items with
  | case1 => rfl
  | case2 => rfl
  | case3 first second rest hsame ih =>
    obtain rfl : first = second := of_decide_eq_true hsame
    rw [ih]
    simp
  | case4 first second rest _ ih =>
    rw [List.mem_cons, ih]
    simp only [List.mem_cons]

@[simp] theorem mem_sortUnique [Ord α] (items : List α) (a : α) : a ∈ sortUnique items ↔ a ∈ items := by
  rw [sortUnique, mem_dropRepeats, sortAscending, List.mem_mergeSort]

@[simp] theorem sortUnique_nil [Ord α] : sortUnique ([] : List α) = [] :=
  List.eq_nil_iff_forall_not_mem.mpr fun a h => List.not_mem_nil ((mem_sortUnique [] a).mp h)

end Unique

namespace ReferenceFact

@[simp] theorem tidy_nil : tidy [] = [] := by simp [tidy]

/-- A read at the site of a call to the same symbol. -/
theorem isShadowed_iff (facts : List ReferenceFact) (fact : ReferenceFact) :
    isShadowed facts fact = true ↔
      fact.usage = .read ∧ ∃ call ∈ facts, call.usage = .call ∧ call.sameSite fact = true := by
  simp [isShadowed]

theorem mem_tidy_iff (facts : List ReferenceFact) (fact : ReferenceFact) :
    fact ∈ tidy facts ↔ fact ∈ facts ∧ isShadowed facts fact = false := by
  have hshadow : isShadowed (sortUnique facts) fact = isShadowed facts fact := by
    rw [Bool.eq_iff_iff, isShadowed_iff, isShadowed_iff]
    simp only [mem_sortUnique]
  rw [tidy, List.mem_filter, mem_sortUnique, hshadow, Bool.not_eq_true']

/-- No call is lost. -/
theorem mem_tidy_of_call {facts : List ReferenceFact} {fact : ReferenceFact} (hcall : fact.usage = .call) :
    fact ∈ tidy facts ↔ fact ∈ facts := by
  simp [mem_tidy_iff, isShadowed, hcall]

end ReferenceFact

@[simp] theorem CallEdge.tidy_nil : tidy [] = [] := sortUnique_nil

theorem CallEdge.mem_tidy (edges : List CallEdge) (edge : CallEdge) : edge ∈ tidy edges ↔ edge ∈ edges :=
  mem_sortUnique edges edge

end UnitFacts
