import Mathlib.Data.List.Induction
import UnitFacts.Unique

/-!
Which items are kept when keys are remembered: one for each key, the first, in the order in which the keys
were first met. `firstByKey_eq_firstOfEach` says it without remembering keys: an item stays if none before it
has its key.
-/

namespace UnitFacts

variable {α κ : Type} [DecidableEq κ] (key : α → κ)

/-- What is seen already is not kept, and nothing is kept twice. -/
theorem nodup_map_firstByKey (seen : List κ) (items : List α) :
    ((firstByKey key seen items).map key).Nodup ∧ ∀ item ∈ firstByKey key seen items, key item ∉ seen := by
  induction items generalizing seen with
  | nil => simp [firstByKey]
  | cons first rest ih =>
    rw [firstByKey]
    split
    · exact ih seen
    · rename_i hfirst
      obtain ⟨hnodup, hnew⟩ := ih (key first :: seen)
      rw [List.map_cons, List.nodup_cons, List.forall_mem_cons]
      refine ⟨⟨?_, hnodup⟩, hfirst, fun item hitem h => hnew item hitem (List.mem_cons_of_mem _ h)⟩
      intro h
      obtain ⟨item, hitem, heq⟩ := List.mem_map.mp h
      exact hnew item hitem (heq ▸ List.mem_cons_self)

/-- The keys of what is kept are all the keys that were not seen before. -/
theorem mem_map_firstByKey (seen : List κ) (items : List α) (k : κ) :
    k ∈ (firstByKey key seen items).map key ↔ k ∈ items.map key ∧ k ∉ seen := by
  induction items generalizing seen with
  | nil => simp [firstByKey]
  | cons first rest ih =>
    rw [firstByKey]
    split
    · rename_i hfirst
      rw [ih, List.map_cons, List.mem_cons]
      constructor
      · exact fun h => ⟨Or.inr h.1, h.2⟩
      · rintro ⟨rfl | hrest, hnot⟩
        · exact absurd hfirst hnot
        · exact ⟨hrest, hnot⟩
    · rename_i hfirst
      rw [List.map_cons, List.map_cons, List.mem_cons, List.mem_cons, ih, List.mem_cons, not_or]
      by_cases hk : k = key first
      · simp [hk, hfirst]
      · simp [hk]

theorem firstByKey_append (seen : List κ) (items : List α) (last : α) :
    firstByKey key seen (items ++ [last]) =
      firstByKey key seen items ++ if key last ∈ seen ∨ key last ∈ items.map key then [] else [last] := by
  induction items generalizing seen with
  | nil =>
    rw [List.nil_append, firstByKey]
    split <;> simp_all [firstByKey]
  | cons first rest ih =>
    rw [List.cons_append, firstByKey, firstByKey, List.map_cons]
    split
    · rename_i hfirst
      rw [ih]
      by_cases hlast : key last = key first
      · simp [hlast, hfirst]
      · simp [hlast]
    · rw [ih, List.cons_append]
      simp only [List.mem_cons, or_assoc, or_left_comm]

theorem mem_of_mem_firstByKey (seen : List κ) (items : List α) {item : α}
    (h : item ∈ firstByKey key seen items) : item ∈ items := by
  induction items generalizing seen with
  | nil => simp [firstByKey] at h
  | cons first rest ih =>
    rw [firstByKey] at h
    split at h
    · exact List.mem_cons_of_mem _ (ih seen h)
    · rcases List.mem_cons.mp h with rfl | hrest
      · exact List.mem_cons_self
      · exact List.mem_cons_of_mem _ (ih _ hrest)

/-- What is kept is the first item with its key, if that key was not seen before. -/
theorem mem_firstByKey_iff (seen : List κ) (items : List α) (item : α) :
    item ∈ firstByKey key seen items ↔
      key item ∉ seen ∧ items.find? (fun other => decide (key other = key item)) = some item := by
  induction items generalizing seen with
  | nil => simp [firstByKey]
  | cons first rest ih =>
    rw [firstByKey]
    by_cases hkey : key first = key item
    · rw [List.find?_cons_of_pos (by simp [hkey])]
      split
      · rename_i hseen
        rw [ih]
        exact ⟨fun h => absurd (hkey ▸ hseen) h.1, fun h => absurd (hkey ▸ hseen) h.1⟩
      · rename_i hseen
        rw [List.mem_cons, ih, Option.some.injEq]
        constructor
        · rintro (rfl | h)
          · exact ⟨hseen, rfl⟩
          · exact absurd (by simp [hkey]) h.1
        · exact fun h => Or.inl h.2.symm
    · rw [List.find?_cons_of_neg (by simp [hkey])]
      split
      · exact ih seen
      · have hne : item ≠ first := fun h => hkey (h ▸ rfl)
        rw [List.mem_cons, ih, List.mem_cons, not_or]
        simp [hne, Ne.symm hkey]

/-- The items, in their order, whose key no earlier item has. -/
def firstOfEach (items : List α) : List α :=
  (items.zipIdx.filter fun entry => decide (key entry.1 ∉ (items.take entry.2).map key)).map (·.1)

/-- One more item changes nothing for those before it. -/
theorem firstOfEach_append (items : List α) (last : α) :
    firstOfEach key (items ++ [last]) =
      firstOfEach key items ++ if key last ∈ items.map key then [] else [last] := by
  have hbefore : ∀ entry ∈ items.zipIdx,
      decide (key entry.1 ∉ ((items ++ [last]).take entry.2).map key) =
        decide (key entry.1 ∉ (items.take entry.2).map key) := by
    intro entry hentry
    have hlt := List.snd_lt_of_mem_zipIdx hentry
    rw [List.take_append_of_le_length (by omega)]
  have hlast : (items ++ [last]).take (0 + items.length) = items := by
    rw [Nat.zero_add, List.take_left]
  rw [firstOfEach, List.zipIdx_append, List.filter_append, List.map_append, List.filter_congr hbefore,
    ← firstOfEach, List.zipIdx_singleton, List.filter_cons, List.filter_nil, hlast]
  by_cases h : key last ∈ items.map key <;> simp [h]

theorem firstByKey_eq_firstOfEach (items : List α) : firstByKey key [] items = firstOfEach key items := by
  induction items using List.reverseRecOn with
  | nil => rfl
  | append_singleton items last ih =>
    rw [firstByKey_append, firstOfEach_append, ih]
    simp only [List.not_mem_nil, false_or]

section Plain

variable [DecidableEq α] (items : List α)

theorem nodup_firstByKey_id : (firstByKey id [] items).Nodup := by
  simpa using (nodup_map_firstByKey id [] items).1

theorem mem_firstByKey_id (a : α) : a ∈ firstByKey id [] items ↔ a ∈ items := by
  simpa using mem_map_firstByKey id [] items a

end Plain

end UnitFacts
