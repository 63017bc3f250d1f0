import Mathlib.Data.List.Nodup

/-!
What a search through a list finds: the entry of a key, the only item of a kind, the first answer, and the
newest entry that anything is made of.
-/

namespace UnitFacts

theorem mem_of_lookup_eq_some {α β : Type} [BEq α] [LawfulBEq α] {entries : List (α × β)} {key : α}
    {value : β}
    (h : entries.lookup key = some value) : (key, value) ∈ entries := by
  obtain ⟨before, after, rfl, -⟩ := List.lookup_eq_some_iff.mp h
  simp

/-- Where no key is given twice, every entry is found by its key. -/
theorem lookup_eq_some_of_mem {α β : Type} [BEq α] [LawfulBEq α] {entries : List (α × β)}
    (hkeys : (entries.map Prod.fst).Nodup) {key : α} {value : β} (h : (key, value) ∈ entries) :
    entries.lookup key = some value := by
  obtain ⟨before, after, rfl⟩ := List.append_of_mem h
  refine List.lookup_eq_some_iff.mpr ⟨before, after, rfl, fun entry hentry => ?_⟩
  rw [List.map_append, List.nodup_append] at hkeys
  have hne := hkeys.2.2 entry.1 (List.mem_map_of_mem hentry) key (by simp)
  simpa using hne.symm

theorem find?_eq_some_of_unique {α : Type} {p : α → Bool} {items : List α} {item : α} (hmem : item ∈ items)
    (hitem : p item = true) (hunique : ∀ other ∈ items, p other = true → other = item) :
    items.find? p = some item := by
  cases hfound : items.find? p with
  | none => exact absurd hitem (List.find?_eq_none.mp hfound item hmem)
  | some other => rw [hunique other (List.mem_of_find?_eq_some hfound) (List.find?_some hfound)]

/-- A search in which every item has no answer or the same as this one. -/
theorem findSome?_eq_of_mem {α β : Type} {f : α → Option β} {items : List α} {item : α} (hmem : item ∈ items)
    (h : ∀ other ∈ items, f other = none ∨ f other = f item) : items.findSome? f = f item := by
  cases hfound : items.findSome? f with
  | none => exact (List.findSome?_eq_none_iff.mp hfound item hmem).symm
  | some answer =>
    obtain ⟨other, hother, heq⟩ := List.exists_of_findSome?_eq_some hfound
    rcases h other hother with hnone | hsame
    · rw [hnone] at heq
      cases heq
    · exact heq.symm.trans hsame

/-- What is looked up is made of the newest entry of the key that anything is made of. -/
theorem lookup_filterMap_eq_some_iff {α β γ : Type} [DecidableEq α] (f : α → β → Option γ)
    (links : List (α × β)) (a : α) (c : γ) :
    (links.filterMap fun link => (f link.1 link.2).map fun c => (link.1, c)).lookup a = some c ↔
      ∃ newer b older, links = newer ++ (a, b) :: older ∧ f a b = some c ∧
        ∀ other, (a, other) ∈ newer → f a other = none := by
  induction links with
  | nil => simp
  | cons link rest ih =>
    obtain ⟨x, y⟩ := link
    by_cases hmade : x = a ∧ (f x y).isSome
    · -- the first entry is the one that is found
      obtain ⟨rfl, hsome⟩ := hmade
      obtain ⟨z, hz⟩ := Option.isSome_iff_exists.mp hsome
      rw [List.filterMap_cons_some (by rw [hz]; rfl), List.lookup_cons_self]
      constructor
      · rintro ⟨⟩
        exact ⟨[], y, rest, rfl, hz, by simp⟩
      · rintro ⟨newer, b, older, heq, hb, hnewer⟩
        cases newer with
        | nil =>
          cases heq
          exact hz.symm.trans hb
        | cons first newer =>
          cases heq
          cases hz.symm.trans (hnewer y List.mem_cons_self)
    · have hskip :
          (((x, y) :: rest).filterMap fun link => (f link.1 link.2).map fun c => (link.1, c)).lookup a =
            (rest.filterMap fun link => (f link.1 link.2).map fun c => (link.1, c)).lookup a := by
        cases hz : f x y with
        | none => rw [List.filterMap_cons_none (by rw [hz]; rfl)]
        | some z =>
          have hne : ¬ a = x := fun heq => hmade ⟨heq.symm, by rw [hz]; rfl⟩
          rw [List.filterMap_cons_some (by rw [hz]; rfl), List.lookup_cons, beq_false_of_ne hne]
      rw [hskip, ih]
      constructor
      · rintro ⟨newer, b, older, rfl, hb, hnewer⟩
        refine ⟨(x, y) :: newer, b, older, rfl, hb, fun other hother => ?_⟩
        rcases List.mem_cons.mp hother with heq | hold
        · cases heq
          simpa using hmade
        · exact hnewer other hold
      · rintro ⟨newer, b, older, heq, hb, hnewer⟩
        cases newer with
        | nil =>
          cases heq
          exact absurd ⟨rfl, by rw [hb]; rfl⟩ hmade
        | cons first newer =>
          cases heq
          exact ⟨newer, b, older, rfl, hb, fun other hother => hnewer other (List.mem_cons_of_mem _ hother)⟩

end UnitFacts
