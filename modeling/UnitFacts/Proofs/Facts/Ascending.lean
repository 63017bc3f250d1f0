import Mathlib.Data.List.Sort
import UnitFacts.Proofs.Facts.Order
import UnitFacts.Proofs.Text.Utf8

/-!
The order of the reported lists. References ascend by symbol, line, column and the word of the usage, calls by
caller, callee and line; texts come in the order of their bytes. A list that ascends strictly is known by its members,
so putting a list in order depends on nothing but its members, and doing it twice changes nothing.
-/

namespace UnitFacts

/-! ### Neighbours with one key -/

section Neighbours

variable {α κ : Type} [DecidableEq κ] (key : α → κ)

theorem dropRepeats_sublist (same : α → α → Bool) (items : List α) :
    (dropRepeats same items).Sublist items := by
  fun_induction dropRepeats same items with
  | case1 => exact List.Sublist.refl _
  | case2 => exact List.Sublist.refl _
  | case3 first second rest _ ih => exact ih.trans ((List.sublist_cons_self second rest).cons_cons first)
  | case4 first second rest _ ih => exact ih.cons_cons first

/-- Of the items with one key the one that stays is no greater than any other. -/
theorem exists_mem_dropRepeats_le (le : α → α → Prop) (hrefl : ∀ a, le a a)
    (htrans : ∀ a b c, le a b → le b c → le a c) {items : List α} (hitems : items.Pairwise le) :
    ∀ item ∈ items, ∃ kept ∈ dropRepeats (fun first second => decide (key first = key second)) items,
      key kept = key item ∧ le kept item := by
  fun_induction dropRepeats (fun first second => decide (key first = key second)) items with
  | case1 => simp
  | case2 only =>
    intro item hitem
    exact ⟨item, hitem, rfl, hrefl item⟩
  | case3 first second rest hsame ih =>
    have hkey : key first = key second := of_decide_eq_true hsame
    replace ih := ih (hitems.sublist ((List.sublist_cons_self second rest).cons_cons first))
    intro item hitem
    rw [List.mem_cons, List.mem_cons, or_left_comm] at hitem
    rcases hitem with rfl | hitem
    -- `second` goes, and what stays for `first` stays for it too
    · obtain ⟨kept, hkept, hkeptKey, hle⟩ := ih first List.mem_cons_self
      exact ⟨kept, hkept, hkeptKey.trans hkey,
        htrans _ _ _ hle (List.rel_of_pairwise_cons hitems List.mem_cons_self)⟩
    · exact ih item (List.mem_cons.mpr hitem)
  | case4 first second rest _ ih =>
    refine List.forall_mem_cons.mpr ⟨⟨first, List.mem_cons_self, rfl, hrefl first⟩, fun item hitem => ?_⟩
    obtain ⟨kept, hkept, hkeptKey, hle⟩ := ih hitems.of_cons item hitem
    exact ⟨kept, List.mem_cons_of_mem _ hkept, hkeptKey, hle⟩

/-- Where keys never descend, they ascend strictly once neighbours with one key are dropped. -/
theorem pairwise_dropRepeats (lt : κ → κ → Prop) (htrans : ∀ x y z, lt x y → lt y z → lt x z)
    {items : List α}
    (hitems : items.Pairwise fun a b => key a = key b ∨ lt (key a) (key b)) :
    (dropRepeats (fun first second => decide (key first = key second)) items).Pairwise
      fun a b => lt (key a) (key b) := by
  fun_induction dropRepeats (fun first second => decide (key first = key second)) items with
  | case1 => exact List.Pairwise.nil
  | case2 => exact List.pairwise_singleton _ _
  | case3 first second rest _ ih =>
    exact ih (hitems.sublist ((List.sublist_cons_self second rest).cons_cons first))
  | case4 first second rest hne ih =>
    obtain ⟨hfirst, htail⟩ := List.pairwise_cons.mp hitems
    have hsecond : lt (key first) (key second) :=
      (hfirst second List.mem_cons_self).resolve_left fun heq => hne (decide_eq_true heq)
    refine List.pairwise_cons.mpr ⟨fun kept hkept => ?_, ih htail⟩
    -- what stays after `first` is `second` or comes after it
    rcases List.mem_cons.mp ((dropRepeats_sublist _ _).mem hkept) with rfl | hrest
    · exact hsecond
    · rcases (List.pairwise_cons.mp htail).1 kept hrest with heq | hlt
      · exact heq ▸ hsecond
      · exact htrans _ _ _ hsecond hlt

end Neighbours

/-! ### Sorting -/

section Sorting

variable {α : Type} [Ord α] [Std.TransOrd α]

theorem pairwise_sortAscending (items : List α) :
    (sortAscending items).Pairwise fun a b => (compare a b).isLE = true := by
  apply List.pairwise_mergeSort
  · exact fun a b c => Std.TransOrd.isLE_trans
  · intro a b
    rw [Std.OrientedOrd.eq_swap (a := b)]
    cases compare a b <;> rfl

theorem pairwise_sortUnique [Std.LawfulEqOrd α] [DecidableEq α] (items : List α) :
    (sortUnique items).Pairwise fun a b => compare a b = .lt := by
  refine pairwise_dropRepeats id (fun a b => compare a b = .lt) (fun a b c => Std.TransCmp.lt_trans) ?_
  refine (pairwise_sortAscending items).imp fun {a b} hle => ?_
  rw [id, id, ← Std.LawfulEqOrd.compare_eq_iff_eq (a := a)]
  cases hcompare : compare a b <;> simp_all

end Sorting

/-! ### The orders of the facts -/

theorem compare_string_eq_lt_iff (a b : String) : compare a b = .lt ↔ a < b := compareOfLessAndEq_eq_lt

namespace Usage

/-- Usages come in the order of their words. -/
theorem compare_eq_compare_name (a b : Usage) : compare a b = compare a.name b.name := by
  cases a <;> cases b <;> decide

theorem name_injective : Function.Injective name := by
  intro a b h
  cases a <;> cases b <;> first | rfl | exact absurd h (by decide)

instance : Std.TransOrd Usage where
  eq_swap {a b} := by rw [compare_eq_compare_name, compare_eq_compare_name, Std.OrientedOrd.eq_swap]
  isLE_trans {a b c} hab hbc := by
    rw [compare_eq_compare_name] at hab hbc ⊢
    exact Std.TransOrd.isLE_trans hab hbc

instance : Std.LawfulEqOrd Usage where
  eq_of_compare {a b} h := by
    rw [compare_eq_compare_name] at h
    exact name_injective (Std.LawfulEqOrd.eq_of_compare h)

end Usage

namespace ReferenceFact

/-- One reference stands before another: by symbol, then line, then column, then the word of the usage. -/
def Before (a b : ReferenceFact) : Prop :=
  utf8Bytes a.symbol < utf8Bytes b.symbol ∨ a.symbol = b.symbol ∧
    (a.line < b.line ∨ a.line = b.line ∧
      (a.col < b.col ∨ a.col = b.col ∧ utf8Bytes a.usage.name < utf8Bytes b.usage.name))

instance : Std.TransOrd ReferenceFact :=
  inferInstanceAs (Std.TransCmp (compareLex (compareOn symbol)
    (compareLex (compareOn line) (compareLex (compareOn col) (compareOn usage)))))

theorem compare_eq_then (a b : ReferenceFact) : compare a b = (compare a.symbol b.symbol).then
    ((compare a.line b.line).then ((compare a.col b.col).then (compare a.usage b.usage))) := rfl

instance : Std.LawfulEqOrd ReferenceFact where
  eq_of_compare {a b} h := by
    simp only [compare_eq_then, Ordering.then_eq_eq, Std.LawfulEqOrd.compare_eq_iff_eq] at h
    obtain ⟨hsymbol, hline, hcol, husage⟩ := h
    cases a
    cases b
    simp_all

theorem compare_eq_lt_iff (a b : ReferenceFact) : compare a b = .lt ↔ a.Before b := by
  simp only [compare_eq_then, Ordering.then_eq_lt, Std.LawfulEqOrd.compare_eq_iff_eq, Std.compare_eq_lt,
    Usage.compare_eq_compare_name, compare_string_eq_lt_iff, utf8Bytes_lt_iff, Before]

end ReferenceFact

namespace CallEdge

/-- One call stands before another: by caller, then callee, then line. -/
def Before (a b : CallEdge) : Prop :=
  utf8Bytes a.caller < utf8Bytes b.caller ∨ a.caller = b.caller ∧
    (utf8Bytes a.callee < utf8Bytes b.callee ∨ a.callee = b.callee ∧ a.line < b.line)

instance : Std.TransOrd CallEdge :=
  inferInstanceAs (Std.TransCmp (compareLex (compareOn caller) (compareLex (compareOn callee) (compareOn line))))

theorem compare_eq_then (a b : CallEdge) : compare a b =
    (compare a.caller b.caller).then ((compare a.callee b.callee).then (compare a.line b.line)) := rfl

instance : Std.LawfulEqOrd CallEdge where
  eq_of_compare {a b} h := by
    simp only [compare_eq_then, Ordering.then_eq_eq, Std.LawfulEqOrd.compare_eq_iff_eq] at h
    obtain ⟨hcaller, hcallee, hline⟩ := h
    cases a
    cases b
    simp_all

theorem compare_eq_lt_iff (a b : CallEdge) : compare a b = .lt ↔ a.Before b := by
  simp only [compare_eq_then, Ordering.then_eq_lt, Std.LawfulEqOrd.compare_eq_iff_eq, Std.compare_eq_lt,
    compare_string_eq_lt_iff, utf8Bytes_lt_iff, Before]

end CallEdge

/-! ### Lists in order -/

/-- A list is put in order: what may stay of its members ascends strictly, and there is no other such list; nothing
but the members decides, and a list in order stays as it is. -/
structure PutsInOrder {α : Type} (before : α → α → Prop) (stays : List α → α → Prop)
    (tidy : List α → List α) :
    Prop where
  order : IsStrictTotalOrder α before
  ascending : ∀ items, (tidy items).Pairwise before
  mem_iff : ∀ items item, item ∈ tidy items ↔ item ∈ items ∧ stays items item
  only : ∀ items result, result.Pairwise before →
    (∀ item, item ∈ result ↔ item ∈ items ∧ stays items item) →
    result = tidy items
  same : ∀ items others, (∀ item, item ∈ items ↔ item ∈ others) → tidy items = tidy others
  again : ∀ items, tidy (tidy items) = tidy items

section Order

variable {α : Type} {before : α → α → Prop} {stays : List α → α → Prop} {tidy : List α → List α}

/-- A lawful comparison orders strictly and totally. -/
theorem isStrictTotalOrder_of_compare [Ord α] [Std.TransOrd α] [Std.LawfulEqOrd α]
    (h : ∀ a b : α, compare a b = .lt ↔ before a b) : IsStrictTotalOrder α before where
  trichotomous a b hab hba := by
    rw [← h] at hab hba
    rw [Std.OrientedOrd.eq_swap, Ordering.swap_eq_lt] at hba
    rw [← Std.LawfulEqOrd.compare_eq_iff_eq (a := a)]
    cases hcompare : compare a b <;> simp_all
  irrefl a := by rw [← h, Std.ReflOrd.compare_self]; simp
  trans a b c := by
    simp only [← h]
    exact Std.TransCmp.lt_trans

/-- If more members never let an item stay that fewer do not, the strictly ascending list of what stays is the
list put in order. -/
theorem putsInOrder_of_ascending (horder : IsStrictTotalOrder α before)
    (hfewer : ∀ items others item, others ⊆ items → stays items item → stays others item)
    (hascending : ∀ items, (tidy items).Pairwise before)
    (hmem : ∀ items item, item ∈ tidy items ↔ item ∈ items ∧ stays items item) :
    PutsInOrder before stays tidy where
  order := horder
  ascending := hascending
  mem_iff := hmem
  only items result hresult hresultMem := hresult.eq_of_mem_iff (hascending items) fun item => by
    rw [hresultMem, hmem]
  same items others heq := (hascending items).eq_of_mem_iff (hascending others) fun item => by
    rw [hmem, hmem, heq]
    exact and_congr_right fun _ =>
      ⟨hfewer items others item fun a => (heq a).mpr, hfewer others items item fun a => (heq a).mp⟩
  again items := (hascending _).eq_of_mem_iff (hascending items) fun item => by
    rw [hmem]
    refine and_iff_left_of_imp fun hitem => ?_
    exact hfewer items _ item (fun a ha => ((hmem items a).mp ha).1) ((hmem items item).mp hitem).2

end Order

namespace ReferenceFact

/-- A reference stays unless it is a read at the site of a call to the same symbol. -/
def Stays (facts : List ReferenceFact) (fact : ReferenceFact) : Prop :=
  fact.usage ≠ .read ∨
    ¬ ∃ call ∈ facts,
      call.usage = .call ∧ call.symbol = fact.symbol ∧ call.line = fact.line ∧ call.col = fact.col

theorem stays_iff (facts : List ReferenceFact) (fact : ReferenceFact) :
    Stays facts fact ↔ isShadowed facts fact = false := by
  rw [Stays, ← Bool.not_eq_true, isShadowed_iff, not_and_or]
  simp only [sameSite, Bool.and_eq_true, decide_eq_true_eq, and_assoc]

theorem pairwise_tidy (facts : List ReferenceFact) : (tidy facts).Pairwise Before := by
  refine List.Pairwise.imp (fun h => (compare_eq_lt_iff _ _).mp h) ?_
  exact (pairwise_sortUnique facts).filter _

end ReferenceFact

theorem CallEdge.pairwise_tidy (edges : List CallEdge) : (tidy edges).Pairwise Before :=
  (pairwise_sortUnique edges).imp fun h => (compare_eq_lt_iff _ _).mp h

/-- References and calls are put in order; of the references only hidden reads go, of the calls none. -/
structure ListsTidied : Prop where
  references : PutsInOrder ReferenceFact.Before ReferenceFact.Stays ReferenceFact.tidy
  not_reads : ∀ facts fact, fact.usage ≠ .read → (fact ∈ ReferenceFact.tidy facts ↔ fact ∈ facts)
  calls : PutsInOrder CallEdge.Before (fun _ _ => True) CallEdge.tidy

/-- Whatever references and calls there are, they are put in order. -/
theorem listsTidied : ListsTidied where
  references := by
    apply putsInOrder_of_ascending
    · exact isStrictTotalOrder_of_compare ReferenceFact.compare_eq_lt_iff
    · intro facts others fact hsub hstays
      refine hstays.imp_right fun hno => ?_
      rintro ⟨call, hcall, hsite⟩
      exact hno ⟨call, hsub hcall, hsite⟩
    · exact ReferenceFact.pairwise_tidy
    · intro facts fact
      rw [ReferenceFact.mem_tidy_iff, ReferenceFact.stays_iff]
  not_reads facts fact hfact := by
    rw [ReferenceFact.mem_tidy_iff, ← ReferenceFact.stays_iff]
    exact and_iff_left (Or.inl hfact)
  calls := by
    apply putsInOrder_of_ascending
    · exact isStrictTotalOrder_of_compare CallEdge.compare_eq_lt_iff
    · exact fun _ _ _ _ => id
    · exact CallEdge.pairwise_tidy
    · exact fun edges edge => (CallEdge.mem_tidy edges edge).trans (and_iff_left trivial).symm

end UnitFacts
