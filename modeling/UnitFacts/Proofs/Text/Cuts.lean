import Mathlib.Data.List.Infix
import UnitFacts.Text.Basic

/-!
What cuts of a text find. What follows a start, put behind it, is the text again. Lines that are joined with newlines,
each with or without a carriage return before it, are the lines of what comes of it, if none of them is empty, holds a
newline or ends in a carriage return. Trimming leaves a text alone that has no blank at its ends.
-/

namespace UnitFacts.Text

/-! ### Starts -/

theorem after?_eq_some_iff (start text value : String) : after? start text = some value ↔ text = start ++ value := by
  rw [after?, Option.map_eq_some_iff]
  simp only [List.isPrefixOf?_eq_some_iff_append_eq]
  constructor
  · rintro ⟨rest, htext, rfl⟩
    rw [← String.toList_inj, ← htext]
    simp
  · rintro rfl
    exact ⟨value.toList, by simp, by simp⟩

theorem startsWith_iff (start text : String) : startsWith start text = true ↔ ∃ value, text = start ++ value := by
  rw [startsWith, List.isPrefixOf_iff_prefix]
  constructor
  · rintro ⟨rest, htext⟩
    refine ⟨String.ofList rest, ?_⟩
    rw [← String.toList_inj, ← htext]
    simp
  · rintro ⟨value, rfl⟩
    exact ⟨value.toList, by simp⟩

/-- Neither of two texts begins with the other. -/
def Apart (first second : String) : Prop := ¬ first.toList <+: second.toList ∧ ¬ second.toList <+: first.toList

instance (first second : String) : Decidable (Apart first second) := inferInstanceAs (Decidable (_ ∧ _))

theorem Apart.append_ne {first second : String} (h : Apart first second) (value other : String) :
    first ++ value ≠ second ++ other := by
  intro heq
  have hfirst : first.toList <+: (second ++ other).toList := heq ▸ ⟨value.toList, by simp⟩
  have hsecond : second.toList <+: (second ++ other).toList := ⟨other.toList, by simp⟩
  rcases List.prefix_or_prefix_of_prefix hfirst hsecond with hprefix | hprefix
  · exact h.1 hprefix
  · exact h.2 hprefix

theorem startsWith_append_of_apart {start other : String} (h : Apart start other) (value : String) :
    startsWith start (other ++ value) = false := by
  rw [← Bool.not_eq_true, startsWith_iff]
  rintro ⟨rest, heq⟩
  exact h.append_ne rest value heq.symm

/-! ### Lines -/

/-- How a line can be told from the next one. -/
def lineEnds : List String := ["\n", "\r\n"]

theorem splitWhere_ne_nil (isCut : Char → Bool) (cs : List Char) : splitWhere isCut cs ≠ [] := by
  cases cs with
  | nil => simp [splitWhere]
  | cons c rest =>
    rw [splitWhere]
    split
    · simp
    · split <;> simp

theorem splitOn_cons (separator c : Char) (rest : List Char) :
    splitOn separator (c :: rest) =
      if c = separator then [] :: splitOn separator rest else (splitOn separator rest).modifyHead (c :: ·) := by
  rw [splitOn, splitWhere, splitOn]
  cases h : splitWhere (fun c => c = separator) rest with
  | nil => exact absurd h (splitWhere_ne_nil _ _)
  | cons head tail => simp

theorem exists_splitOn_eq_cons (separator : Char) (cs : List Char) :
    ∃ first rest, splitOn separator cs = first :: rest :=
  List.exists_cons_of_ne_nil (splitWhere_ne_nil _ cs)

/-- Only the empty text is one empty piece. -/
theorem splitOn_ne_singleton_nil {separator : Char} {cs : List Char} (h : cs ≠ []) :
    splitOn separator cs ≠ [[]] := by
  obtain ⟨c, rest, rfl⟩ := List.exists_cons_of_ne_nil h
  obtain ⟨first, others, hrest⟩ := exists_splitOn_eq_cons separator rest
  rw [splitOn_cons, hrest]
  split <;> simp

theorem splitOn_of_not_mem {separator : Char} {cs : List Char} (h : separator ∉ cs) :
    splitOn separator cs = [cs] := by
  induction cs with
  | nil => rfl
  | cons c rest ih =>
    rw [List.mem_cons, not_or] at h
    rw [splitOn_cons, if_neg (Ne.symm h.1), ih h.2, List.modifyHead_cons]

/-- Where two texts meet, the last piece of the first and the first piece of the second are one piece. -/
theorem splitOn_append {separator : Char} {first second : List Char} {pieces others : List (List Char)}
    {last head : List Char} (hfirst : splitOn separator first = pieces ++ [last])
    (hsecond : splitOn separator second = head :: others) :
    splitOn separator (first ++ second) = pieces ++ (last ++ head) :: others := by
  induction first generalizing pieces last with
  | nil =>
    obtain ⟨rfl, rfl⟩ : pieces = [] ∧ last = [] := by
      have hone : [[]] = pieces ++ [last] := hfirst
      cases pieces <;> simp_all
    simpa using hsecond
  | cons c rest ih =>
    rw [splitOn_cons] at hfirst
    rw [List.cons_append, splitOn_cons]
    by_cases hc : c = separator
    · rw [if_pos hc] at hfirst ⊢
      cases pieces with
      | nil => exact absurd (List.cons.inj hfirst).2 (splitWhere_ne_nil _ _)
      | cons piece pieces =>
        obtain ⟨rfl, hrest⟩ := List.cons.inj hfirst
        rw [ih hrest, List.cons_append]
    · rw [if_neg hc] at hfirst ⊢
      obtain ⟨piece, more, hrest⟩ := exists_splitOn_eq_cons separator rest
      rw [hrest, List.modifyHead_cons] at hfirst
      cases pieces with
      | nil =>
        obtain ⟨rfl, rfl⟩ := List.cons.inj hfirst
        have hjoin : splitOn separator (rest ++ second) = [] ++ (piece ++ head) :: others := ih hrest
        rw [hjoin]
        rfl
      | cons other pieces =>
        obtain ⟨rfl, rfl⟩ := List.cons.inj hfirst
        have hjoin : splitOn separator (rest ++ second) = (piece :: pieces) ++ (last ++ head) :: others := ih hrest
        rw [hjoin]
        rfl

theorem splitOn_append_separator (separator : Char) (first second : List Char) :
    splitOn separator (first ++ separator :: second) = splitOn separator first ++ splitOn separator second := by
  have hne : splitOn separator first ≠ [] := splitWhere_ne_nil _ first
  have hfirst := (List.dropLast_append_getLast hne).symm
  have hsecond : splitOn separator (separator :: second) = [] :: splitOn separator second := by
    rw [splitOn_cons, if_pos rfl]
  rw [splitOn_append hfirst hsecond, List.append_nil, List.append_cons, ← hfirst]

theorem splitOn_append_cons {separator : Char} {cs : List Char} (h : separator ∉ cs) (rest : List Char) :
    splitOn separator (cs ++ separator :: rest) = cs :: splitOn separator rest := by
  rw [splitOn_append_separator, splitOn_of_not_mem h, List.singleton_append]

theorem lines_of_not_mem {line : List Char} (h : '\n' ∉ line) (hne : line ≠ []) : lines line = [line] := by
  rw [lines, splitOn_of_not_mem h]
  simp [hne]

theorem lines_append_newline {line : List Char} (h : '\n' ∉ line) (rest : List Char) :
    lines (line ++ '\n' :: rest) = dropReturn line :: lines rest := by
  obtain ⟨first, others, hrest⟩ := exists_splitOn_eq_cons '\n' rest
  rw [lines, lines, splitOn_append_cons h, hrest]
  simp

theorem dropReturn_eq_self {line : List Char} (h : line.getLast? ≠ some '\r') : dropReturn line = line := if_neg h

theorem dropReturn_append_return (line : List Char) : dropReturn (line ++ ['\r']) = line := by
  rw [dropReturn, List.getLast?_concat, if_pos rfl, List.dropLast_concat]

/-- Joined lines are told apart again. -/
theorem lines_intercalate {ending : String} (hending : ending ∈ lineEnds) {pieces : List (List Char)}
    (h : ∀ piece ∈ pieces, piece ≠ [] ∧ '\n' ∉ piece ∧ piece.getLast? ≠ some '\r') :
    lines (ending.toList.intercalate pieces) = pieces := by
  induction pieces with
  | nil => rfl
  | cons first rest ih =>
    obtain ⟨⟨hne, hnewline, hreturn⟩, hrest⟩ := List.forall_mem_cons.mp h
    cases rest with
    | nil => rw [List.intercalate_singleton, lines_of_not_mem hnewline hne]
    | cons second rest =>
      have hlines := ih hrest
      rw [List.intercalate_cons_cons]
      have hcases : ending = "\n" ∨ ending = "\r\n" := by simpa [lineEnds] using hending
      rcases hcases with rfl | rfl
      · have htext : first ++ "\n".toList ++ "\n".toList.intercalate (second :: rest) =
            first ++ '\n' :: "\n".toList.intercalate (second :: rest) := by simp
        rw [htext, lines_append_newline hnewline, hlines, dropReturn_eq_self hreturn]
      · have htext : first ++ "\r\n".toList ++ "\r\n".toList.intercalate (second :: rest) =
            (first ++ ['\r']) ++ '\n' :: "\r\n".toList.intercalate (second :: rest) := by simp
        rw [htext, lines_append_newline (by simpa using hnewline), hlines, dropReturn_append_return]

/-! ### Blanks at the ends -/

theorem dropWhile_isBlank_eq_self {cs : List Char} (h : ∀ c ∈ cs.head?, isBlank c = false) :
    cs.dropWhile isBlank = cs := by
  cases cs with
  | nil => rfl
  | cons c rest => rw [List.dropWhile_cons, h c rfl, if_neg Bool.false_ne_true]

theorem trimEnd_eq_self {cs : List Char} (h : ∀ c ∈ cs.getLast?, isBlank c = false) : trimEnd cs = cs := by
  rw [trimEnd, dropWhile_isBlank_eq_self, List.reverse_reverse]
  rwa [List.head?_reverse]

theorem trim_eq_self {cs : List Char} (hhead : ∀ c ∈ cs.head?, isBlank c = false)
    (hlast : ∀ c ∈ cs.getLast?, isBlank c = false) : trim cs = cs := by
  rw [trim, trimEnd_eq_self hlast, trimStart, dropWhile_isBlank_eq_self hhead]

end UnitFacts.Text
