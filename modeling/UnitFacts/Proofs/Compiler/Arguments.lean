import UnitFacts.Compiler.Arguments
import UnitFacts.Proofs.Text.Cuts

/-!
What becomes of compile arguments. `Rewrites` lists the words that are dropped or put in another form; every other
word reaches the compiler as it is. It goes by the word alone, so an operand behind its option is no exception: a
directory below `/Developer` is taken for a definition.
-/

namespace UnitFacts

namespace Arguments

/-- The flags that are written together with a value and have another form, with that form. -/
def translations : List (String × (String → List String)) :=
  [("/D", fun value => ["-D" ++ value]), ("/FI", fun value => ["-include", value]),
   ("/I", fun value => ["-I" ++ value]), ("/std:", fun value => ["-std=" ++ value])]

/-- A word that does not reach the compiler as it is, and the words that take its place. -/
inductive Rewrites : String → List String → Prop
  | empty : Rewrites "" []
  | dropped {flag : String} : flag ∈ droppedFlags → Rewrites flag []
  | droppedWithValue {start : String} (value : String) : start ∈ droppedStarts → Rewrites (start ++ value) []
  | translated {flag value : String} {form : String → List String} :
      (flag, form) ∈ translations → value ≠ "" →
      Rewrites (flag ++ value) (form value)

/-! ### One word -/

theorem isDropped_iff (arg : String) :
    isDropped arg = true ↔ arg ∈ droppedFlags ∨ ∃ start ∈ droppedStarts, ∃ value, arg = start ++ value := by
  simp only [isDropped, Bool.or_eq_true, List.contains_iff_mem, List.any_eq_true, Text.startsWith_iff]

theorem joined?_eq_some_iff (flag arg value : String) :
    joined? flag arg = some value ↔ value ≠ "" ∧ arg = flag ++ value := by
  rw [joined?, Option.filter_eq_some_iff, Text.after?_eq_some_iff, decide_eq_true_eq, and_comm]

theorem joined?_eq_none_of_apart {flag other : String} (h : Text.Apart flag other) (value : String) :
    joined? flag (other ++ value) = none := by
  rw [Option.eq_none_iff_forall_ne_some]
  intro found hfound
  exact h.append_ne found value ((joined?_eq_some_iff _ _ _).mp hfound).2.symm

theorem eq_of_mem_translations {flag : String} {form : String → List String} (h : (flag, form) ∈ translations) :
    (flag = "/D" ∧ form = fun value => ["-D" ++ value]) ∨
      (flag = "/FI" ∧ form = fun value => ["-include", value]) ∨
      (flag = "/I" ∧ form = fun value => ["-I" ++ value]) ∨
      (flag = "/std:" ∧ form = fun value => ["-std=" ++ value]) := by
  simpa [translations] using h

theorem not_isDropped_of_mem_translations {flag : String} {form : String → List String}
    (h : (flag, form) ∈ translations) (value : String) : isDropped (flag ++ value) = false := by
  have hflags : ∀ entry ∈ translations, (∀ dropped ∈ droppedFlags, Text.startsWith entry.1 dropped = false) ∧
      ∀ start ∈ droppedStarts, Text.Apart entry.1 start := by decide
  obtain ⟨hflag, hstart⟩ := hflags _ h
  rw [← Bool.not_eq_true, isDropped_iff]
  rintro (hmem | ⟨start, hmem, other, heq⟩)
  · exact Bool.false_ne_true ((hflag _ hmem).symm.trans ((Text.startsWith_iff _ _).mpr ⟨value, rfl⟩))
  · exact (hstart start hmem).append_ne value other heq

theorem sanitiseOne_of_rewrites {arg : String} {words : List String} (h : Rewrites arg words) :
    sanitiseOne arg = words := by
  cases h with
  | empty => rfl
  | dropped hflag => rw [sanitiseOne, (isDropped_iff arg).mpr (Or.inl hflag)]; simp
  | @droppedWithValue start value hstart =>
    rw [sanitiseOne, (isDropped_iff _).mpr (Or.inr ⟨start, hstart, value, rfl⟩)]
    simp
  | @translated flag value form hflag hvalue =>
    have hkept := not_isDropped_of_mem_translations hflag value
    have hvalue' : joined? flag (flag ++ value) = some value := (joined?_eq_some_iff _ _ _).mpr ⟨hvalue, rfl⟩
    have hother : ∀ other, Text.Apart other flag → joined? other (flag ++ value) = none :=
      fun other hapart => joined?_eq_none_of_apart hapart value
    have hne : flag ++ value ≠ "" := by simp [hvalue]
    rw [sanitiseOne, hkept]
    rcases eq_of_mem_translations hflag with ⟨rfl, rfl⟩ | ⟨rfl, rfl⟩ | ⟨rfl, rfl⟩ | ⟨rfl, rfl⟩
    · simp [hne, hvalue']
    · simp [hne, hvalue', hother "/D" (by decide)]
    · simp [hne, hvalue', hother "/D" (by decide), hother "/FI" (by decide)]
    · simp [hne, hvalue', hother "/D" (by decide), hother "/FI" (by decide), hother "/I" (by decide)]

theorem sanitiseOne_eq_self {arg : String} (h : ∀ words, ¬ Rewrites arg words) : sanitiseOne arg = [arg] := by
  have hne : arg ≠ "" := by
    rintro rfl
    exact h _ .empty
  have hkept : isDropped arg = false := by
    rw [← Bool.not_eq_true, isDropped_iff]
    rintro (hflag | ⟨start, hstart, value, rfl⟩)
    · exact h _ (.dropped hflag)
    · exact h _ (.droppedWithValue value hstart)
  have hform : ∀ entry ∈ translations, joined? entry.1 arg = none := by
    intro entry hentry
    rw [Option.eq_none_iff_forall_ne_some]
    intro value hvalue
    obtain ⟨hjoined, rfl⟩ := (joined?_eq_some_iff _ _ _).mp hvalue
    exact h _ (.translated hentry hjoined)
  simp only [translations, List.forall_mem_cons] at hform
  obtain ⟨hdefine, hforced, hdir, hstandard, -⟩ := hform
  simp [sanitiseOne, hne, hkept, hdefine, hforced, hdir, hstandard]

/-- No rewritten word is what it was. -/
theorem Rewrites.ne_singleton {arg : String} {words : List String} (h : Rewrites arg words) : words ≠ [arg] := by
  cases h with
  | empty => simp
  | dropped => simp
  | droppedWithValue => simp
  | @translated flag value form hflag =>
    have hdash : ∀ slash dash, Text.Apart dash slash → [dash ++ value] ≠ [slash ++ value] :=
      fun slash dash hapart heq => hapart.append_ne value value (List.singleton_inj.mp heq)
    rcases eq_of_mem_translations hflag with ⟨rfl, rfl⟩ | ⟨rfl, rfl⟩ | ⟨rfl, rfl⟩ | ⟨rfl, rfl⟩
    · exact hdash "/D" "-D" (by decide)
    · simp
    · exact hdash "/I" "-I" (by decide)
    · exact hdash "/std:" "-std=" (by decide)

theorem sanitiseOne_eq_self_iff (arg : String) : sanitiseOne arg = [arg] ↔ ∀ words, ¬ Rewrites arg words :=
  ⟨fun hself _ hrewrites => hrewrites.ne_singleton ((sanitiseOne_of_rewrites hrewrites).symm.trans hself),
    sanitiseOne_eq_self⟩

/-! ### An option and its operand -/

/-- The options whose operand can be a word of its own. -/
def splitOptions : List String := ["-I", "-isystem", "-iquote", "-include", "-isysroot"]

theorem sanitise_append (before after : List String) :
    sanitise (before ++ after) = sanitise before ++ sanitise after := by
  simp [sanitise]

theorem sanitiseOne_of_mem_splitOptions {option : String} (h : option ∈ splitOptions) :
    sanitiseOne option = [option] := by
  have hall : ∀ option ∈ splitOptions, sanitiseOne option = [option] := by decide
  exact hall option h

/-- An option stays, and its operand is rewritten as if it stood alone. -/
theorem sanitise_option (before after : List String) {option : String} (hoption : option ∈ splitOptions)
    (operand : String) : sanitise (before ++ [option, operand] ++ after) =
      sanitise before ++ option :: sanitiseOne operand ++ sanitise after := by
  rw [sanitise_append, sanitise_append]
  congr 2
  simp [sanitise, sanitiseOne_of_mem_splitOptions hoption]

/-- The operand of a split option reaches the compiler unchanged if it is none of the words that are rewritten; if it
is one of them, it is rewritten behind its option too. -/
theorem sanitise_operand (before after : List String) (option operand : String) (hoption : option ∈ splitOptions) :
    (sanitise (before ++ [option, operand] ++ after) = sanitise before ++ [option, operand] ++ sanitise after ↔
      ∀ words, ¬ Rewrites operand words) ∧
    ∀ words, Rewrites operand words →
      sanitise (before ++ [option, operand] ++ after) = sanitise before ++ option :: words ++ sanitise after := by
  rw [sanitise_option before after hoption]
  constructor
  · rw [List.append_left_inj, List.append_right_inj, List.cons_inj_right, sanitiseOne_eq_self_iff]
  · intro words hwords
    rw [sanitiseOne_of_rewrites hwords]

theorem sanitise_operand_sysroots :
    "-isysroot" ∈ splitOptions ∧ (∀ words, ¬ Rewrites "/opt/sdk" words) ∧
      Rewrites "/Developer/SDKs" ["-Developer/SDKs"] ∧
      sanitise (["/nologo"] ++ ["-isysroot", "/opt/sdk"] ++ ["/DX"]) = ["-isysroot", "/opt/sdk", "-DX"] ∧
      sanitise (["/nologo"] ++ ["-isysroot", "/Developer/SDKs"] ++ ["/DX"]) =
        ["-isysroot", "-Developer/SDKs", "-DX"] := by
  have hkept : ∀ words, ¬ Rewrites "/opt/sdk" words := (sanitiseOne_eq_self_iff _).mp (by decide)
  have hrewritten : Rewrites "/Developer/SDKs" ["-Developer/SDKs"] :=
    @Rewrites.translated "/D" "eveloper/SDKs" _ List.mem_cons_self (by decide)
  refine ⟨by decide, hkept, hrewritten, ?_, ?_⟩
  · exact (sanitise_operand ["/nologo"] ["/DX"] "-isysroot" "/opt/sdk" (by decide)).1.mpr hkept
  · exact (sanitise_operand ["/nologo"] ["/DX"] "-isysroot" "/Developer/SDKs" (by decide)).2 _ hrewritten

/-- A directory that is taken for a definition. -/
theorem sanitise_sysroot_developer :
    "-isysroot" ∈ splitOptions ∧ Text.startsWith "/" "/Developer/SDKs" = true ∧
      sanitise ([] ++ ["-isysroot", "/Developer/SDKs"] ++ []) = ["-isysroot", "-Developer/SDKs"] ∧
      sanitise ([] ++ ["-isysroot", "/Developer/SDKs"] ++ []) ≠
        sanitise [] ++ ["-isysroot", "/Developer/SDKs"] ++ sanitise [] := by
  decide

end Arguments

end UnitFacts
