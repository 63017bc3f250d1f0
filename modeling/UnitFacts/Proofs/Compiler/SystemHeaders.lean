import UnitFacts.Compiler.SystemHeaders
import UnitFacts.Proofs.Compiler.Arguments
import UnitFacts.Proofs.Path

/-!
The library directories of a command. Where every `-isystem` has its directory and the compile arguments are not
rewritten, the `-isystem` directories of the command are those of the extra arguments and then those of the compile
arguments. The headers below the latter are library headers; those below the former are so only if the directory is
configured or given with the compile arguments as well.
-/

namespace UnitFacts

namespace Arguments

/-- Every `-isystem` that is a word of its own has its directory behind it. -/
inductive Paired : List String → Prop
  | nil : Paired []
  | split {dir : String} {rest : List String} : Paired rest → Paired ("-isystem" :: dir :: rest)
  | word {arg : String} {rest : List String} : arg ≠ "-isystem" → Paired rest → Paired (arg :: rest)

/-- Every `-isystem` has its directory, which is not rewritten, and no other word is rewritten to one. -/
inductive KeepsDirs : List String → Prop
  | nil : KeepsDirs []
  | split {dir : String} {rest : List String} : (∀ words, ¬ Rewrites dir words) → KeepsDirs rest →
      KeepsDirs ("-isystem" :: dir :: rest)
  | word {arg : String} {rest : List String} :
      arg ≠ "-isystem" → (∀ dir, arg ≠ "/FI-isystem" ++ dir) → KeepsDirs rest →
      KeepsDirs (arg :: rest)

theorem systemDirs_split (dir : String) (rest : List String) :
    systemDirs ("-isystem" :: dir :: rest) = Path.normalise dir :: systemDirs rest := by
  rw [systemDirs, if_pos rfl]

theorem systemDirs_word {arg : String} (harg : arg ≠ "-isystem") (rest : List String) :
    systemDirs (arg :: rest) = (joined? "-isystem" arg).toList.map Path.normalise ++ systemDirs rest := by
  cases rest with
  | nil => simp [systemDirs]
  | cons dir rest => rw [systemDirs, if_neg harg]

/-- Words that do not begin as the option have no directories. -/
theorem systemDirs_append_of_plain {words : List String}
    (hwords : ∀ word ∈ words, Text.startsWith "-isystem" word = false) (rest : List String) :
    systemDirs (words ++ rest) = systemDirs rest := by
  induction words with
  | nil => rfl
  | cons word words ih =>
    obtain ⟨hword, hwords⟩ := List.forall_mem_cons.mp hwords
    have hstart : ∀ value, word ≠ "-isystem" ++ value := fun value heq =>
      Bool.false_ne_true (hword.symm.trans ((Text.startsWith_iff _ _).mpr ⟨value, heq⟩))
    have hjoined : joined? "-isystem" word = none := by
      rw [Option.eq_none_iff_forall_ne_some]
      exact fun value hvalue => hstart value ((joined?_eq_some_iff _ _ _).mp hvalue).2
    rw [List.cons_append, systemDirs_word (fun heq => hstart "" heq), hjoined, ih hwords]
    rfl

theorem Paired.systemDirs_append {args : List String} (h : Paired args) (rest : List String) :
    systemDirs (args ++ rest) = systemDirs args ++ systemDirs rest := by
  induction h with
  | nil => rfl
  | split _ ih => rw [List.cons_append, List.cons_append, systemDirs_split, systemDirs_split, ih, List.cons_append]
  | word harg _ ih => rw [List.cons_append, systemDirs_word harg, systemDirs_word harg, ih, List.append_assoc]

theorem normalise_of_mem_systemDirs {args : List String} {dir : String} (h : dir ∈ systemDirs args) :
    Path.normalise dir = dir := by
  induction args using systemDirs.induct with
  | case1 => cases h
  | case2 arg =>
    obtain ⟨raw, -, rfl⟩ := List.mem_map.mp h
    exact Path.normalise_normalise raw
  | case3 first rest ih =>
    rw [systemDirs_split] at h
    rcases List.mem_cons.mp h with rfl | hrest
    · exact Path.normalise_normalise _
    · exact ih hrest
  | case4 arg second rest harg ih =>
    rw [systemDirs_word harg] at h
    rcases List.mem_append.mp h with hjoined | hrest
    · obtain ⟨raw, -, rfl⟩ := List.mem_map.mp hjoined
      exact Path.normalise_normalise raw
    · exact ih hrest

theorem Rewrites.arg_plain {arg : String} {words : List String} (h : Rewrites arg words) :
    Text.startsWith "-isystem" arg = false := by
  have hflags : ∀ flag ∈ droppedFlags, Text.startsWith "-isystem" flag = false := by decide
  have hstarts : ∀ start ∈ droppedStarts, Text.Apart "-isystem" start := by decide
  have htranslated : ∀ entry ∈ translations, Text.Apart "-isystem" entry.1 := by decide
  cases h with
  | empty => decide
  | dropped hflag => exact hflags _ hflag
  | droppedWithValue value hstart => exact Text.startsWith_append_of_apart (hstarts _ hstart) value
  | translated hflag _ => exact Text.startsWith_append_of_apart (htranslated _ hflag) _

/-- Only a file that is forced can have the name of the option. -/
theorem Rewrites.words_plain {arg : String} {words : List String} (h : Rewrites arg words)
    (hforced : ∀ dir, arg ≠ "/FI-isystem" ++ dir) :
    ∀ word ∈ words, Text.startsWith "-isystem" word = false := by
  cases h with
  | empty => simp
  | dropped => simp
  | droppedWithValue => simp
  | @translated flag value form hflag =>
    have hdash : ∀ dash, Text.Apart "-isystem" dash →
        ∀ word ∈ [dash ++ value], Text.startsWith "-isystem" word = false :=
      fun dash hapart => List.forall_mem_singleton.mpr (Text.startsWith_append_of_apart hapart value)
    rcases eq_of_mem_translations hflag with ⟨rfl, rfl⟩ | ⟨rfl, rfl⟩ | ⟨rfl, rfl⟩ | ⟨rfl, rfl⟩
    · exact hdash "-D" (by decide)
    · refine List.forall_mem_cons.mpr ⟨by decide, List.forall_mem_singleton.mpr ?_⟩
      rw [← Bool.not_eq_true, Text.startsWith_iff]
      rintro ⟨dir, rfl⟩
      exact hforced dir (String.append_assoc ..).symm
    · exact hdash "-I" (by decide)
    · exact hdash "-std=" (by decide)

/-- A word that forces no file with the name of the option gives the directories that it gave before. -/
theorem systemDirs_sanitiseOne {arg : String} (harg : arg ≠ "-isystem")
    (hforced : ∀ dir, arg ≠ "/FI-isystem" ++ dir)
    (rest : List String) : systemDirs (sanitiseOne arg ++ rest) =
      (joined? "-isystem" arg).toList.map Path.normalise ++ systemDirs rest := by
  by_cases h : ∃ words, Rewrites arg words
  · obtain ⟨words, hwords⟩ := h
    have hnone : systemDirs [arg] = systemDirs [] :=
      systemDirs_append_of_plain (List.forall_mem_singleton.mpr hwords.arg_plain) []
    rw [systemDirs_word harg, systemDirs, List.append_nil] at hnone
    rw [sanitiseOne_of_rewrites hwords, systemDirs_append_of_plain (hwords.words_plain hforced), hnone, List.nil_append]
  · rw [sanitiseOne_eq_self (not_exists.mp h), List.singleton_append, systemDirs_word harg]

theorem KeepsDirs.systemDirs_sanitise_append {args : List String} (h : KeepsDirs args) (rest : List String) :
    systemDirs (sanitise args ++ rest) = systemDirs args ++ systemDirs rest := by
  induction h with
  | nil => rfl
  | @split dir args hdir _ ih =>
    have hwords : sanitise ("-isystem" :: dir :: args) = "-isystem" :: dir :: sanitise args := by
      have hoption := sanitise_option [] args (show "-isystem" ∈ splitOptions by decide) dir
      rwa [sanitiseOne_eq_self hdir] at hoption
    rw [hwords, List.cons_append, List.cons_append, systemDirs_split, systemDirs_split, ih, List.cons_append]
  | @word arg args harg hforced _ ih =>
    rw [sanitise, List.flatMap_cons, List.append_assoc, systemDirs_sanitiseOne harg hforced, systemDirs_word harg,
      List.append_assoc, ← ih]
    rfl

end Arguments

namespace SystemHeaders

open Arguments

theorem mem_roots_forInvocation_iff (configured args : List String) (dir : String) :
    dir ∈ (forInvocation configured args).roots ↔
      dir ≠ "" ∧ (dir ∈ configured.map Path.normalise ∨ dir ∈ systemDirs args) := by
  have hargs : (systemDirs args).map Path.normalise = systemDirs args :=
    (List.map_congr_left fun dir hdir => normalise_of_mem_systemDirs hdir).trans (List.map_id' _)
  rw [forInvocation, ofRoots, List.mem_filter, List.map_append, List.mem_append, hargs, decide_eq_true_eq, and_comm]

theorem isSystem_of_mem_roots {headers : SystemHeaders} {dir path : String} (hdir : dir ∈ headers.roots)
    (hpath : Path.isUnder (Path.normalise path) dir = true) : headers.isSystem path = true := by
  rw [isSystem, Bool.or_eq_true, List.any_eq_true]
  exact Or.inr ⟨dir, hdir, hpath⟩

/-- The library directories of a command for a file that is no option, where the extra arguments leave no `-isystem`
without a directory and the compile arguments keep theirs: those of the compile arguments are roots of library headers,
and all of the command are exactly if those of the extra arguments are configured or given again. -/
theorem systemDirs_command (configured extra args : List String) (file : String) (hextra : Paired extra)
    (hargs : KeepsDirs args) (hfile : Text.startsWith "-isystem" file = false) :
    systemDirs (command extra file args) = systemDirs extra ++ systemDirs args ∧
      (∀ dir ∈ systemDirs args, dir ≠ "" → dir ∈ (forInvocation configured args).roots ∧
        ∀ path, Path.isUnder (Path.normalise path) dir = true →
          (forInvocation configured args).isSystem path = true) ∧
      ((∀ dir ∈ systemDirs (command extra file args), dir ≠ "" →
          dir ∈ (forInvocation configured args).roots) ↔
        ∀ dir ∈ systemDirs extra, dir ≠ "" →
          dir ∈ configured.map Path.normalise ∨ dir ∈ systemDirs args) := by
  have hdump : ∀ word ∈ dumpFlags, Text.startsWith "-isystem" word = false := by decide
  have hcommand : systemDirs (command extra file args) = systemDirs extra ++ systemDirs args := by
    have hlast : systemDirs [file] = [] :=
      systemDirs_append_of_plain (List.forall_mem_singleton.mpr hfile) []
    rw [command, List.append_assoc, List.append_assoc, systemDirs_append_of_plain hdump, hextra.systemDirs_append,
      hargs.systemDirs_sanitise_append, hlast, List.append_nil]
  have hroot : ∀ dir ∈ systemDirs args, dir ≠ "" → dir ∈ (forInvocation configured args).roots :=
    fun dir hdir hne => (mem_roots_forInvocation_iff _ _ _).mpr ⟨hne, Or.inr hdir⟩
  refine ⟨hcommand, fun dir hdir hne => ?_, ?_⟩
  · exact ⟨hroot dir hdir hne, fun path => isSystem_of_mem_roots (hroot dir hdir hne)⟩
  · rw [hcommand, List.forall_mem_append]
    simp only [mem_roots_forInvocation_iff]
    constructor
    · rintro ⟨h, -⟩ dir hdir hne
      exact (h dir hdir hne).2
    · intro h
      exact ⟨fun dir hdir hne => ⟨hne, h dir hdir hne⟩, fun dir hdir hne => ⟨hne, Or.inr hdir⟩⟩

/-- A directory of the extra arguments that the compile arguments give again, behind a split option and a
definition. -/
theorem systemDirs_command_vendor :
    Paired ["-w", "-isystem", "vendor"] ∧ KeepsDirs ["-isystem", "third_party\\boost", "/DX", "-isystemvendor"] ∧
      Text.startsWith "-isystem" "main.cpp" = false ∧
      systemDirs (command ["-w", "-isystem", "vendor"] "main.cpp"
        ["-isystem", "third_party\\boost", "/DX", "-isystemvendor"]) = ["vendor", "third_party/boost", "vendor"] ∧
      ∀ dir ∈ systemDirs (command ["-w", "-isystem", "vendor"] "main.cpp"
        ["-isystem", "third_party\\boost", "/DX", "-isystemvendor"]), dir ≠ "" →
        dir ∈ (forInvocation ["/usr/include"] ["-isystem", "third_party\\boost", "/DX", "-isystemvendor"]).roots := by
  have hextra : Paired ["-w", "-isystem", "vendor"] := .word (by decide) (.split .nil)
  have hforced : ∀ arg, Text.startsWith "/FI-isystem" arg = false → ∀ dir, arg ≠ "/FI-isystem" ++ dir :=
    fun arg harg dir heq => Bool.false_ne_true (harg.symm.trans ((Text.startsWith_iff _ _).mpr ⟨dir, heq⟩))
  have hargs : KeepsDirs ["-isystem", "third_party\\boost", "/DX", "-isystemvendor"] :=
    .split ((sanitiseOne_eq_self_iff _).mp (by decide))
      (.word (by decide) (hforced _ (by decide)) (.word (by decide) (hforced _ (by decide)) .nil))
  have hdirs := systemDirs_command ["/usr/include"] _ _ "main.cpp" hextra hargs (by decide)
  exact ⟨hextra, hargs, by decide, by decide +kernel, hdirs.2.2.mpr (by decide +kernel)⟩

/-- A directory of the extra arguments that nothing else gives: the compiler takes its headers for library headers, but
they are none here. -/
theorem not_isSystem_vendor :
    "vendor" ∈ systemDirs (command ["-isystem", "vendor"] "main.cpp" []) ∧
      "vendor" ∉ (forInvocation [] []).roots ∧ (forInvocation [] []).isSystem "vendor/json.hpp" = false := by
  decide +kernel

end SystemHeaders

end UnitFacts
