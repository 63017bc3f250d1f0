import UnitFacts.Compiler.Messages
import UnitFacts.Proofs.Text.Cuts

/-!
Messages are read as they are printed. `Event` is what the compiler says on one line, and `Event.line` how it prints
it. Reading the printed lines gives back the events, headers and diagnostics each in their order, whatever paths
and messages say: a header line is told by its dots, and of a diagnostic line the first site counts, which is that
of the diagnostic, as a site can begin in what stands before it only if it ends there too.
-/

namespace UnitFacts.Messages

/-- How bad a diagnostic is. -/
inductive Grade where
  | fatalError
  | error
  | warning
  | note
  deriving DecidableEq, Repr

namespace Grade

def label : Grade → String
  | .fatalError => "fatal error"
  | .error => "error"
  | .warning => "warning"
  | .note => "note"

def severity : Grade → Severity
  | .fatalError => .fatal
  | .error => .error
  | .warning => .warning
  | .note => .note

end Grade

/-- What stands between the place of a diagnostic and its text. -/
def site (line col : String) (grade : Grade) : String := ":" ++ line ++ ":" ++ col ++ ": " ++ grade.label ++ ": "

/-- What the compiler says on a line of its own: it opens a header, or it complains about a place. -/
inductive Event where
  | header (depth : Nat) (path : String)
  | diagnostic (place line col : String) (grade : Grade) (text : String)
  deriving DecidableEq, Repr

namespace Event

/-- The line as it is printed. -/
def line : Event → String
  | .header depth path => String.ofList (List.replicate depth '.') ++ " " ++ path
  | .diagnostic place line col grade text => place ++ site line col grade ++ text

/-- What is recorded of a header. Depths are 32-bit words. -/
def inclusion? : Event → Option Inclusion
  | .header depth path => some ⟨path, UInt32.ofNat depth⟩
  | .diagnostic .. => none

def diagnostic? : Event → Option Diagnostic
  | .header .. => none
  | .diagnostic place line col grade text => some ⟨grade.severity, (diagnostic place line col grade text).line⟩

end Event

/-- A run of decimal digits, of any script. -/
def IsNumber (digits : String) : Prop := digits ≠ "" ∧ ∀ c ∈ digits.toList, Text.isDecimalDigit c = true

/-- A text that begins in dots and a blank. -/
def BeginsAsHeader (text : String) : Prop :=
  ∃ depth rest, 0 < depth ∧ text = String.ofList (List.replicate depth '.') ++ " " ++ rest

/-- A text with a site in it. -/
def HoldsSite (text : String) : Prop :=
  ∃ before line col grade after, IsNumber line ∧ IsNumber col ∧ text = before ++ site line col grade ++ after

/-- What can be told from a printed line: the path of a header has no blanks around it, a diagnostic has a text without
blanks at its end, and what stands before its site looks neither like a header line nor like a diagnostic. -/
inductive Event.Legible : Event → Prop
  | header {depth : Nat} {path : String} (depth_pos : 0 < depth) (path_ne : path ≠ "")
      (one_line : '\n' ∉ path.toList)
      (first : ∀ c ∈ path.toList.head?, Text.isBlank c = false)
      (last : ∀ c ∈ path.toList.getLast?, Text.isBlank c = false) : Legible (.header depth path)
  | diagnostic {place line col : String} {grade : Grade} {text : String} (line_number : IsNumber line)
      (col_number : IsNumber col) (text_ne : text ≠ "") (one_line : '\n' ∉ place.toList ∧ '\n' ∉ text.toList)
      (last : ∀ c ∈ text.toList.getLast?, Text.isBlank c = false) (no_header : ¬ BeginsAsHeader place)
      (no_site : ¬ HoldsSite place) : Legible (.diagnostic place line col grade text)

/-! ### Line by line -/

/-- The diagnostic of one line. -/
def diagnosticOf? (line : List Char) : Option Diagnostic :=
  match header? (Text.trimEnd line) with
  | some _ => none
  | none =>
    ((site? (Text.trimEnd line)).or (driver? (Text.trimEnd line))).map fun severity =>
      ⟨severity, String.ofList (Text.trimEnd line)⟩

theorem addLine_eq (messages : Messages) (line : List Char) :
    messages.addLine line = ⟨messages.inclusions ++ (header? (Text.trimEnd line)).toList,
      messages.diagnostics ++ (diagnosticOf? line).toList⟩ := by
  cases hheader : header? (Text.trimEnd line) with
  | some inclusion => simp [addLine, diagnosticOf?, hheader]
  | none =>
    cases hlabel : (site? (Text.trimEnd line)).or (driver? (Text.trimEnd line)) <;>
      simp [addLine, diagnosticOf?, hheader, hlabel]

/-- What is read is what the lines say, in their order. -/
theorem parse_eq (text : String) :
    parse text = ⟨(Text.lines text.toList).filterMap fun line => header? (Text.trimEnd line),
      (Text.lines text.toList).filterMap diagnosticOf?⟩ := by
  have hfold : ∀ (lines : List (List Char)) (messages : Messages),
      lines.foldl addLine messages = ⟨messages.inclusions ++ lines.filterMap fun line => header? (Text.trimEnd line),
        messages.diagnostics ++ lines.filterMap diagnosticOf?⟩ := by
    intro lines
    induction lines with
    | nil => simp
    | cons line rest ih =>
      intro messages
      rw [List.foldl_cons, ih, addLine_eq, List.append_assoc, List.append_assoc, List.filterMap_cons,
        List.filterMap_cons]
      cases header? (Text.trimEnd line) <;> cases diagnosticOf? line <;> rfl
  exact (hfold (Text.lines text.toList) {}).trans rfl

theorem diagnostics_parse (text : String) :
    (parse text).diagnostics = (Text.lines text.toList).filterMap diagnosticOf? := by rw [parse_eq]

/-! ### Header lines -/

theorem header?_eq_some_iff (cs : List Char) (inclusion : Inclusion) :
    header? cs = some inclusion ↔
      ∃ depth path, 0 < depth ∧ path ≠ [] ∧ cs = List.replicate depth '.' ++ ' ' :: path ∧
      inclusion = ⟨String.ofList (Text.trim path), UInt32.ofNat depth⟩ := by
  constructor
  · intro h
    have hdots : cs.takeWhile (fun c => c = '.') = List.replicate (cs.takeWhile fun c => c = '.').length '.' := by
      refine List.eq_replicate_iff.mpr ⟨rfl, fun c hc => ?_⟩
      simpa using List.all_eq_true.mp List.all_takeWhile c hc
    have happend := List.takeWhile_append_dropWhile (p := fun c => decide (c = '.')) (l := cs)
    rw [header?] at h
    split at h
    · rename_i path hrest
      split at h
      · cases h
      · rename_i hne
        simp only [Bool.or_eq_true, List.isEmpty_iff, not_or] at hne
        refine ⟨_, path, List.length_pos_iff.mpr hne.1, hne.2, ?_, (Option.some.inj h).symm⟩
        rw [← hdots, ← hrest, happend]
    · cases h
  · rintro ⟨depth, path, hdepth, hpath, rfl, rfl⟩
    have htake : (List.replicate depth '.' ++ ' ' :: path).takeWhile (fun c => c = '.') = List.replicate depth '.' := by
      simp
    have hdrop : (List.replicate depth '.' ++ ' ' :: path).dropWhile (fun c => c = '.') = ' ' :: path := by simp
    rw [header?, hdrop, htake]
    simp [hpath, Nat.ne_of_gt hdepth]

/-! ### Sites -/

theorem toList_site (line col : String) (grade : Grade) : (site line col grade).toList =
    ':' :: (line.toList ++ ':' :: (col.toList ++ ':' :: (' ' :: grade.label.toList ++ [':', ' ']))) := by
  simp [site]

theorem afterText?_eq_some_iff (text : String) (cs rest : List Char) :
    afterText? text cs = some rest ↔ cs = text.toList ++ rest := by
  rw [afterText?, List.isPrefixOf?_eq_some_iff_append_eq, eq_comm]

/-- A number is read as far as it goes. -/
theorem afterDigits?_eq_some_iff (cs rest : List Char) :
    afterDigits? cs = some rest ↔ ∃ digits, IsNumber digits ∧ cs = digits.toList ++ rest ∧
      ∀ c ∈ rest.head?, Text.isDecimalDigit c = false := by
  constructor
  · intro h
    rw [afterDigits?] at h
    split at h
    · cases h
    · rename_i hne
      obtain rfl := Option.some.inj h
      refine ⟨String.ofList (cs.takeWhile Text.isDecimalDigit), ⟨by simpa using hne, ?_⟩, ?_, ?_⟩
      · intro c hc
        rw [String.toList_ofList] at hc
        exact List.all_eq_true.mp List.all_takeWhile c hc
      · rw [String.toList_ofList, List.takeWhile_append_dropWhile]
      · intro c hc
        have hhead := List.head?_dropWhile_not Text.isDecimalDigit cs
        rw [hc] at hhead
        simpa using hhead
  · rintro ⟨digits, hdigits, rfl, hrest⟩
    have htake : (digits.toList ++ rest).takeWhile Text.isDecimalDigit = digits.toList := by
      rw [List.takeWhile_append_of_pos hdigits.2]
      cases rest with
      | nil => simp
      | cons c rest => simp [hrest c rfl]
    have hdrop : (digits.toList ++ rest).dropWhile Text.isDecimalDigit = rest := by
      rw [List.dropWhile_append_of_pos hdigits.2]
      cases rest with
      | nil => rfl
      | cons c rest => simp [hrest c rfl]
    rw [afterDigits?, htake, hdrop, if_neg (by simpa using hdigits.1)]

theorem labelHere?_eq_some_iff (cs : List Char) (severity : Severity) :
    labelHere? labels cs = some severity ↔
      ∃ grade rest, Grade.severity grade = severity ∧ cs = grade.label.toList ++ ':' :: ' ' :: rest := by
  constructor
  · intro h
    obtain ⟨⟨label, labelled⟩, hmem, hhere⟩ := List.exists_of_findSome?_eq_some h
    simp only [Option.ite_none_right_eq_some, Option.isSome_iff_exists, afterText?_eq_some_iff,
      Option.some.injEq] at hhere
    obtain ⟨⟨rest, rfl⟩, rfl⟩ := hhere
    have hgrade : ∃ grade : Grade, grade.label = label ∧ grade.severity = labelled := by
      simp only [labels, List.mem_cons, Prod.mk.injEq, List.not_mem_nil, or_false] at hmem
      rcases hmem with ⟨rfl, rfl⟩ | ⟨rfl, rfl⟩ | ⟨rfl, rfl⟩ | ⟨rfl, rfl⟩
      · exact ⟨.fatalError, rfl, rfl⟩
      · exact ⟨.error, rfl, rfl⟩
      · exact ⟨.warning, rfl, rfl⟩
      · exact ⟨.note, rfl, rfl⟩
    obtain ⟨grade, rfl, rfl⟩ := hgrade
    exact ⟨grade, rest, rfl, by simp⟩
  · rintro ⟨grade, rest, rfl, rfl⟩
    cases grade <;> simp [labelHere?, labels, afterText?, Grade.label, Grade.severity]

theorem siteHere?_eq_some_iff (cs : List Char) (severity : Severity) :
    siteHere? cs = some severity ↔ ∃ line col grade rest, IsNumber line ∧ IsNumber col ∧
      Grade.severity grade = severity ∧ cs = (site line col grade).toList ++ rest := by
  simp only [siteHere?, Option.bind_eq_bind, Option.bind_eq_some_iff, afterText?_eq_some_iff, afterDigits?_eq_some_iff,
    labelHere?_eq_some_iff]
  constructor
  · rintro ⟨_, rfl, _, ⟨line, hline, rfl, -⟩, _, rfl, _, ⟨col, hcol, rfl, -⟩, _, rfl, grade, rest, hgrade,
      rfl⟩
    exact ⟨line, col, grade, rest, hline, hcol, hgrade, by simp [site]⟩
  · rintro ⟨line, col, grade, rest, hline, hcol, hgrade, rfl⟩
    refine ⟨_, ?_, _, ⟨line, hline, rfl, ?_⟩, _, rfl, _, ⟨col, hcol, rfl, ?_⟩, _, rfl, grade, rest, hgrade,
      rfl⟩
    · simp [site]
    · simp [Text.isDecimalDigit, Char.isDigit]
    · simp [Text.isDecimalDigit, Char.isDigit]

/-- Cut at a character that the first part of the one side does not hold, the other side begins with that part. -/
theorem exists_append_of_append_eq {front behind part rest : List Char} {c : Char}
    (h : front ++ c :: behind = part ++ rest) (hc : c ∉ part) :
    ∃ more, front = part ++ more ∧ more ++ c :: behind = rest := by
  rcases List.append_eq_append_iff.mp h with ⟨common, hpart, hrest⟩ | ⟨more, hfront, hrest⟩
  · cases common with
    | nil => exact ⟨[], by simpa using hpart.symm, by simpa using hrest⟩
    | cons d common =>
      obtain rfl : c = d := (List.cons.inj hrest).1
      exact absurd (hpart ▸ by simp) hc
  · exact ⟨more, hfront, hrest.symm⟩

theorem isDecimalDigit_colon : Text.isDecimalDigit ':' = false := by decide

theorem isDecimalDigit_blank : Text.isDecimalDigit ' ' = false := by decide

theorem IsNumber.not_mem {digits : String} (h : IsNumber digits) {c : Char} (hc : Text.isDecimalDigit c = false) :
    c ∉ digits.toList :=
  fun hmem => Bool.false_ne_true (hc.symm.trans (h.2 c hmem))

theorem IsNumber.exists_cons {digits : String} (h : IsNumber digits) :
    ∃ c rest, digits.toList = c :: rest ∧ c ≠ ' ' := by
  obtain ⟨c, rest, hcons⟩ := List.exists_cons_of_ne_nil (mt String.toList_eq_nil_iff.mp h.1)
  refine ⟨c, rest, hcons, fun hblank => h.not_mem isDecimalDigit_blank ?_⟩
  rw [hcons, hblank]
  exact List.mem_cons_self

theorem Grade.colon_not_mem_label (grade : Grade) : ':' ∉ grade.label.toList := by
  cases grade <;> decide

/-- No site has a colon and a blank where another begins. -/
theorem exists_append_of_colon_blank {front behind rest : List Char} (hbehind : behind.head? ≠ some ' ')
    (h : front ++ ':' :: behind = ':' :: ' ' :: rest) :
    ∃ more, front = ':' :: ' ' :: more ∧ more ++ ':' :: behind = rest := by
  cases front with
  | nil =>
    obtain rfl := (List.cons.inj h).2
    exact absurd rfl hbehind
  | cons c front =>
    obtain ⟨rfl, hrest⟩ := List.cons.inj h
    cases front with
    | nil => exact absurd (List.cons.inj hrest).1 (by decide)
    | cons d more =>
      obtain ⟨rfl, hmore⟩ := List.cons.inj hrest
      exact ⟨more, rfl, hmore⟩

/-- A site that begins before another one ends before it: each colon of a site has a blank behind it or a number, and
that number has a colon and a blank behind it unless it is the first one of the site. -/
theorem exists_append_of_site_append {front text rest : List Char} {line col line' col' : String} {grade grade' : Grade}
    (hline : IsNumber line) (hcol : IsNumber col) (hline' : IsNumber line') (hcol' : IsNumber col') (hne : front ≠ [])
    (h : front ++ ((site line col grade).toList ++ text) = (site line' col' grade').toList ++ rest) :
    ∃ more, front = (site line' col' grade').toList ++ more := by
  obtain ⟨first, digits, hfirst, hfirstBlank⟩ := hline.exists_cons
  obtain ⟨second, digits', hsecond, hsecondBlank⟩ := hcol.exists_cons
  have hnumber := hline.not_mem isDecimalDigit_colon
  obtain ⟨c, front, rfl⟩ := List.exists_cons_of_ne_nil hne
  simp only [toList_site, List.cons_append, List.append_assoc, List.nil_append, List.cons.injEq] at h ⊢
  obtain ⟨rfl, h⟩ := h
  generalize hbehind : line.toList ++ ':' :: (col.toList ++
    ':' :: ' ' :: (grade.label.toList ++ ':' :: ' ' :: text)) = behind at h
  have hhead : behind.head? ≠ some ' ' := by
    rw [← hbehind, hfirst]
    simpa using hfirstBlank
  obtain ⟨afterLine, rfl, hcolon⟩ := exists_append_of_append_eq h (hline'.not_mem isDecimalDigit_colon)
  cases afterLine with
  | nil =>
    -- the second colon would be the one that the other site begins with
    have hnumbers := (List.cons.inj hcolon).2
    rw [← hbehind] at hnumbers
    obtain ⟨more, hmore, hrest⟩ := exists_append_of_append_eq hnumbers (hcol'.not_mem isDecimalDigit_colon)
    cases more with
    | nil =>
      rw [hsecond] at hrest
      exact absurd (List.cons.inj (List.cons.inj hrest).2).1 hsecondBlank
    | cons d more =>
      obtain rfl := (List.cons.inj hrest).1
      exact absurd (hmore ▸ by simp) hnumber
  | cons d afterLine =>
    obtain ⟨rfl, hnumber'⟩ := List.cons.inj hcolon
    obtain ⟨afterCol, rfl, hblank⟩ := exists_append_of_append_eq hnumber' (hcol'.not_mem isDecimalDigit_colon)
    obtain ⟨afterBlank, rfl, hlabel⟩ := exists_append_of_colon_blank hhead hblank
    obtain ⟨afterLabel, rfl, hend⟩ := exists_append_of_append_eq hlabel grade'.colon_not_mem_label
    obtain ⟨more, rfl, -⟩ := exists_append_of_colon_blank hhead hend
    exact ⟨more, rfl, rfl⟩

/-- The first site counts. -/
theorem site?_append {front behind : List Char} {severity : Severity} (h : siteHere? behind = some severity)
    (hfront : ∀ part, part ≠ [] → part <:+ front → siteHere? (part ++ behind) = none) :
    site? (front ++ behind) = some severity := by
  induction front with
  | nil =>
    cases behind with
    | nil => cases h
    | cons c behind => rw [List.nil_append, site?, h, Option.some_or]
  | cons c front ih =>
    have hhere := hfront _ (List.cons_ne_nil c front) (List.suffix_refl _)
    rw [List.cons_append, site?, ← List.cons_append, hhere, Option.none_or]
    exact ih fun part hne hpart => hfront part hne (hpart.trans (List.suffix_cons _ _))

theorem isSome_site?_iff (cs : List Char) :
    (site? cs).isSome = true ↔ ∃ front behind, cs = front ++ behind ∧ (siteHere? behind).isSome = true := by
  induction cs with
  | nil =>
    refine ⟨nofun, ?_⟩
    rintro ⟨front, behind, hcs, hhere⟩
    obtain ⟨-, rfl⟩ := List.nil_eq_append_iff.mp hcs
    cases hhere
  | cons c rest ih =>
    rw [site?, Option.isSome_or, Bool.or_eq_true, ih]
    constructor
    · rintro (hhere | ⟨front, behind, rfl, hhere⟩)
      · exact ⟨[], c :: rest, rfl, hhere⟩
      · exact ⟨c :: front, behind, rfl, hhere⟩
    · rintro ⟨front, behind, hcs, hhere⟩
      cases front with
      | nil => exact Or.inl (by rwa [hcs])
      | cons d front => exact Or.inr ⟨front, behind, (List.cons.inj hcs).2, hhere⟩

theorem holdsSite_iff (text : String) : HoldsSite text ↔ (site? text.toList).isSome = true := by
  rw [isSome_site?_iff]
  simp only [Option.isSome_iff_exists, siteHere?_eq_some_iff]
  constructor
  · rintro ⟨before, line, col, grade, after, hline, hcol, rfl⟩
    exact ⟨before.toList, (site line col grade ++ after).toList, by simp, grade.severity, line, col, grade,
      after.toList, hline, hcol, rfl, by simp⟩
  · rintro ⟨front, behind, htext, severity, line, col, grade, rest, hline, hcol, -, rfl⟩
    refine ⟨String.ofList front, line, col, grade, String.ofList rest, hline, hcol, ?_⟩
    rw [← String.toList_inj]
    simpa using htext

instance (text : String) : Decidable (HoldsSite text) := decidable_of_iff _ (holdsSite_iff text).symm

theorem site?_place {place line col text : String} {grade : Grade} (hline : IsNumber line) (hcol : IsNumber col)
    (hplace : ¬ HoldsSite place) :
    site? (place.toList ++ ((site line col grade).toList ++ text.toList)) = some grade.severity := by
  apply site?_append
  · exact (siteHere?_eq_some_iff _ _).mpr ⟨line, col, grade, text.toList, hline, hcol, rfl, rfl⟩
  · rintro part hne ⟨before, hpart⟩
    rw [Option.eq_none_iff_forall_ne_some]
    intro severity hsome
    obtain ⟨line', col', grade', rest, hline', hcol', -, happend⟩ := (siteHere?_eq_some_iff _ _).mp hsome
    obtain ⟨more, rfl⟩ := exists_append_of_site_append hline hcol hline' hcol' hne happend
    refine hplace ⟨String.ofList before, line', col', grade', String.ofList more, hline', hcol', ?_⟩
    rw [← String.toList_inj]
    simp [← hpart]

/-! ### Events -/

theorem header?_place {place line col text : String} {grade : Grade} (hplace : ¬ BeginsAsHeader place) :
    header? (place.toList ++ ((site line col grade).toList ++ text.toList)) = none := by
  rw [Option.eq_none_iff_forall_ne_some]
  intro inclusion hsome
  obtain ⟨depth, path, hdepth, -, hline, -⟩ := (header?_eq_some_iff _ _).mp hsome
  rw [toList_site, List.cons_append, List.append_cons (List.replicate depth '.')] at hline
  obtain ⟨more, hmore, -⟩ := exists_append_of_append_eq hline (by simp)
  refine hplace ⟨depth, String.ofList more, hdepth, ?_⟩
  rw [← String.toList_inj]
  simpa using hmore

namespace Event

theorem toList_line_header (depth : Nat) (path : String) :
    (header depth path).line.toList = List.replicate depth '.' ++ ' ' :: path.toList := by
  simp [line]

theorem toList_line_diagnostic (place line col : String) (grade : Grade) (text : String) :
    (diagnostic place line col grade text).line.toList =
      place.toList ++ ((site line col grade).toList ++ text.toList) := by
  simp [Event.line]

namespace Legible

variable {e : Event} (h : e.Legible)
include h

theorem not_isBlank_getLast : ∀ c ∈ e.line.toList.getLast?, Text.isBlank c = false := by
  cases h with
  | @header depth path _ path_ne _ _ last =>
    have hne : path.toList ≠ [] := mt String.toList_eq_nil_iff.mp path_ne
    rwa [toList_line_header, List.append_cons, List.getLast?_append_of_ne_nil _ hne]
  | @diagnostic place line col grade text _ _ text_ne _ last =>
    have hne : text.toList ≠ [] := mt String.toList_eq_nil_iff.mp text_ne
    rwa [toList_line_diagnostic, ← List.append_assoc, List.getLast?_append_of_ne_nil _ hne]

theorem newline_not_mem : '\n' ∉ e.line.toList := by
  cases h with
  | header _ _ one_line => simpa [toList_line_header] using one_line
  | @diagnostic place line col grade text line_number col_number _ one_line =>
    have hline := line_number.not_mem (c := '\n') (by decide)
    have hcol := col_number.not_mem (c := '\n') (by decide)
    have hlabel : '\n' ∉ grade.label.toList := by cases grade <;> decide
    simp [toList_line_diagnostic, toList_site, one_line, hline, hcol, hlabel]

theorem line_ne_nil : e.line.toList ≠ [] := by
  cases h with
  | header => simp [toList_line_header]
  | diagnostic => simp [toList_line_diagnostic, toList_site]

theorem getLast_ne_return : e.line.toList.getLast? ≠ some '\r' :=
  fun hlast => absurd (h.not_isBlank_getLast _ hlast) (by decide)

/-- A line is read as the event that it prints. -/
theorem header?_line : header? e.line.toList = e.inclusion? := by
  cases h with
  | @header depth path depth_pos path_ne _ first last =>
    rw [toList_line_header, inclusion?, header?_eq_some_iff]
    refine ⟨depth, path.toList, depth_pos, mt String.toList_eq_nil_iff.mp path_ne, rfl, ?_⟩
    rw [Text.trim_eq_self first last, String.ofList_toList]
  | diagnostic _ _ _ _ _ no_header =>
    rw [toList_line_diagnostic, header?_place no_header, inclusion?]

theorem diagnosticOf?_line : diagnosticOf? e.line.toList = e.diagnostic? := by
  have hheader := h.header?_line
  rw [diagnosticOf?, Text.trimEnd_eq_self h.not_isBlank_getLast, hheader]
  cases h with
  | header => rfl
  | diagnostic line_number col_number _ _ _ _ no_site =>
    simp only [inclusion?, diagnostic?]
    rw [toList_line_diagnostic, site?_place line_number col_number no_site, Option.some_or, Option.map_some,
      ← toList_line_diagnostic, String.ofList_toList]

end Legible

end Event

/-- What the compiler prints about headers and diagnostics is read back as it was meant, line by line. -/
theorem parse_intercalate_line (events : List Event) (hevents : ∀ e ∈ events, e.Legible) (ending : String)
    (hending : ending ∈ Text.lineEnds) :
    parse (ending.intercalate (events.map Event.line)) =
      ⟨events.filterMap Event.inclusion?, events.filterMap Event.diagnostic?⟩ := by
  have hlines : Text.lines (ending.intercalate (events.map Event.line)).toList =
      events.map fun e => e.line.toList := by
    rw [String.toList_intercalate, List.map_map]
    apply Text.lines_intercalate hending
    intro piece hpiece
    obtain ⟨e, he, rfl⟩ := List.mem_map.mp hpiece
    exact ⟨(hevents e he).line_ne_nil, (hevents e he).newline_not_mem, (hevents e he).getLast_ne_return⟩
  have hheaders : ∀ e ∈ events, header? (Text.trimEnd e.line.toList) = e.inclusion? := by
    intro e he
    rw [Text.trimEnd_eq_self (hevents e he).not_isBlank_getLast, (hevents e he).header?_line]
  rw [parse_eq, hlines, List.filterMap_map, List.filterMap_map]
  exact congrArg₂ Messages.mk (List.filterMap_congr hheaders)
    (List.filterMap_congr fun e he => (hevents e he).diagnosticOf?_line)

/-- A header below another one, and a diagnostic at a place that has colons and numbers in it, digits of another script
and what looks like the rest of a site, in front of it. -/
def mixedEvents : List Event :=
  [.header 1 "/work/a.h", .diagnostic "C:\\src:7:3: error" "١٢" "5" .fatalError ":1:2: note: x", .header 2 "./.. b"]

theorem parse_intercalate_line_mixedEvents :
    (∀ e ∈ mixedEvents, e.Legible) ∧ "\r\n" ∈ Text.lineEnds ∧
      "\r\n".intercalate (mixedEvents.map Event.line) =
        ". /work/a.h\r\nC:\\src:7:3: error:١٢:5: fatal error: :1:2: note: x\r\n.. ./.. b" ∧
      parse ("\r\n".intercalate (mixedEvents.map Event.line)) =
        ⟨[⟨"/work/a.h", 1⟩, ⟨"./.. b", 2⟩],
          [⟨.fatal, "C:\\src:7:3: error:١٢:5: fatal error: :1:2: note: x"⟩]⟩ := by
  have hlegible : ∀ e ∈ mixedEvents, e.Legible := by
    refine List.forall_mem_cons.mpr ⟨?_, List.forall_mem_cons.mpr ⟨?_, List.forall_mem_singleton.mpr ?_⟩⟩
    · exact .header (by decide) (by decide) (by decide) (by simp [Text.isBlank]) (by simp [Text.isBlank])
    · have hline : IsNumber "١٢" := ⟨by decide, List.all_eq_true.mp (by decide)⟩
      have hcol : IsNumber "5" := ⟨by decide, List.all_eq_true.mp (by decide)⟩
      refine .diagnostic hline hcol (by decide) ⟨by decide, by decide⟩ (by simp [Text.isBlank]) ?_ (by decide)
      rintro ⟨depth, rest, hdepth, hplace⟩
      cases depth with
      | zero => cases hdepth
      | succ depth =>
        have hhead := congrArg (fun text => text.toList.head?) hplace
        simp [List.replicate_succ] at hhead
    · exact .header (by decide) (by decide) (by decide) (by simp [Text.isBlank]) (by simp [Text.isBlank])
  exact ⟨hlegible, by decide, by decide +kernel, parse_intercalate_line mixedEvents hlegible "\r\n" (by decide)⟩

end UnitFacts.Messages
