import Mathlib.Tactic.SplitIfs
import UnitFacts.Json.Printer
import UnitFacts.Json.Reader

/-!
What is printed reads back. In either layout the text of a document whose numbers are integers of 64
bits is read as that document, and reading stops where the printed text ends. Blanks are only ever
printed where the reader skips them, and what follows a number can not be taken for a part of it.
-/

namespace UnitFacts.Json

/-! ### Texts -/

theorem not_isSurrogate (c : Char) :
    isHighSurrogate c.toNat = false ∧ isLowSurrogate c.toNat = false := by
  have hvalid : c.toNat < 0xD800 ∨ 0xDFFF < c.toNat ∧ c.toNat < 0x110000 := c.valid
  simp only [isHighSurrogate, isLowSurrogate, Bool.and_eq_false_iff, decide_eq_false_iff_not]
  omega

theorem decodeUnits_map_toNat (cs : List Char) : decodeUnits (cs.map Char.toNat) = some cs := by
  induction cs with
  | nil => rfl
  | cons c rest ih =>
    obtain ⟨hhigh, hlow⟩ := not_isSurrogate c
    cases rest with
    | nil => simp [decodeUnits, hhigh, hlow]
    | cons next rest =>
      rw [List.map_cons, List.map_cons, decodeUnits, ← List.map_cons, ih]
      simp [hhigh, hlow]

theorem hexValue?_hexDigit : ∀ value < 16, hexValue? (hexDigit value) = some value := by decide

theorem readUnits_simpleEscape {e c : Char} (h : simpleEscape? e = some c) (rest : List Char) :
    readUnits ('\\' :: e :: rest) = (readUnits rest).map fun (units, r) => (c.toNat :: units, r) := by
  have hne : e ≠ 'u' := by
    rintro rfl
    simp [simpleEscape?] at h
  simp [readUnits, hne, h]

theorem unit?_hexDigit {code : Nat} (h : code < 32) :
    unit? '0' '0' (hexDigit (code / 16)) (hexDigit (code % 16)) = some code := by
  have hzero : hexValue? '0' = some 0 := by decide
  have hhigh := hexValue?_hexDigit (code / 16) (by omega)
  have hlow := hexValue?_hexDigit (code % 16) (by omega)
  simp only [unit?, hzero, hhigh, hlow, Option.bind_eq_bind, Option.bind_some, Option.pure_def,
    Option.some.injEq]
  omega

/-- An escaped character is read as that character. -/
theorem readUnits_escapeChar (c : Char) (rest : List Char) :
    readUnits (escapeChar c ++ rest) =
      (readUnits rest).map fun (units, r) => (c.toNat :: units, r) := by
  unfold escapeChar
  split_ifs with hquote hslash hback htab hline hfeed hreturn hlow
  iterate 7 (· subst_vars; exact readUnits_simpleEscape rfl rest)
  · simp only [List.cons_append, List.nil_append, readUnits, unit?_hexDigit hlow]
  · simp [readUnits, hslash, hlow]

theorem readUnits_escaped (cs rest : List Char) :
    readUnits (cs.flatMap escapeChar ++ '"' :: rest) = some (cs.map Char.toNat, rest) := by
  induction cs with
  | nil => simp [readUnits]
  | cons c cs ih =>
    rw [List.flatMap_cons, List.append_assoc, readUnits_escapeChar, ih]
    rfl

theorem readText_quoted (text : String) (rest : List Char) :
    readText (text.toList.flatMap escapeChar ++ '"' :: rest) = some (some text, rest) := by
  rw [readText, readUnits_escaped]
  simp [decodeUnits_map_toNat]

/-! ### Numbers -/

namespace Number

theorem digitsValue_decimalDigits (value : Nat) : digitsValue (decimalDigits value) = value := by
  calc digitsValue (decimalDigits value)
      = Nat.ofDigitChars 10 (Nat.toDigits 10 value) 0 := by
        rw [Nat.ofDigitChars_eq_foldl]
        simp only [digitsValue, decimalDigits, digitValue, Nat.mul_comm]
    _ = value := Nat.ofDigitChars_ten_toDigits

theorem isDigit_of_mem_decimalDigits {value : Nat} {c : Char} (h : c ∈ decimalDigits value) :
    c.isDigit = true := Nat.isDigit_of_mem_toDigits (by decide) (by decide) h

theorem exists_decimalDigits (value : Nat) :
    ∃ c digits, decimalDigits value = c :: digits ∧ c.isDigit = true := by
  cases heq : decimalDigits value with
  | nil => exact absurd heq Nat.toDigits_ne_nil
  | cons c digits => exact ⟨c, digits, rfl, isDigit_of_mem_decimalDigits (heq ▸ List.mem_cons_self)⟩

theorem digitChar_ne_zero : ∀ digit < 10, 0 < digit → digit.digitChar ≠ '0' := by decide

/-- A positive number does not start with a zero. -/
theorem head?_decimalDigits_ne {value : Nat} (h : 0 < value) : (decimalDigits value).head? ≠ some '0' := by
  induction value using Nat.strongRecOn with
  | ind value ih =>
    rw [decimalDigits, Nat.toDigits_eq_if (by decide)]
    split
    · rename_i hlt
      simpa using digitChar_ne_zero value hlt h
    · have hfirst := ih (value / 10) (by omega) (by omega)
      rw [decimalDigits] at hfirst
      cases hdigits : Nat.toDigits 10 (value / 10) with
      | nil => exact absurd hdigits Nat.toDigits_ne_nil
      | cons c rest => simpa [hdigits] using hfirst

/-- Integers of 64 bits, with a sign or without. -/
def IsWord : Number → Prop
  | .int value => -(wordLimit / 2 : Int) ≤ value ∧ value < wordLimit
  | .double _ => False

/-- The literal that an integer is written as. -/
def literalOf (value : Int) : Literal where
  negative := decide (value < 0)
  whole := decimalDigits value.natAbs

theorem ofLiteral?_literalOf {value : Int} (h : (Number.int value).IsWord) :
    ofLiteral? (literalOf value) = some (.int value) := by
  obtain ⟨hlow, hhigh⟩ := h
  have hint : (literalOf value).int? = some value := by
    simp only [Literal.int?, literalOf, digitsValue_decimalDigits]
    simp only [wordLimit] at hlow hhigh ⊢
    by_cases hneg : value < 0
    · have hpos : 0 < value.natAbs ∧ value.natAbs ≤ 0x10000000000000000 / 2 := by omega
      have habs : -(value.natAbs : Int) = value := by omega
      simp only [hneg, hpos, habs, List.isEmpty_nil, Option.isSome_none, Bool.not_true, Bool.or_self,
        Bool.false_eq_true, if_false, decide_true, if_true, and_self]
    · have hlt : value.natAbs < 0x10000000000000000 := by omega
      have habs : (value.natAbs : Int) = value := by omega
      simp only [hneg, hlt, habs, List.isEmpty_nil, Option.isSome_none, Bool.not_true, Bool.or_self,
        Bool.false_eq_true, if_false, decide_false, if_true]
  rw [ofLiteral?, hint]

end Number

/-- What may stand after a number without becoming a part of it. -/
def EndsNumber (rest : List Char) : Prop :=
  ∀ c ∈ rest.head?, c.isDigit = false ∧ c ≠ '.' ∧ c ≠ 'e' ∧ c ≠ 'E'

theorem takeWhile_isDigit_append {digits rest : List Char} (hd : ∀ c ∈ digits, c.isDigit = true)
    (hr : ∀ c ∈ rest.head?, c.isDigit = false) :
    (digits ++ rest).takeWhile Char.isDigit = digits ∧ (digits ++ rest).dropWhile Char.isDigit = rest := by
  rw [List.takeWhile_append_of_pos hd, List.dropWhile_append_of_pos hd]
  cases rest with
  | nil => simp
  | cons c rest => simp [hr c rfl]

theorem readWhole_decimalDigits (value : Nat) {rest : List Char} (hr : EndsNumber rest) :
    readWhole (Number.decimalDigits value ++ rest) = some (Number.decimalDigits value, rest) := by
  have hdigits : ∀ c ∈ Number.decimalDigits value, c.isDigit = true := fun c hc =>
    Number.isDigit_of_mem_decimalDigits hc
  rcases Nat.eq_zero_or_pos value with rfl | hpos
  · rfl
  · have hhead := Number.head?_decimalDigits_ne hpos
    cases heq : Number.decimalDigits value with
    | nil => exact absurd heq Nat.toDigits_ne_nil
    | cons c digits =>
      rw [heq] at hdigits hhead
      have hne : c ≠ '0' := by simpa using hhead
      obtain ⟨htake, hdrop⟩ := takeWhile_isDigit_append (fun d hd => hdigits d (List.mem_cons_of_mem c hd))
        fun d hd => (hr d hd).1
      simp [readWhole, hdigits c List.mem_cons_self, htake, hdrop]

theorem readFraction_of_endsNumber {rest : List Char} (hr : EndsNumber rest) :
    readFraction rest = some ([], rest) := by
  cases rest with
  | nil => rfl
  | cons c rest => simp [readFraction, (hr c rfl).2.1]

theorem readExponent_of_endsNumber {rest : List Char} (hr : EndsNumber rest) :
    readExponent rest = some (none, rest) := by
  cases rest with
  | nil => rfl
  | cons c rest => simp [readExponent, (hr c rfl).2.2.1, (hr c rfl).2.2.2]

theorem readUnsigned_decimalDigits (negative : Bool) (value : Nat) {rest : List Char}
    (hr : EndsNumber rest) :
    readUnsigned negative (Number.decimalDigits value ++ rest) =
      some (⟨negative, Number.decimalDigits value, [], none⟩, rest) := by
  simp [readUnsigned, readWhole_decimalDigits value hr, readFraction_of_endsNumber hr,
    readExponent_of_endsNumber hr]

theorem readNumber_signedDigits (value : Int) {rest : List Char} (hr : EndsNumber rest) :
    readNumber (Number.signedDigits value ++ rest) = some (Number.literalOf value, rest) := by
  by_cases hneg : value < 0
  · simp [Number.signedDigits, readNumber, readUnsigned_decimalDigits true value.natAbs hr, Number.literalOf,
      hneg]
  · have hplain := readUnsigned_decimalDigits false value.natAbs hr
    obtain ⟨c, digits, hdigits, hc⟩ := Number.exists_decimalDigits value.natAbs
    have hminus : c ≠ '-' := by
      rintro rfl
      cases hc
    have hread : ∀ cs, readNumber (c :: cs) = readUnsigned false (c :: cs) := by
      intro cs
      rw [readNumber]
      exact fun _ h => hminus (List.cons.inj h).1
    simp only [Number.signedDigits, hneg, if_false, hdigits, List.cons_append] at hplain ⊢
    rw [hread, hplain]
    simp [Number.literalOf, hneg, hdigits]

/-- The characters that a number starts with. -/
def startsNumber (c : Char) : Bool := c = '-' || c.isDigit

theorem Number.exists_signedDigits (value : Int) :
    ∃ c cs, signedDigits value = c :: cs ∧ startsNumber c = true := by
  rw [signedDigits]
  split
  · exact ⟨'-', _, rfl, rfl⟩
  · obtain ⟨c, digits, hdigits, hc⟩ := exists_decimalDigits value.natAbs
    exact ⟨c, digits, hdigits, by simp [startsNumber, hc]⟩

/-! ### Blanks -/

theorem isBlank_of_startsNumber {c : Char} (h : startsNumber c = true) : isBlank c = false := by
  cases hblank : isBlank c with
  | false => rfl
  | true =>
    simp only [isBlank, Bool.or_eq_true, decide_eq_true_eq] at hblank
    rcases hblank with ((rfl | rfl) | rfl) | rfl <;> cases h

theorem skipBlank_cons {c : Char} (h : isBlank c = false) (cs : List Char) :
    skipBlank (c :: cs) = c :: cs := by
  simp [skipBlank, h]

theorem skipBlank_newline (layout : Layout) (depth : Nat) (cs : List Char) :
    skipBlank (layout.newline depth ++ cs) = skipBlank cs := by
  cases layout with
  | compact => rfl
  | indented =>
    have hblanks : ∀ c ∈ '\n' :: List.replicate (2 * depth) ' ', isBlank c = true := by
      intro c hc
      rcases List.mem_cons.mp hc with rfl | hc
      · rfl
      · rw [List.eq_of_mem_replicate hc]
        rfl
    exact List.dropWhile_append_of_pos hblanks

/-- A value is read from its first character on. -/
theorem readValue_congr {cs cs' : List Char} (h : skipBlank cs = skipBlank cs') (fuel : Nat) :
    readValue fuel cs = readValue fuel cs' := by
  cases fuel with
  | zero => rw [readValue, readValue]
  | succ fuel => rw [readValue, readValue, h]

theorem readMember_congr {cs cs' : List Char} (h : skipBlank cs = skipBlank cs') (fuel : Nat) :
    readMember fuel cs = readMember fuel cs' := by
  cases fuel with
  | zero => rw [readMember, readMember]
  | succ fuel => rw [readMember, readMember, h]

/-- The blank after a colon is skipped with those before the value. -/
theorem exists_colon (layout : Layout) (cs : List Char) :
    ∃ rest, layout.colon ++ cs = ':' :: rest ∧ skipBlank rest = skipBlank cs := by
  cases layout with
  | compact => exact ⟨cs, rfl, rfl⟩
  | indented => exact ⟨' ' :: cs, rfl, rfl⟩

/-! ### Documents -/

mutual

/-- The document of a value, in which every part has one. -/
def written : Json → Written
  | .null => .null
  | .bool value => .bool value
  | .num value => .num (some value)
  | .str text => .str (some text)
  | .arr items => .arr (writtenItems items)
  | .obj members => .obj (writtenMembers members)

def writtenItems : List Json → List Written
  | [] => []
  | item :: rest => written item :: writtenItems rest

def writtenMembers : List (String × Json) → List (Option String × Written)
  | [] => []
  | (key, value) :: rest => (some key, written value) :: writtenMembers rest

end

mutual

theorem value?_written (value : Json) : value.written.value? = some value := by
  match value with
  | .null => rfl
  | .bool _ => rfl
  | .num _ => rfl
  | .str _ => rfl
  | .arr items => rw [written, Written.value?, itemValues?_writtenItems items, Option.map_some]
  | .obj members => rw [written, Written.value?, memberValues?_writtenMembers members, Option.map_some]

theorem itemValues?_writtenItems (items : List Json) :
    Written.itemValues? (writtenItems items) = some items := by
  match items with
  | [] => rfl
  | item :: rest =>
    simp only [writtenItems, Written.itemValues?, value?_written item, itemValues?_writtenItems rest,
      Option.map_some]

theorem memberValues?_writtenMembers (members : List (String × Json)) :
    Written.memberValues? (writtenMembers members) = some members := by
  match members with
  | [] => rfl
  | (key, value) :: rest =>
    simp only [writtenMembers, Written.memberValues?, value?_written value, memberValues?_writtenMembers rest,
      Option.map_some]

end

/-- Values whose numbers are integers of 64 bits. -/
inductive HasWords : Json → Prop
  | null : HasWords .null
  | bool (value : Bool) : HasWords (.bool value)
  | num {value : Number} : value.IsWord → HasWords (.num value)
  | str (text : String) : HasWords (.str text)
  | arr {items : List Json} : (∀ item ∈ items, HasWords item) → HasWords (.arr items)
  | obj {members : List (String × Json)} : (∀ member ∈ members, HasWords member.2) →
      HasWords (.obj members)

@[simp] theorem hasWords_arr_iff {items : List Json} : (arr items).HasWords ↔ ∀ item ∈ items, item.HasWords :=
  ⟨fun h => by cases h; assumption, .arr⟩

@[simp] theorem hasWords_obj_iff {members : List (String × Json)} :
    (obj members).HasWords ↔ ∀ member ∈ members, member.2.HasWords :=
  ⟨fun h => by cases h; assumption, .obj⟩

attribute [simp] HasWords.str HasWords.bool

theorem readValue_number {c : Char} (hc : startsNumber c = true) (fuel : Nat) (cs : List Char) :
    readValue (fuel + 1) (c :: cs) =
      (readNumber (c :: cs)).map fun (literal, r) => (.num (Number.ofLiteral? literal), r) := by
  have hne : ∀ d rest, startsNumber d = false → c :: cs ≠ d :: rest := by
    rintro d rest hd heq
    rw [(List.cons.inj heq).1, hd] at hc
    cases hc
  rw [readValue, skipBlank_cons (isBlank_of_startsNumber hc)]
  split
  case h_7 => rfl
  all_goals
    rename_i heq
    exact absurd heq (hne _ _ rfl)

/-- The text of a value starts with neither a blank nor a closing bracket. -/
theorem exists_charsBefore (layout : Layout) (depth : Nat) {value : Json} (h : value.HasWords)
    (tail : List Char) :
    ∃ c cs, charsBefore layout depth value tail = c :: cs ∧ isBlank c = false ∧ c ≠ ']' := by
  cases h with
  | null => exact ⟨'n', _, by rw [charsBefore], rfl, by decide⟩
  | bool value => cases value <;> exact ⟨_, _, by rw [charsBefore], rfl, by decide⟩
  | @num value hword =>
    cases value with
    | double value => cases hword
    | int value =>
      obtain ⟨c, cs, heq, hc⟩ := Number.exists_signedDigits value
      have hchars : charsBefore layout depth (.num (.int value)) tail = c :: (cs ++ tail) := by
        rw [charsBefore, Number.chars, heq, List.cons_append]
      refine ⟨c, cs ++ tail, hchars, isBlank_of_startsNumber hc, ?_⟩
      rintro rfl
      cases hc
  | str text => exact ⟨'"', _, by rw [charsBefore, quote, List.cons_append], rfl, by decide⟩
  | @arr items _ => cases items <;> exact ⟨'[', _, by rw [charsBefore], rfl, by decide⟩
  | @obj members _ => cases members <;> exact ⟨'\x7b', _, by rw [charsBefore], rfl, by decide⟩

theorem endsNumber_newline (layout : Layout) (depth : Nat) {c : Char} (hc : EndsNumber [c]) (cs : List Char) :
    EndsNumber (layout.newline depth ++ c :: cs) := by
  cases layout with
  | compact => exact hc
  | indented => 
    intro d hd
    obtain rfl : '\n' = d := by simpa [Layout.newline] using hd
    decide

theorem endsNumber_itemChars (layout : Layout) (depth : Nat) (items : List Json) (tail : List Char) :
    EndsNumber (itemChars layout depth items tail) := by
  cases items with
  | nil =>
    rw [itemChars]
    exact endsNumber_newline layout depth (by simp [EndsNumber]) tail
  | cons item rest =>
    rw [itemChars]
    simp [EndsNumber]

theorem endsNumber_memberChars (layout : Layout) (depth : Nat) (members : List (String × Json))
    (tail : List Char) :
    EndsNumber (memberChars layout depth members tail) := by
  cases members with
  | nil =>
    rw [memberChars]
    exact endsNumber_newline layout depth (by simp [EndsNumber]) tail
  | cons member rest =>
    rw [memberChars]
    simp [EndsNumber]

/-- The text of the value, wherever it is printed, is longer than what follows it, and reading it
gives the value and stops before what follows. -/
structure ReadsBack (layout : Layout) (value : Json) : Prop where
  length_lt : ∀ depth tail, tail.length < (charsBefore layout depth value tail).length
  readValue_eq : ∀ depth fuel tail, EndsNumber tail → (charsBefore layout depth value tail).length ≤ fuel →
    readValue fuel (charsBefore layout depth value tail) = some (value.written, tail)

section Lists

variable {layout : Layout}

/-- The key and the colon take one read beside that of the value. -/
theorem ReadsBack.readMember_eq {value : Json} (h : ReadsBack layout value) (key : String)
    (depth fuel : Nat) {tail : List Char} (htail : EndsNumber tail)
    (hfuel : (quote key ++ (layout.colon ++ charsBefore layout depth value tail)).length ≤ fuel) :
    readMember fuel (quote key ++ (layout.colon ++ charsBefore layout depth value tail)) =
      some ((some key, value.written), tail) := by
  obtain ⟨rest, hcolon, hblank⟩ := exists_colon layout (charsBefore layout depth value tail)
  have hlen := congrArg List.length hcolon
  simp only [quote, List.length_append, List.length_cons] at hfuel hlen
  cases fuel with
  | zero => omega
  | succ fuel =>
    have hvalue := h.readValue_eq depth fuel tail htail (by omega)
    have hquote : skipBlank (quote key ++ ':' :: rest) =
        '"' :: (key.toList.flatMap escapeChar ++ '"' :: ':' :: rest) := by
      simp [quote, skipBlank, isBlank]
    rw [hcolon, readMember, hquote]
    simp only [readText_quoted, skipBlank_cons (show isBlank ':' = false from rfl)]
    rw [readValue_congr hblank, hvalue]
    rfl

theorem length_lt_itemChars {items : List Json} (h : ∀ item ∈ items, ReadsBack layout item)
    (depth : Nat) (tail : List Char) : tail.length < (itemChars layout depth items tail).length := by
  induction items with
  | nil =>
    rw [itemChars]
    simp only [List.length_append, List.length_cons]
    omega
  | cons item rest ih =>
    have hrest := ih fun later hlater => h later (List.mem_cons_of_mem _ hlater)
    have hitem := (h item List.mem_cons_self).length_lt (depth + 1) (itemChars layout depth rest tail)
    rw [itemChars]
    simp only [List.length_append, List.length_cons]
    omega

theorem readItems_itemChars {items : List Json} (h : ∀ item ∈ items, ReadsBack layout item)
    (depth fuel : Nat) (tail : List Char) (hfuel : (itemChars layout depth items tail).length ≤ fuel) :
    readItems fuel (itemChars layout depth items tail) = some (writtenItems items, tail) := by
  induction items generalizing fuel with
  | nil =>
    rw [itemChars] at hfuel ⊢
    simp only [List.length_append, List.length_cons] at hfuel
    cases fuel with
    | zero => omega
    | succ fuel =>
      rw [readItems, skipBlank_newline, skipBlank_cons rfl, writtenItems]
      rfl
  | cons item rest ih =>
    have hitem := h item List.mem_cons_self
    have hlonger := hitem.length_lt (depth + 1) (itemChars layout depth rest tail)
    rw [itemChars] at hfuel ⊢
    simp only [List.length_append, List.length_cons] at hfuel
    cases fuel with
    | zero => omega
    | succ fuel =>
      have hfirst := hitem.readValue_eq (depth + 1) fuel _ (endsNumber_itemChars layout depth rest tail)
        (by omega)
      have hrest := ih (fun later hlater => h later (List.mem_cons_of_mem _ hlater)) fuel (by omega)
      rw [readItems, skipBlank_cons rfl]
      simp only [readValue_congr (skipBlank_newline layout (depth + 1) _), hfirst, hrest]
      rw [writtenItems]
      rfl

theorem length_lt_memberChars {members : List (String × Json)}
    (h : ∀ member ∈ members, ReadsBack layout member.2) (depth : Nat) (tail : List Char) :
    tail.length < (memberChars layout depth members tail).length := by
  induction members with
  | nil =>
    rw [memberChars]
    simp only [List.length_append, List.length_cons]
    omega
  | cons member rest ih =>
    have hrest := ih fun later hlater => h later (List.mem_cons_of_mem _ hlater)
    have hvalue := (h member List.mem_cons_self).length_lt (depth + 1) (memberChars layout depth rest tail)
    rw [memberChars]
    simp only [List.length_append, List.length_cons]
    omega

theorem readMembers_memberChars {members : List (String × Json)}
    (h : ∀ member ∈ members, ReadsBack layout member.2) (depth fuel : Nat) (tail : List Char)
    (hfuel : (memberChars layout depth members tail).length ≤ fuel) :
    readMembers fuel (memberChars layout depth members tail) = some (writtenMembers members, tail) := by
  induction members generalizing fuel with
  | nil =>
    rw [memberChars] at hfuel ⊢
    simp only [List.length_append, List.length_cons] at hfuel
    cases fuel with
    | zero => omega
    | succ fuel =>
      rw [readMembers, skipBlank_newline, skipBlank_cons rfl, writtenMembers]
      rfl
  | cons member rest ih =>
    obtain ⟨key, value⟩ := member
    have hvalue : ReadsBack layout value := h (key, value) List.mem_cons_self
    have hlonger := hvalue.length_lt (depth + 1) (memberChars layout depth rest tail)
    rw [memberChars] at hfuel ⊢
    simp only [List.length_append, List.length_cons] at hfuel
    cases fuel with
    | zero => omega
    | succ fuel =>
      have hfirst := hvalue.readMember_eq key (depth + 1) fuel (endsNumber_memberChars layout depth rest tail)
        (by simp only [List.length_append]; omega)
      have hrest := ih (fun later hlater => h later (List.mem_cons_of_mem _ hlater)) fuel (by omega)
      rw [readMembers, skipBlank_cons rfl]
      simp only [readMember_congr (skipBlank_newline layout (depth + 1) _), hfirst, hrest]
      rw [writtenMembers]
      rfl

end Lists

/-- Values without items and members are printed the same at every depth. -/
theorem ReadsBack.of_text {layout : Layout} {value : Json} (c : Char) (cs : List Char)
    (hchars : ∀ depth tail, charsBefore layout depth value tail = c :: (cs ++ tail))
    (hread : ∀ fuel tail, EndsNumber tail →
      readValue (fuel + 1) (c :: (cs ++ tail)) = some (value.written, tail)) :
    ReadsBack layout value := by
  refine ⟨fun depth tail => ?_, fun depth fuel tail htail hfuel => ?_⟩
  · rw [hchars, List.length_cons, List.length_append]
    omega
  · rw [hchars, List.length_cons] at hfuel
    cases fuel with
    | zero => omega
    | succ fuel => rw [hchars, hread fuel tail htail]

theorem readsBack_int (layout : Layout) {value : Int} (h : (Number.int value).IsWord) :
    ReadsBack layout (.num (.int value)) := by
  obtain ⟨c, cs, heq, hc⟩ := Number.exists_signedDigits value
  apply ReadsBack.of_text c cs
  · intro depth tail
    rw [charsBefore, Number.chars, heq, List.cons_append]
  · intro fuel tail htail
    rw [readValue_number hc, ← List.cons_append, ← heq, readNumber_signedDigits value htail]
    simp only [Option.map_some, Number.ofLiteral?_literalOf h]
    rw [written]

theorem readsBack_str (layout : Layout) (text : String) : ReadsBack layout (.str text) := by
  apply ReadsBack.of_text '"' (text.toList.flatMap escapeChar ++ ['"'])
  · intro depth tail
    rw [charsBefore, quote, List.cons_append]
  · intro fuel tail _
    rw [readValue, skipBlank_cons rfl]
    simp only [List.append_assoc, List.cons_append, List.nil_append, readText_quoted, Option.map_some]
    rw [written]

theorem readValue_bracket {fuel : Nat} {cs rest tail : List Char} {item : Written} {items : List Written}
    (hopen : ∀ after, skipBlank cs ≠ ']' :: after) (hitem : readValue fuel cs = some (item, rest))
    (hitems : readItems fuel rest = some (items, tail)) :
    readValue (fuel + 1) ('[' :: cs) = some (.arr (item :: items), tail) := by
  rw [readValue, skipBlank_cons rfl]
  simp only [hitem, hitems, Option.map_some]

theorem readValue_brace {fuel : Nat} {cs rest tail : List Char} {member : Option String × Written}
    {members : List (Option String × Written)} (hopen : ∀ after, skipBlank cs ≠ '\x7d' :: after)
    (hmember : readMember fuel cs = some (member, rest))
    (hmembers : readMembers fuel rest = some (members, tail)) :
    readValue (fuel + 1) ('\x7b' :: cs) = some (.obj (member :: members), tail) := by
  rw [readValue, skipBlank_cons rfl]
  simp only [hmember, hmembers, Option.map_some]

theorem readsBack_arr (layout : Layout) {items : List Json} (hwords : ∀ item ∈ items, item.HasWords)
    (h : ∀ item ∈ items, ReadsBack layout item) : ReadsBack layout (.arr items) := by
  cases items with
  | nil =>
    exact ReadsBack.of_text '[' [']'] (fun _ _ => by rw [charsBefore]; rfl)
      (fun _ _ _ => by rw [readValue, written, writtenItems]; rfl)
  | cons item rest =>
    have hitem := h item List.mem_cons_self
    have hrest := fun later hlater => h later (List.mem_cons_of_mem item hlater)
    have hlonger := fun depth tail => hitem.length_lt (depth + 1) (itemChars layout depth rest tail)
    refine ⟨fun depth tail => ?_, fun depth fuel tail _ hfuel => ?_⟩
    · have hlater := length_lt_itemChars hrest depth tail
      have hfirst := hlonger depth tail
      rw [charsBefore]
      simp only [List.length_append, List.length_cons]
      omega
    · have hfirst := hlonger depth tail
      obtain ⟨c, cs, hstart, hblank, hclose⟩ := exists_charsBefore layout (depth + 1)
        (hwords item List.mem_cons_self) (itemChars layout depth rest tail)
      rw [charsBefore] at hfuel ⊢
      simp only [List.length_append, List.length_cons] at hfuel
      cases fuel with
      | zero => omega
      | succ fuel =>
        have hlater := readItems_itemChars hrest depth fuel tail (by omega)
        rw [written, writtenItems]
        refine readValue_bracket ?_ ?_ hlater
        · intro after
          rw [skipBlank_newline, hstart, skipBlank_cons hblank]
          exact fun heq => hclose (List.cons.inj heq).1
        · rw [readValue_congr (skipBlank_newline layout (depth + 1) _)]
          exact hitem.readValue_eq (depth + 1) fuel _ (endsNumber_itemChars layout depth rest tail) (by omega)

theorem readsBack_obj (layout : Layout) {members : List (String × Json)}
    (h : ∀ member ∈ members, ReadsBack layout member.2) : ReadsBack layout (.obj members) := by
  cases members with
  | nil =>
    exact ReadsBack.of_text '\x7b' ['\x7d'] (fun _ _ => by rw [charsBefore]; rfl)
      (fun _ _ _ => by rw [readValue, written, writtenMembers]; rfl)
  | cons member rest =>
    obtain ⟨key, value⟩ := member
    have hvalue : ReadsBack layout value := h (key, value) List.mem_cons_self
    have hrest := fun later hlater => h later (List.mem_cons_of_mem (key, value) hlater)
    have hlonger := fun depth tail => hvalue.length_lt (depth + 1) (memberChars layout depth rest tail)
    refine ⟨fun depth tail => ?_, fun depth fuel tail _ hfuel => ?_⟩
    · have hlater := length_lt_memberChars hrest depth tail
      have hfirst := hlonger depth tail
      rw [charsBefore]
      simp only [List.length_append, List.length_cons]
      omega
    · have hfirst := hlonger depth tail
      rw [charsBefore] at hfuel ⊢
      simp only [List.length_append, List.length_cons] at hfuel
      cases fuel with
      | zero => omega
      | succ fuel =>
        have hlater := readMembers_memberChars hrest depth fuel tail (by omega)
        rw [written, writtenMembers]
        refine readValue_brace ?_ ?_ hlater
        · intro after
          rw [skipBlank_newline, quote, List.cons_append, skipBlank_cons rfl]
          exact fun heq => absurd (List.cons.inj heq).1 (by decide)
        · rw [readMember_congr (skipBlank_newline layout (depth + 1) _)]
          exact hvalue.readMember_eq key (depth + 1) fuel (endsNumber_memberChars layout depth rest tail)
            (by simp only [List.length_append]; omega)

theorem HasWords.readsBack {value : Json} (h : value.HasWords) (layout : Layout) :
    ReadsBack layout value := by
  induction h with
  | null =>
    exact ReadsBack.of_text 'n' ['u', 'l', 'l'] (fun _ _ => by rw [charsBefore]; rfl)
      (fun _ _ _ => by rw [readValue, written]; rfl)
  | bool value =>
    cases value with
    | true =>
      exact ReadsBack.of_text 't' ['r', 'u', 'e'] (fun _ _ => by rw [charsBefore]; rfl)
        (fun _ _ _ => by rw [readValue, written]; rfl)
    | false =>
      exact ReadsBack.of_text 'f' ['a', 'l', 's', 'e'] (fun _ _ => by rw [charsBefore]; rfl)
        (fun _ _ _ => by rw [readValue, written]; rfl)
  | @num value hword =>
    cases value with
    | int value => exact readsBack_int layout hword
    | double value => cases hword
  | str text => exact readsBack_str layout text
  | arr hwords ih => exact readsBack_arr layout hwords ih
  | obj _ ih => exact readsBack_obj layout ih

/-- What is printed is read as the document it was printed from. -/
theorem HasWords.writtenParse?_render {value : Json} (h : value.HasWords) (layout : Layout) :
    Written.parse? (value.render layout) = some value.written := by
  have hread := (h.readsBack layout).readValue_eq 0 (2 * (value.chars layout).length + 2) []
    (by simp [EndsNumber]) (by rw [chars]; omega)
  rw [Written.parse?, render, String.toList_ofList]
  rw [← chars] at hread
  simp [hread, skipBlank]

/-- What is printed is read as the value it was printed from. -/
theorem HasWords.parse?_render {value : Json} (h : value.HasWords) (layout : Layout) :
    parse? (value.render layout) = some value := by
  rw [parse?, h.writtenParse?_render, Option.bind_some, value?_written]

end UnitFacts.Json
