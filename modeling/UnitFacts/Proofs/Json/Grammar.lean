import UnitFacts.Proofs.Json.RoundTrip

/-!
The grammar of JSON. A document is an element, a value with blanks around it; its texts spell characters,
some of them by escapes and pairs of escapes, and its numbers have a value. The reader takes exactly the
texts of the grammar for texts, and exactly its numbers for numbers.
-/

namespace UnitFacts.Json

def Blanks (cs : List Char) : Prop := ∀ c ∈ cs, c = ' ' ∨ c = '\t' ∨ c = '\n' ∨ c = '\r'

/-- What stands between two quotes, and the text it spells. -/
inductive Quoted : List Char → List Char → Prop
  | nil : Quoted [] []
  | plain {c : Char} {cs text : List Char} : c ≠ '"' → c ≠ '\\' → 32 ≤ c.toNat → Quoted cs text →
      Quoted (c :: cs) (c :: text)
  | letter {e c : Char} {cs text : List Char} : simpleEscape? e = some c → Quoted cs text →
      Quoted ('\\' :: e :: cs) (c :: text)
  | unit {a b c d : Char} {unit : Nat} {cs text : List Char} : unit? a b c d = some unit →
      isHighSurrogate unit = false → isLowSurrogate unit = false → Quoted cs text →
      Quoted ('\\' :: 'u' :: a :: b :: c :: d :: cs) (Char.ofNat unit :: text)
  | pair {a b c d e f g h : Char} {high low : Nat} {cs text : List Char} : unit? a b c d = some high →
      isHighSurrogate high = true → unit? e f g h = some low → isLowSurrogate low = true → Quoted cs text →
      Quoted ('\\' :: 'u' :: a :: b :: c :: d :: '\\' :: 'u' :: e :: f :: g :: h :: cs)
        (pairChar high low :: text)

/-- The digits before a point: a zero, or digits that do not start with one. -/
inductive Whole : List Char → Prop
  | zero : Whole ['0']
  | digits {c : Char} {cs : List Char} : c.isDigit = true → c ≠ '0' → (∀ d ∈ cs, d.isDigit = true) →
      Whole (c :: cs)

/-- A fraction, which may be absent, and its digits. -/
inductive Fraction : List Char → List Char → Prop
  | absent : Fraction [] []
  | point {digits : List Char} : digits ≠ [] → (∀ d ∈ digits, d.isDigit = true) →
      Fraction ('.' :: digits) digits

/-- The sign of an exponent, and whether it makes it negative. -/
inductive Sign : List Char → Bool → Prop
  | absent : Sign [] false
  | plus : Sign ['+'] false
  | minus : Sign ['-'] true

/-- An exponent, which may be absent, and its value. -/
inductive Exponent : List Char → Option Int → Prop
  | absent : Exponent [] none
  | letter {e : Char} {sign digits : List Char} {negative : Bool} : e = 'e' ∨ e = 'E' → Sign sign negative →
      digits ≠ [] → (∀ d ∈ digits, d.isDigit = true) →
      Exponent (e :: (sign ++ digits))
        (some (if negative then -Number.digitsValue digits else Number.digitsValue digits))

inductive Unsigned (negative : Bool) : List Char → Number.Literal → Prop
  | mk {whole fraction digits exponent : List Char} {power : Option Int} : Whole whole →
      Fraction fraction digits → Exponent exponent power →
      Unsigned negative (whole ++ (fraction ++ exponent)) ⟨negative, whole, digits, power⟩

/-- A number as it is written. -/
inductive Signed : List Char → Number.Literal → Prop
  | plain {cs : List Char} {literal : Number.Literal} : Unsigned false cs literal → Signed cs literal
  | minus {cs : List Char} {literal : Number.Literal} : Unsigned true cs literal → Signed ('-' :: cs) literal

/-- The parts that a document is made of. -/
inductive Part where
  /-- A value without blanks around it. -/
  | value (value : Json)
  /-- A value with blanks around it. -/
  | element (value : Json)
  | items (items : List Json)
  | member (member : String × Json)
  | members (members : List (String × Json))

/-- What spells a part of a document. Objects keep repeated names, and an item or a member keeps its blanks. -/
inductive Spells : Part → List Char → Prop
  | null : Spells (.value .null) ['n', 'u', 'l', 'l']
  | yes : Spells (.value (.bool true)) ['t', 'r', 'u', 'e']
  | no : Spells (.value (.bool false)) ['f', 'a', 'l', 's', 'e']
  | num {cs : List Char} {literal : Number.Literal} {number : Number} : Signed cs literal →
      Number.ofLiteral? literal = some number → Spells (.value (.num number)) cs
  | str {cs text : List Char} : Quoted cs text →
      Spells (.value (.str (String.ofList text))) ('"' :: (cs ++ ['"']))
  | emptyArr {blanks : List Char} : Blanks blanks → Spells (.value (.arr [])) ('[' :: (blanks ++ [']']))
  | arr {items : List Json} {cs : List Char} : Spells (.items items) cs →
      Spells (.value (.arr items)) ('[' :: (cs ++ [']']))
  | emptyObj {blanks : List Char} : Blanks blanks →
      Spells (.value (.obj [])) ('\x7b' :: (blanks ++ ['\x7d']))
  | obj {members : List (String × Json)} {cs : List Char} : Spells (.members members) cs →
      Spells (.value (.obj members)) ('\x7b' :: (cs ++ ['\x7d']))
  | element {value : Json} {before cs after : List Char} : Blanks before → Spells (.value value) cs →
      Blanks after → Spells (.element value) (before ++ (cs ++ after))
  | item {value : Json} {cs : List Char} : Spells (.element value) cs → Spells (.items [value]) cs
  | items {value : Json} {items : List Json} {cs rest : List Char} : Spells (.element value) cs →
      Spells (.items items) rest → Spells (.items (value :: items)) (cs ++ ',' :: rest)
  | member {key before text after cs : List Char} {value : Json} : Blanks before → Quoted text key →
      Blanks after → Spells (.element value) cs →
      Spells (.member (String.ofList key, value)) (before ++ '"' :: (text ++ '"' :: (after ++ ':' :: cs)))
  | lastMember {member : String × Json} {cs : List Char} : Spells (.member member) cs →
      Spells (.members [member]) cs
  | members {member : String × Json} {members : List (String × Json)} {cs rest : List Char} :
      Spells (.member member) cs → Spells (.members members) rest →
      Spells (.members (member :: members)) (cs ++ ',' :: rest)

/-! ### Blanks -/

theorem isBlank_eq_true_iff (c : Char) : isBlank c = true ↔ c = ' ' ∨ c = '\t' ∨ c = '\n' ∨ c = '\r' := by
  simp [isBlank, or_assoc]

theorem skipBlank_append {blanks : List Char} (h : Blanks blanks) (cs : List Char) :
    skipBlank (blanks ++ cs) = skipBlank cs :=
  List.dropWhile_append_of_pos fun c hc => (isBlank_eq_true_iff c).mpr (h c hc)

theorem exists_blanks (cs : List Char) : ∃ blanks, Blanks blanks ∧ cs = blanks ++ skipBlank cs := by
  refine ⟨cs.takeWhile isBlank, fun c hc => ?_, List.takeWhile_append_dropWhile.symm⟩
  exact (isBlank_eq_true_iff c).mp (List.all_eq_true.mp List.all_takeWhile c hc)

theorem exists_blanks_of_skipBlank {cs rest : List Char} (h : skipBlank cs = rest) :
    ∃ blanks, Blanks blanks ∧ cs = blanks ++ rest := h ▸ exists_blanks cs

/-! ### Texts -/

/-- What stands between two quotes, and its code units, a character as one of them. -/
inductive Units : List Char → List Nat → Prop
  | nil : Units [] []
  | plain {c : Char} {cs : List Char} {units : List Nat} :
      c ≠ '"' → c ≠ '\\' → 32 ≤ c.toNat → Units cs units →
      Units (c :: cs) (c.toNat :: units)
  | letter {e c : Char} {cs : List Char} {units : List Nat} : simpleEscape? e = some c → Units cs units →
      Units ('\\' :: e :: cs) (c.toNat :: units)
  | hex {a b c d : Char} {unit : Nat} {cs : List Char} {units : List Nat} : unit? a b c d = some unit →
      Units cs units → Units ('\\' :: 'u' :: a :: b :: c :: d :: cs) (unit :: units)

/-- One more unit in front of a text that is read. -/
theorem units_cons {cs rest : List Char} {unit : Nat} {units : List Nat} (front : List Char)
    (h : ((readUnits cs).map fun (units, r) => (unit :: units, r)) = some (units, rest))
    (ih : ∀ {units}, readUnits cs = some (units, rest) → ∃ body, Units body units ∧ cs = body ++ '"' :: rest)
    (hfront : ∀ body units, Units body units → Units (front ++ body) (unit :: units)) :
    ∃ body, Units body units ∧ front ++ cs = body ++ '"' :: rest := by
  obtain ⟨⟨later, r⟩, hread, heq⟩ := Option.map_eq_some_iff.mp h
  cases heq
  obtain ⟨body, hbody, rfl⟩ := ih hread
  exact ⟨front ++ body, hfront body later hbody, by simp⟩

theorem units_of_readUnits {cs rest : List Char} {units : List Nat} (h : readUnits cs = some (units, rest)) :
    ∃ body, Units body units ∧ cs = body ++ '"' :: rest := by
  fun_induction readUnits cs generalizing units with
  | case1 => cases h
  | case2 rest' =>
    cases h
    exact ⟨[], .nil, rfl⟩
  | case3 => cases h
  | case4 a b c d rest' unit hunit ih =>
    exact units_cons ['\\', 'u', a, b, c, d] h ih fun body units => .hex hunit
  | case5 => cases h
  | case6 e rest' hu c hescape ih =>
    exact units_cons ['\\', e] h ih fun body units => .letter hescape
  | case7 => cases h
  | case8 c rest' hquote hu hslash hcond ih =>
    have hplain : c ≠ '\\' ∧ 32 ≤ c.toNat := by simpa using hcond
    exact units_cons [c] h ih fun body units =>
      .plain hquote hplain.1 hplain.2

theorem Units.readUnits_append {body : List Char} {units : List Nat} (h : Units body units) (rest : List Char) :
    readUnits (body ++ '"' :: rest) = some (units, rest) := by
  induction h with
  | nil => rfl
  | plain hquote hslash hcontrol _ ih =>
    simp [readUnits, hslash, Nat.not_lt.mpr hcontrol, ih]
  | letter hescape _ ih =>
    rw [List.cons_append, List.cons_append, readUnits_simpleEscape hescape, ih]
    rfl
  | hex hunit _ ih => simp [readUnits, hunit, ih]

/-- A unit that is no half of a pair is a character. -/
theorem Units.quoted_cons {body : List Char} {unit : Nat} {units : List Nat} (h : Units body (unit :: units))
    (hhigh : isHighSurrogate unit = false) (hlow : isLowSurrogate unit = false) :
    ∃ body', Units body' units ∧ ∀ text, Quoted body' text → Quoted body (Char.ofNat unit :: text) := by
  cases h with
  | @plain c cs _ hquote hslash hcontrol hrest =>
    rw [Char.ofNat_toNat]
    exact ⟨cs, hrest, fun text => .plain hquote hslash hcontrol⟩
  | @letter e c cs _ hescape hrest =>
    rw [Char.ofNat_toNat]
    exact ⟨cs, hrest, fun text => .letter hescape⟩
  | @hex a b c d _ cs _ hunit hrest => exact ⟨cs, hrest, fun text => .unit hunit hhigh hlow⟩

/-- Half of a pair is never a character of its own. -/
theorem Units.exists_hex {body : List Char} {unit : Nat} {units : List Nat} (h : Units body (unit :: units))
    (hhalf : isHighSurrogate unit = true ∨ isLowSurrogate unit = true) :
    ∃ a b c d body', body = '\\' :: 'u' :: a :: b :: c :: d :: body' ∧ unit? a b c d = some unit ∧
      Units body' units := by
  have hchar : ∀ c : Char, unit ≠ c.toNat := by
    rintro c rfl
    simp [not_isSurrogate c] at hhalf
  cases h with
  | plain => exact absurd rfl (hchar _)
  | letter => exact absurd rfl (hchar _)
  | @hex a b c d _ cs _ hunit hrest => exact ⟨a, b, c, d, cs, rfl, hunit, hrest⟩

theorem Units.quoted {body : List Char} {units : List Nat} {text : List Char} (h : Units body units)
    (htext : decodeUnits units = some text) : Quoted body text := by
  -- The grammar takes a pair in one step, so the induction is that of the decoder and not that of the units.
  fun_induction decodeUnits units generalizing body text with
  | case1 =>
    cases h
    cases htext
    exact .nil
  | case2 => cases htext
  | case3 unit hsingle =>
    cases htext
    obtain ⟨hhigh, hlow⟩ := Bool.or_eq_false_iff.mp (Bool.not_eq_true _ ▸ hsingle)
    obtain ⟨body', hrest, hcons⟩ := h.quoted_cons hhigh hlow
    cases hrest
    exact hcons [] .nil
  | case4 unit next rest hpair ih =>
    obtain ⟨hhigh, hlow⟩ := Bool.and_eq_true_iff.mp hpair
    obtain ⟨later, hlater, rfl⟩ := Option.map_eq_some_iff.mp htext
    obtain ⟨a, b, c, d, _, rfl, hfirst, hnext⟩ := h.exists_hex (.inl hhigh)
    obtain ⟨e, f, g, i, _, rfl, hsecond, hrest⟩ := hnext.exists_hex (.inr hlow)
    exact .pair hfirst hhigh hsecond hlow (ih hrest hlater)
  | case5 => cases htext
  | case6 unit next rest hpair hsingle ih =>
    obtain ⟨later, hlater, rfl⟩ := Option.map_eq_some_iff.mp htext
    obtain ⟨hhigh, hlow⟩ := Bool.or_eq_false_iff.mp (Bool.not_eq_true _ ▸ hsingle)
    obtain ⟨body', hrest, hcons⟩ := h.quoted_cons hhigh hlow
    exact hcons later (ih hrest hlater)

theorem decodeUnits_cons {unit : Nat} (hhigh : isHighSurrogate unit = false)
    (hlow : isLowSurrogate unit = false) (units : List Nat) :
    decodeUnits (unit :: units) = (decodeUnits units).map (Char.ofNat unit :: ·) := by
  cases units <;> simp [decodeUnits, hhigh, hlow]

theorem decodeUnits_toNat_cons (c : Char) (units : List Nat) :
    decodeUnits (c.toNat :: units) = (decodeUnits units).map (c :: ·) := by
  rw [decodeUnits_cons (not_isSurrogate c).1 (not_isSurrogate c).2, Char.ofNat_toNat]

theorem Quoted.exists_units {body text : List Char} (h : Quoted body text) :
    ∃ units, Units body units ∧ decodeUnits units = some text := by
  induction h with
  | nil => exact ⟨[], .nil, rfl⟩
  | @plain c cs text hquote hslash hcontrol _ ih =>
    obtain ⟨units, hunits, htext⟩ := ih
    exact ⟨c.toNat :: units, .plain hquote hslash hcontrol hunits, by rw [decodeUnits_toNat_cons, htext]; rfl⟩
  | @letter e c cs text hescape _ ih =>
    obtain ⟨units, hunits, htext⟩ := ih
    exact ⟨c.toNat :: units, .letter hescape hunits, by rw [decodeUnits_toNat_cons, htext]; rfl⟩
  | @unit a b c d unit cs text hunit hhigh hlow _ ih =>
    obtain ⟨units, hunits, htext⟩ := ih
    exact ⟨unit :: units, .hex hunit hunits, by rw [decodeUnits_cons hhigh hlow, htext]; rfl⟩
  | @pair a b c d e f g h high low cs text hfirst hhigh hsecond hlow _ ih =>
    obtain ⟨units, hunits, htext⟩ := ih
    exact ⟨high :: low :: units, .hex hfirst (.hex hsecond hunits), by simp [decodeUnits, hhigh, hlow, htext]⟩

theorem quoted_of_readText {cs rest : List Char} {text : String} (h : readText cs = some (some text, rest)) :
    ∃ body, Quoted body text.toList ∧ cs = body ++ '"' :: rest := by
  obtain ⟨⟨units, r⟩, hread, heq⟩ := Option.map_eq_some_iff.mp h
  obtain ⟨htext, rfl⟩ := Prod.mk.inj heq
  obtain ⟨chars, hdecode, rfl⟩ := Option.map_eq_some_iff.mp htext
  obtain ⟨body, hunits, hcs⟩ := units_of_readUnits hread
  exact ⟨body, String.toList_ofList ▸ hunits.quoted hdecode, hcs⟩

theorem Quoted.readText_append {body text : List Char} (h : Quoted body text) (rest : List Char) :
    readText (body ++ '"' :: rest) = some (some (String.ofList text), rest) := by
  obtain ⟨units, hunits, htext⟩ := h.exists_units
  simp [readText, hunits.readUnits_append, htext]

/-! ### Numbers -/

theorem whole_of_readWhole {cs whole rest : List Char} (h : readWhole cs = some (whole, rest)) :
    Whole whole ∧ cs = whole ++ rest := by
  unfold readWhole at h
  split at h
  · cases h
    exact ⟨.zero, rfl⟩
  · rename_i c cs hzero
    split at h
    · rename_i hdigit
      cases h
      refine ⟨.digits hdigit hzero (List.all_eq_true.mp List.all_takeWhile), ?_⟩
      rw [List.cons_append, List.takeWhile_append_dropWhile]
    · cases h
  · cases h

theorem fraction_of_readFraction {cs digits rest : List Char} (h : readFraction cs = some (digits, rest)) :
    ∃ body, Fraction body digits ∧ cs = body ++ rest := by
  unfold readFraction at h
  split at h
  · rename_i cs
    split at h
    · cases h
    · rename_i hsome
      cases h
      refine ⟨_, .point (mt List.isEmpty_iff.mpr hsome) (List.all_eq_true.mp List.all_takeWhile), ?_⟩
      rw [List.cons_append, List.takeWhile_append_dropWhile]
  · cases h
    exact ⟨[], .absent, rfl⟩

/-- A sign is taken wherever one can be. -/
def Sign.Ends (sign cs : List Char) : Prop := sign = [] → cs.head? ≠ some '-' ∧ cs.head? ≠ some '+'

theorem exists_sign (cs : List Char) :
    ∃ sign negative rest, Sign sign negative ∧ Sign.Ends sign rest ∧ cs = sign ++ rest := by
  by_cases hminus : cs.head? = some '-'
  · obtain ⟨rest, rfl⟩ := List.head?_eq_some_iff.mp hminus
    exact ⟨_, _, rest, .minus, nofun, rfl⟩
  · by_cases hplus : cs.head? = some '+'
    · obtain ⟨rest, rfl⟩ := List.head?_eq_some_iff.mp hplus
      exact ⟨_, _, rest, .plus, nofun, rfl⟩
    · exact ⟨_, _, cs, .absent, fun _ => ⟨hminus, hplus⟩, rfl⟩

theorem readExponent_letter {e : Char} (he : e = 'e' ∨ e = 'E') {sign cs : List Char} {negative : Bool}
    (hsign : Sign sign negative) (hends : Sign.Ends sign cs) :
    readExponent (e :: (sign ++ cs)) =
      if (cs.takeWhile Char.isDigit).isEmpty then none
      else some (some (if negative then -(Number.digitsValue (cs.takeWhile Char.isDigit) : Int)
        else Number.digitsValue (cs.takeWhile Char.isDigit)), cs.dropWhile Char.isDigit) := by
  cases hsign with
  | absent => simp [readExponent, he, hends rfl]
  | plus => simp [readExponent, he]
  | minus => simp [readExponent, he]

theorem exponent_of_readExponent {cs rest : List Char} {power : Option Int}
    (h : readExponent cs = some (power, rest)) : ∃ body, Exponent body power ∧ cs = body ++ rest := by
  cases cs with
  | nil =>
    cases h
    exact ⟨[], .absent, rfl⟩
  | cons e cs =>
    by_cases he : e = 'e' ∨ e = 'E'
    · obtain ⟨sign, negative, tail, hsign, hends, rfl⟩ := exists_sign cs
      rw [readExponent_letter he hsign hends] at h
      split at h
      · cases h
      · rename_i hsome
        cases h
        refine ⟨_, .letter he hsign (mt List.isEmpty_iff.mpr hsome) (List.all_eq_true.mp List.all_takeWhile), ?_⟩
        rw [List.cons_append, List.append_assoc, List.takeWhile_append_dropWhile]
    · rw [readExponent, if_neg he] at h
      cases h
      exact ⟨[], .absent, rfl⟩

theorem unsigned_of_readUnsigned {negative : Bool} {cs rest : List Char} {literal : Number.Literal}
    (h : readUnsigned negative cs = some (literal, rest)) :
    ∃ body, Unsigned negative body literal ∧ cs = body ++ rest := by
  obtain ⟨⟨whole, afterWhole⟩, hwhole, h⟩ := Option.bind_eq_some_iff.mp h
  obtain ⟨⟨digits, afterFraction⟩, hfraction, h⟩ := Option.bind_eq_some_iff.mp h
  obtain ⟨⟨power, afterExponent⟩, hexponent, h⟩ := Option.bind_eq_some_iff.mp h
  cases h
  obtain ⟨hw, rfl⟩ := whole_of_readWhole hwhole
  obtain ⟨fraction, hf, rfl⟩ := fraction_of_readFraction hfraction
  obtain ⟨exponent, he, rfl⟩ := exponent_of_readExponent hexponent
  exact ⟨_, .mk hw hf he, by simp⟩

theorem signed_of_readNumber {cs rest : List Char} {literal : Number.Literal}
    (h : readNumber cs = some (literal, rest)) : ∃ body, Signed body literal ∧ cs = body ++ rest := by
  unfold readNumber at h
  split at h
  · obtain ⟨body, hbody, rfl⟩ := unsigned_of_readUnsigned h
    exact ⟨_, .minus hbody, rfl⟩
  · obtain ⟨body, hbody, rfl⟩ := unsigned_of_readUnsigned h
    exact ⟨body, .plain hbody, rfl⟩

theorem Whole.readWhole_append {whole rest : List Char} (h : Whole whole)
    (hrest : ∀ c ∈ rest.head?, c.isDigit = false) : readWhole (whole ++ rest) = some (whole, rest) := by
  cases h with
  | zero => rfl
  | digits hdigit _ hdigits =>
    obtain ⟨htake, hdrop⟩ := takeWhile_isDigit_append hdigits hrest
    simp [readWhole, hdigit, htake, hdrop]

theorem Fraction.readFraction_append {fraction digits rest : List Char} (h : Fraction fraction digits)
    (hrest : ∀ c ∈ rest.head?, c.isDigit = false ∧ c ≠ '.') :
    readFraction (fraction ++ rest) = some (digits, rest) := by
  cases h with
  | absent =>
    cases rest with
    | nil => rfl
    | cons c rest => simp [readFraction, (hrest c rfl).2]
  | point hsome hdigits =>
    obtain ⟨htake, hdrop⟩ := takeWhile_isDigit_append hdigits fun c hc => (hrest c hc).1
    simp [readFraction, htake, hdrop, hsome]

theorem Exponent.readExponent_append {exponent rest : List Char} {power : Option Int} (h : Exponent exponent power)
    (hrest : EndsNumber rest) : readExponent (exponent ++ rest) = some (power, rest) := by
  cases h with
  | absent => exact readExponent_of_endsNumber hrest
  | @letter e sign digits negative he hsign hsome hdigits =>
    have hends : Sign.Ends sign (digits ++ rest) := by
      intro _
      cases digits with
      | nil => exact absurd rfl hsome
      | cons d digits =>
        have hd := hdigits d List.mem_cons_self
        constructor <;>
        · rintro heq
          cases heq
          cases hd
    obtain ⟨htake, hdrop⟩ := takeWhile_isDigit_append hdigits fun c hc => (hrest c hc).1
    rw [List.cons_append, List.append_assoc, readExponent_letter he hsign hends, htake, hdrop]
    simp [hsome]

/-- What stands after the digits of a number ends them. -/
theorem Exponent.head_append {exponent rest : List Char} {power : Option Int} (h : Exponent exponent power)
    (hrest : EndsNumber rest) : ∀ c ∈ (exponent ++ rest).head?, c.isDigit = false ∧ c ≠ '.' := by
  cases h with
  | absent => exact fun c hc => ⟨(hrest c hc).1, (hrest c hc).2.1⟩
  | letter he =>
    rintro c ⟨⟩
    rcases he with rfl | rfl <;> decide

theorem Fraction.head_append {fraction digits rest : List Char} (h : Fraction fraction digits)
    (hrest : ∀ c ∈ rest.head?, c.isDigit = false ∧ c ≠ '.') :
    ∀ c ∈ (fraction ++ rest).head?, c.isDigit = false := by
  cases h with
  | absent => exact fun c hc => (hrest c hc).1
  | point =>
    rintro c ⟨⟩
    rfl

theorem Unsigned.readUnsigned_append {negative : Bool} {cs rest : List Char} {literal : Number.Literal}
    (h : Unsigned negative cs literal) (hrest : EndsNumber rest) :
    readUnsigned negative (cs ++ rest) = some (literal, rest) := by
  cases h with
  | @mk whole fraction digits exponent power hw hf he =>
    have hafter := he.head_append hrest
    have hwhole := hw.readWhole_append (hf.head_append hafter)
    have hfraction := hf.readFraction_append hafter
    rw [readUnsigned, List.append_assoc, List.append_assoc, hwhole]
    simp [hfraction, he.readExponent_append hrest]

theorem Unsigned.exists_cons {negative : Bool} {cs : List Char} {literal : Number.Literal}
    (h : Unsigned negative cs literal) : ∃ c cs', cs = c :: cs' ∧ c.isDigit = true := by
  cases h with
  | mk hw hf he =>
    cases hw with
    | zero => exact ⟨_, _, rfl, rfl⟩
    | digits hdigit => exact ⟨_, _, rfl, hdigit⟩

theorem Signed.exists_cons {cs : List Char} {literal : Number.Literal} (h : Signed cs literal) :
    ∃ c cs', cs = c :: cs' ∧ startsNumber c = true := by
  cases h with
  | plain h =>
    obtain ⟨c, cs', heq, hdigit⟩ := h.exists_cons
    exact ⟨c, cs', heq, by simp [startsNumber, hdigit]⟩
  | minus => exact ⟨_, _, rfl, rfl⟩

theorem Signed.readNumber_append {cs rest : List Char} {literal : Number.Literal} (h : Signed cs literal)
    (hrest : EndsNumber rest) : readNumber (cs ++ rest) = some (literal, rest) := by
  cases h with
  | plain h =>
    have hread := h.readUnsigned_append hrest
    obtain ⟨c, cs, rfl, hdigit⟩ := h.exists_cons
    rw [readNumber, hread]
    rintro _ heq
    cases heq
    cases hdigit
  | minus h => exact h.readUnsigned_append hrest

end UnitFacts.Json
