import Mathlib.Data.List.Lex
import Mathlib.Tactic.SplitIfs

/-!
Texts by their bytes. The bytes of a text are those of its characters in UTF-8, one after the other. A newline is one
byte and part of no other character, and the texts are ordered as their bytes are.
-/

namespace UnitFacts

/-- The bytes of a text. -/
def utf8Bytes (text : String) : List UInt8 := text.toUTF8.data.toList

/-- The byte of a newline. -/
def newline : UInt8 := 10

@[simp] theorem utf8Bytes_ofList (cs : List Char) :
    utf8Bytes (String.ofList cs) = cs.flatMap String.utf8EncodeChar := by
  rw [utf8Bytes, String.toUTF8, String.toByteArray_ofList, List.utf8Encode, List.toList_data_toByteArray]

theorem utf8Bytes_eq_flatMap (text : String) : utf8Bytes text = text.toList.flatMap String.utf8EncodeChar := by
  rw [← utf8Bytes_ofList, String.ofList_toList]

theorem length_utf8Bytes (text : String) : (utf8Bytes text).length = text.utf8ByteSize := rfl

/-- A newline is no byte of a character with several bytes: those are all above it. -/
theorem newline_not_mem_utf8EncodeChar {c : Char} (h : c ≠ '\n') : newline ∉ String.utf8EncodeChar c := by
  have hcode : c.val.toNat ≠ 10 := fun heq => h (Char.ext (UInt32.toNat.inj heq))
  have hbyte : ∀ code : Nat, newline = UInt8.ofNat code → code % 256 = 10 := by
    intro code heq
    have hnat := congrArg UInt8.toNat heq
    rw [UInt8.toNat_ofNat'] at hnat
    exact hnat.symm
  intro hmem
  simp only [String.utf8EncodeChar] at hmem
  split_ifs at hmem with hone htwo hthree
  · have hcode' := hbyte _ (List.mem_singleton.mp hmem)
    omega
  all_goals
    simp only [List.mem_cons, List.not_mem_nil, or_false] at hmem
  · rcases hmem with hmem | hmem <;> exact absurd (hbyte _ hmem) (by omega)
  · rcases hmem with hmem | hmem | hmem <;> exact absurd (hbyte _ hmem) (by omega)
  · rcases hmem with hmem | hmem | hmem | hmem <;> exact absurd (hbyte _ hmem) (by omega)

/-! ### The order of the bytes -/

/-- The lower of two numbers is so by its last digit to the base 64, or by the digits before this. -/
theorem div_lt_or_mod_lt {x y : Nat} (h : x < y) : x / 64 < y / 64 ∨ x / 64 = y / 64 ∧ x % 64 < y % 64 := by
  omega

/-- Codes are compared by their digits in a character of four bytes. -/
theorem digits_lt {x y : Nat} (h : x < y) (hlimit : y < 0x110000) :
    x / 262144 % 8 < y / 262144 % 8 ∨ x / 262144 % 8 = y / 262144 % 8 ∧
      (x / 4096 % 64 < y / 4096 % 64 ∨ x / 4096 % 64 = y / 4096 % 64 ∧
        (x / 64 % 64 < y / 64 % 64 ∨ x / 64 % 64 = y / 64 % 64 ∧ x % 64 < y % 64)) := by
  rcases div_lt_or_mod_lt h with hthree | ⟨_, _⟩
  · rcases div_lt_or_mod_lt hthree with htwo | ⟨_, _⟩
    · rcases div_lt_or_mod_lt htwo with hone | ⟨_, _⟩ <;> omega
    · omega
  · omega

/-- The bytes of two characters differ before either of them ends, so what follows does not matter. -/
theorem utf8EncodeChar_append_lt {c d : Char} (h : c < d) (rest others : List UInt8) :
    String.utf8EncodeChar c ++ rest < String.utf8EncodeChar d ++ others := by
  have hcode : c.val.toNat < d.val.toNat := h
  have hlimit : d.val.toNat < 0x110000 := by
    rcases d.valid with hlow | hhigh <;> omega
  have hdigits := digits_lt hcode hlimit
  have hbyte : ∀ n < 256, (UInt8.ofNat n).toNat = n := fun n hn => UInt8.toNat_ofNat_of_lt' hn
  simp only [String.utf8EncodeChar]
  generalize c.val.toNat = x at *
  generalize d.val.toNat = y at *
  -- a character with fewer bytes has the lower first byte; otherwise the codes are compared digit by digit
  split_ifs <;>
    simp (disch := omega) only [List.cons_append, List.nil_append, List.cons_lt_cons_iff, UInt8.lt_iff_toNat_lt,
      ← UInt8.toNat_inj, hbyte, Nat.add_lt_add_iff_right, Nat.add_right_cancel_iff]
  all_goals omega

theorem flatMap_utf8EncodeChar_lt {cs ds : List Char} (h : cs < ds) :
    cs.flatMap String.utf8EncodeChar < ds.flatMap String.utf8EncodeChar := by
  induction h with
  | @nil d rest =>
    obtain ⟨byte, bytes, hbytes⟩ := List.exists_cons_of_ne_nil (String.utf8EncodeChar_ne_nil (c := d))
    rw [List.flatMap_nil, List.flatMap_cons, hbytes]
    exact List.Lex.nil
  | @cons c before after _ ih =>
    rw [List.flatMap_cons, List.flatMap_cons]
    exact ih.append_left _ _
  | rel hlt =>
    rw [List.flatMap_cons, List.flatMap_cons]
    exact utf8EncodeChar_append_lt hlt _ _

/-- Texts are ordered as their bytes are. -/
theorem utf8Bytes_lt_iff (a b : String) : utf8Bytes a < utf8Bytes b ↔ a < b := by
  have hmono : ∀ a b : String, a < b → utf8Bytes a < utf8Bytes b := by
    intro a b h
    rw [utf8Bytes_eq_flatMap, utf8Bytes_eq_flatMap]
    exact flatMap_utf8EncodeChar_lt (String.lt_iff.mp h)
  refine ⟨fun h => ?_, hmono a b⟩
  rcases Std.lt_trichotomy a b with hlt | rfl | hgt
  · exact hlt
  · exact absurd h (List.lt_irrefl _)
  · exact absurd h (List.lt_asymm (hmono b a hgt))

end UnitFacts
