import Mathlib.Data.List.Induction
import UnitFacts.Proofs.Source.Tokens
import UnitFacts.Proofs.Text.Utf8

/-!
The tokens in a range of a file. Tokens stand where the bytes of the file have them, one after the other and none
over another. A walk over the parse of a file that passes over the nodes outside a range gives the tokens of the
file that lie in the range, whatever nodes stand above them, so nothing but the bounds of a token decides.
-/

namespace UnitFacts

/-! ### Where a token stands -/

/-- A token has a text, which is that of the bytes at its offset, and is on the line after the newlines before it
and in the column after the bytes since the last of these. -/
structure Token.StandsIn (token : Token) (text : String) : Prop where
  not_empty : token.text ≠ ""
  spelled : ((utf8Bytes text).drop token.offset).take token.text.utf8ByteSize = utf8Bytes token.text
  line : token.line = 1 + ((utf8Bytes text).take token.offset).count newline
  col : token.col = 1 + (((utf8Bytes text).take token.offset).reverse.takeWhile (· ≠ newline)).length

namespace Cursor

theorem offset_step (cursor : Cursor) (c : Char) : (cursor.step c).offset = cursor.offset + c.utf8Size := by
  unfold step
  split <;> rfl

theorem offset_advance (cursor : Cursor) (cs : List Char) :
    (cursor.advance cs).offset = cursor.offset + (cs.flatMap String.utf8EncodeChar).length := by
  induction cs generalizing cursor with
  | nil => rfl
  | cons c rest ih =>
    rw [advance, List.foldl_cons, ← advance, ih, offset_step, List.flatMap_cons, List.length_append,
      String.length_utf8EncodeChar, Nat.add_assoc]

/-- Where the characters of a text lead: past its bytes, to the line after its newlines and the column after the
bytes since the last of them. -/
theorem advance_eq (cs : List Char) {bytes : List UInt8} (hbytes : bytes = cs.flatMap String.utf8EncodeChar) :
    ({} : Cursor).advance cs =
      ⟨bytes.length, 1 + bytes.count newline, 1 + (bytes.reverse.takeWhile (· ≠ newline)).length⟩ := by
  subst hbytes
  induction cs using List.reverseRecOn with
  | nil => rfl
  | append_singleton before c ih =>
    have hadvance : ({} : Cursor).advance (before ++ [c]) = (({} : Cursor).advance before).step c := by
      simp [advance]
    rw [hadvance, ih, step, List.flatMap_append, List.flatMap_singleton, List.reverse_append]
    by_cases hc : c = '\n'
    · subst hc
      have hencode : String.utf8EncodeChar '\n' = [newline] := by decide
      have hsize : Char.utf8Size '\n' = 1 := by decide
      simp [hencode, hsize, Nat.add_assoc]
    · have hnot := newline_not_mem_utf8EncodeChar hc
      have hall : ∀ b ∈ (String.utf8EncodeChar c).reverse, decide (b ≠ newline) = true := by
        intro b hb
        exact decide_eq_true fun heq => hnot (heq ▸ List.mem_reverse.mp hb)
      rw [if_neg hc, List.takeWhile_append_of_pos hall, List.count_append, List.count_eq_zero.mpr hnot,
        List.length_append, List.length_append, List.length_reverse, String.length_utf8EncodeChar]
      simp only [Cursor.mk.injEq, Nat.add_zero, true_and]
      rw [Nat.add_assoc, Nat.add_comm c.utf8Size]

end Cursor

/-- A piece as a token at a place. -/
def Piece.tokenAt (piece : Piece) (cursor : Cursor) : Token :=
  ⟨String.ofList piece.text, cursor.offset, cursor.line, cursor.col⟩

namespace Token

/-- A token is a piece, at the place that the pieces before it lead to. -/
theorem exists_piece_of_mem_ofPieces {cursor : Cursor} {pieces : List Piece} {token : Token}
    (h : token ∈ ofPieces cursor pieces) :
    ∃ earlier piece later, pieces = earlier ++ piece :: later ∧
      token = piece.tokenAt (cursor.advance (earlier.flatMap (·.text))) := by
  induction pieces generalizing cursor with
  | nil => cases h
  | cons first rest ih =>
    have hcases : token = first.tokenAt cursor ∨ token ∈ ofPieces (cursor.advance first.text) rest := by
      rw [ofPieces] at h
      split at h
      · exact List.mem_cons.mp h
      · exact Or.inr h
    rcases hcases with rfl | hrest
    · exact ⟨[], first, rest, rfl, rfl⟩
    · obtain ⟨earlier, piece, later, rfl, rfl⟩ := ih hrest
      refine ⟨first :: earlier, piece, later, rfl, ?_⟩
      rw [List.flatMap_cons, Cursor.advance, Cursor.advance, Cursor.advance, List.foldl_append]

theorem stop_tokenAt (piece : Piece) (cursor : Cursor) :
    (piece.tokenAt cursor).stop = (cursor.advance piece.text).offset := by
  rw [Piece.tokenAt, Token.stop, Cursor.offset_advance, ← utf8Bytes_ofList, length_utf8Bytes]

/-- No token begins before the one before it has ended. -/
theorem pairwise_stop_le_ofPieces (cursor : Cursor) (pieces : List Piece) :
    (ofPieces cursor pieces).Pairwise fun first second => first.stop ≤ second.offset := by
  induction pieces generalizing cursor with
  | nil => exact List.Pairwise.nil
  | cons piece rest ih =>
    rw [ofPieces]
    split
    · refine List.pairwise_cons.mpr ⟨fun token htoken => ?_, ih _⟩
      have hstop := stop_tokenAt piece cursor
      exact hstop ▸ offset_le_of_mem_ofPieces _ rest token htoken
    · exact ih _

end Token

namespace Lexer

/-- The pieces of a text are the text. -/
theorem flatMap_text_pieces (state : State) (cs : List Char) : (pieces state cs).flatMap (·.text) = cs := by
  fun_induction pieces state cs with
  | case1 => rfl
  | case2 state c rest next ih =>
    rw [List.flatMap_cons, ih, List.cons_append, List.take_append_drop]

/-- Every token stands in the text. -/
theorem standsIn_of_mem_tokens {text : String} {token : Token} (h : token ∈ tokens text) :
    token.StandsIn text ∧ token.stop ≤ text.utf8ByteSize := by
  obtain ⟨earlier, piece, later, hpieces, rfl⟩ := Token.exists_piece_of_mem_ofPieces h
  have hpiece : piece.text ≠ [] := by
    apply text_ne_nil_of_mem_pieces {} text.toList
    rw [hpieces]
    simp
  have htext : text.toList = earlier.flatMap (·.text) ++ (piece.text ++ later.flatMap (·.text)) := by
    rw [← flatMap_text_pieces {} text.toList, hpieces, List.flatMap_append, List.flatMap_cons]
  generalize earlier.flatMap (·.text) = before at htext
  have hbytes : utf8Bytes text = before.flatMap String.utf8EncodeChar ++
      (utf8Bytes (String.ofList piece.text) ++ (later.flatMap (·.text)).flatMap String.utf8EncodeChar) := by
    rw [utf8Bytes_eq_flatMap, htext, List.flatMap_append, List.flatMap_append, utf8Bytes_ofList]
  rw [Cursor.advance_eq before rfl, Piece.tokenAt]
  refine ⟨⟨?_, ?_, ?_, ?_⟩, ?_⟩
  · exact fun hempty => hpiece (by simpa using congrArg String.toList hempty)
  · rw [hbytes, List.drop_left, ← length_utf8Bytes, List.take_left]
  · rw [hbytes, List.take_left]
  · rw [hbytes, List.take_left]
  · rw [Token.stop, ← length_utf8Bytes, ← length_utf8Bytes, hbytes, List.length_append, List.length_append]
    simp only
    omega

end Lexer

/-! ### The walk over a parse -/

namespace Parse

/-- Every node extends over its parts. -/
inductive Nested : Parse → Prop
  | leaf (isComment : Bool) (token : Token) : Nested (leaf isComment token)
  | node {first last : Nat} {parts : List Parse}
      (hrange : ∀ part ∈ parts, first ≤ part.first ∧ part.last ≤ last)
      (hparts : ∀ part ∈ parts, Nested part) : Nested (node first last parts)

/-- The leaves that are no comments and cover something, in their order. -/
def tokens : Parse → List Token
  | leaf isComment token => if isComment || token.offset = token.stop then [] else [token]
  | node _ _ parts => parts.flatMap tokens

theorem Nested.bounds {parse : Parse} (h : parse.Nested) :
    ∀ token ∈ parse.tokens,
      parse.first ≤ token.offset ∧ token.offset < token.stop ∧ token.stop ≤ parse.last := by
  induction h with
  | leaf isComment token =>
    intro other hother
    rw [tokens] at hother
    split at hother
    · cases hother
    · rename_i hcovers
      obtain rfl := List.mem_singleton.mp hother
      have hle : other.offset ≤ other.stop := Nat.le_add_right _ _
      have hne : other.offset ≠ other.stop := by
        intro heq
        simp [heq] at hcovers
      exact ⟨Nat.le_refl _, Nat.lt_of_le_of_ne hle hne, Nat.le_refl _⟩
  | @node first last parts hrange _ ih =>
    intro token htoken
    rw [tokens] at htoken
    obtain ⟨part, hpart, hmem⟩ := List.mem_flatMap.mp htoken
    obtain ⟨hfirst, hcovers, hlast⟩ := ih part hpart token hmem
    obtain ⟨hlow, hhigh⟩ := hrange part hpart
    exact ⟨Nat.le_trans hlow hfirst, hcovers, Nat.le_trans hlast hhigh⟩

/-- Passing over the nodes outside a range loses no token in it. -/
theorem Nested.collect_eq_filter {parse : Parse} (h : parse.Nested) (start stop : Nat) :
    parse.collect start stop = parse.tokens.filter (Token.isWithin start stop) := by
  -- what lies outside the range has no token in it
  have hnone : ∀ parse : Parse, parse.Nested → parse.last ≤ start ∨ stop ≤ parse.first →
      parse.tokens.filter (Token.isWithin start stop) = [] := by
    intro parse hparse houtside
    rw [List.filter_eq_nil_iff]
    intro token htoken
    obtain ⟨hfirst, hcovers, hlast⟩ := hparse.bounds token htoken
    simp only [Token.isWithin, Bool.and_eq_true, decide_eq_true_eq]
    omega
  induction h with
  | leaf isComment token =>
    rw [collect]
    split
    · rename_i houtside
      refine (hnone _ (.leaf isComment token) ?_).symm
      simpa [first, last] using houtside
    · rw [tokens]
      cases isComment with
      | true => simp
      | false =>
        by_cases hempty : token.offset = token.stop <;>
          simp [hempty, Token.isWithin, List.filter_cons]
  | @node first last parts hrange hparts ih =>
    rw [collect]
    split
    · rename_i houtside
      refine (hnone _ (.node hrange hparts) ?_).symm
      simpa [Parse.first, Parse.last] using houtside
    · rw [tokens, List.filter_flatMap]
      exact List.flatMap_congr fun part hpart => ih part hpart

end Parse

/-! ### Cutting by a range -/

/-- A range of a text gives the tokens of the whole text that lie in it, and so does the walk over any parse that has
these tokens; the tokens of the whole text stand in it one after the other. -/
structure CutByRange (text : String) (spans : Nat → Nat → List Token) : Prop where
  whole : spans 0 text.utf8ByteSize = Lexer.tokens text
  cut : ∀ start stop, spans start stop =
    (spans 0 text.utf8ByteSize).filter fun token => start ≤ token.offset && token.stop ≤ stop
  empty : ∀ start stop, stop ≤ start → spans start stop = []
  walked : ∀ parse : Parse, parse.Nested → parse.tokens = Lexer.tokens text →
    ∀ start stop, parse.collect start stop = spans start stop
  ascending : (spans 0 text.utf8ByteSize).Pairwise fun first second => first.offset < second.offset
  apart : (spans 0 text.utf8ByteSize).Pairwise fun first second => first.stop ≤ second.offset
  placed : ∀ token ∈ spans 0 text.utf8ByteSize, token.StandsIn text

namespace Lexer

theorem offset_lt_stop_of_mem_tokens {text : String} {token : Token} (h : token ∈ tokens text) :
    token.offset < token.stop := by
  have hne := (standsIn_of_mem_tokens h).1.not_empty
  have hpos : token.text.utf8ByteSize ≠ 0 := fun hzero => hne (String.utf8ByteSize_eq_zero_iff.mp hzero)
  rw [Token.stop]
  omega

/-- An empty range has no token in it either way. -/
theorem within_tokens (text : String) (start stop : Nat) :
    Token.within start stop (tokens text) = (tokens text).filter (Token.isWithin start stop) := by
  rw [Token.within]
  split
  · symm
    rw [List.filter_eq_nil_iff]
    intro token htoken
    have hlt := offset_lt_stop_of_mem_tokens htoken
    simp only [Token.isWithin, Bool.and_eq_true, decide_eq_true_eq]
    omega
  · rfl

theorem within_tokens_whole (text : String) : Token.within 0 text.utf8ByteSize (tokens text) = tokens text := by
  rw [within_tokens, List.filter_eq_self]
  intro token htoken
  simpa [Token.isWithin] using (standsIn_of_mem_tokens htoken).2

end Lexer

namespace Sources

theorem tokens_ofFiles {cwd : Place} {files : FileTable String} {path text : String}
    (h : files.read cwd path = .ok text) : (ofFiles cwd files).tokens path = Lexer.tokens text := by
  rw [tokens, ofFiles, FileTable.read_map, h]
  rfl

/-- The tokens of every file are cut by the bounds of the range. -/
theorem cutByRange_spans (cwd : Place) (files : FileTable String) (path text : String)
    (h : files.read cwd path = .ok text) : CutByRange text ((ofFiles cwd files).spans path) := by
  have hspans : (ofFiles cwd files).spans path = fun start stop => Token.within start stop (Lexer.tokens text) := by
    funext start stop
    rw [spans, tokens_ofFiles h]
  rw [hspans]
  constructor
  · exact Lexer.within_tokens_whole text
  · intro start stop
    simp only [Lexer.within_tokens_whole]
    exact Lexer.within_tokens text start stop
  · exact fun start stop hle => if_pos hle
  · intro parse hparse htokens start stop
    rw [hparse.collect_eq_filter, htokens, Lexer.within_tokens]
  all_goals simp only [Lexer.within_tokens_whole]
  · exact Lexer.pairwise_tokens text
  · exact Token.pairwise_stop_le_ofPieces {} _
  · exact fun token htoken => (Lexer.standsIn_of_mem_tokens htoken).1

/-- A macro, a comment over two lines, template lists that close side by side, characters of two bytes and a raw
string with a newline. -/
def mixedText : String := "#define N 1\n/* é\n*/ A<B<int>> ü = R\"k(é\ny)k\";\n"

def mixedFiles : FileTable String := ⟨[], [(["main.cpp"], mixedText)]⟩

theorem cutByRange_spans_mixedText :
    mixedFiles.read [] "main.cpp" = .ok mixedText ∧
      (ofFiles [] mixedFiles).spans "main.cpp" 28 45 =
        [⟨">", 28, 3, 11⟩, ⟨">", 29, 3, 12⟩, ⟨"ü", 31, 3, 14⟩, ⟨"=", 34, 3, 17⟩,
          ⟨"R\"", 36, 3, 19⟩, ⟨"k", 38, 3, 21⟩, ⟨"(", 39, 3, 22⟩, ⟨"é\ny", 40, 3, 23⟩,
          ⟨")", 44, 4, 2⟩] ∧
      CutByRange mixedText ((ofFiles [] mixedFiles).spans "main.cpp") :=
  ⟨by decide +kernel, by decide +kernel, cutByRange_spans [] mixedFiles "main.cpp" mixedText (by decide +kernel)⟩

end Sources

end UnitFacts
