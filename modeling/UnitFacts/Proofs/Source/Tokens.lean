import Mathlib.Data.List.Nodup
import UnitFacts.Proofs.Files
import UnitFacts.Source.Sources

/-!
Where tokens stand. No piece of a text is empty, so the tokens of a file stand at increasing offsets, and a
token of a file is known by its offset.
-/

namespace UnitFacts

namespace Cursor

theorem offset_lt_step (cursor : Cursor) (c : Char) : cursor.offset < (cursor.step c).offset := by
  have hpos := c.utf8Size_pos
  unfold step
  split
  · exact Nat.lt_add_of_pos_right hpos
  · exact Nat.lt_add_of_pos_right hpos

theorem offset_le_advance (cursor : Cursor) (cs : List Char) : cursor.offset ≤ (cursor.advance cs).offset := by
  induction cs generalizing cursor with
  | nil => exact Nat.le_refl _
  | cons c rest ih => exact Nat.le_trans (Nat.le_of_lt (cursor.offset_lt_step c)) (ih (cursor.step c))

theorem offset_lt_advance (cursor : Cursor) {cs : List Char} (h : cs ≠ []) :
    cursor.offset < (cursor.advance cs).offset := by
  cases cs with
  | nil => exact absurd rfl h
  | cons c rest => exact Nat.lt_of_lt_of_le (cursor.offset_lt_step c) (offset_le_advance (cursor.step c) rest)

end Cursor

namespace Token

/-- One token stands before another. -/
def Precedes (first second : Token) : Prop := first.offset < second.offset

/-- No two of these tokens stand at one offset. -/
def Apart (tokens : List Token) : Prop :=
  ∀ token ∈ tokens, ∀ other ∈ tokens, other.offset = token.offset → other = token

theorem offset_le_of_mem_ofPieces (cursor : Cursor) (pieces : List Piece) :
    ∀ token ∈ ofPieces cursor pieces, cursor.offset ≤ token.offset := by
  induction pieces generalizing cursor with
  | nil => simp [ofPieces]
  | cons piece rest ih =>
    intro token htoken
    have hrest : token ∈ ofPieces (cursor.advance piece.text) rest → cursor.offset ≤ token.offset :=
      fun h => Nat.le_trans (cursor.offset_le_advance piece.text) (ih _ token h)
    rw [ofPieces] at htoken
    split at htoken
    · rcases List.mem_cons.mp htoken with rfl | h
      · exact Nat.le_refl _
      · exact hrest h
    · exact hrest htoken

theorem pairwise_ofPieces (cursor : Cursor) {pieces : List Piece} (h : ∀ piece ∈ pieces, piece.text ≠ []) :
    (ofPieces cursor pieces).Pairwise Precedes := by
  induction pieces generalizing cursor with
  | nil => exact List.Pairwise.nil
  | cons piece rest ih =>
    obtain ⟨hpiece, hrest⟩ := List.forall_mem_cons.mp h
    rw [ofPieces]
    split
    · refine List.pairwise_cons.mpr ⟨fun token htoken => ?_, ih _ hrest⟩
      exact Nat.lt_of_lt_of_le (cursor.offset_lt_advance hpiece) (offset_le_of_mem_ofPieces _ rest token htoken)
    · exact ih _ hrest

end Token

namespace Lexer

theorem text_ne_nil_of_mem_pieces (state : State) (cs : List Char) :
    ∀ piece ∈ pieces state cs, piece.text ≠ [] := by
  fun_induction pieces state cs with
  | case1 => simp
  | case2 state c rest next ih =>
    rw [List.forall_mem_cons]
    exact ⟨by simp, ih⟩

theorem pairwise_tokens (text : String) : (tokens text).Pairwise Token.Precedes :=
  Token.pairwise_ofPieces {} (text_ne_nil_of_mem_pieces {} text.toList)

end Lexer

namespace FileTable

theorem exists_entry_of_read {α : Type} {table : FileTable α} {cwd : Place} {path : String} {content : α}
    (h : table.read cwd path = .ok content) : ∃ place, (place, content) ∈ table.files := by
  obtain ⟨place, -, hfound⟩ := ok_of_bind h
  refine ⟨place, ?_⟩
  split at hfound
  · rename_i found hfile
    cases hfound
    obtain ⟨before, after, hfiles, -⟩ := List.lookup_eq_some_iff.mp hfile
    simp [hfiles]
  · split at hfound <;> cases hfound

end FileTable

namespace Sources

/-- Where there are no files there are no tokens. -/
theorem spans_empty (path : String) (start stop : Nat) : ({} : Sources).spans path start stop = [] := by
  have htokens : ({} : Sources).tokens path = [] := by
    unfold tokens
    split
    · rename_i found hread
      obtain ⟨place, hmem⟩ := FileTable.exists_entry_of_read hread
      cases hmem
    · rfl
  rw [spans, htokens, Token.within]
  split <;> rfl

/-- The tokens of a file stand one after the other. -/
theorem pairwise_tokens_ofFiles (cwd : Place) (files : FileTable String) (path : String) :
    ((ofFiles cwd files).tokens path).Pairwise Token.Precedes := by
  unfold tokens
  split
  · rename_i found hread
    obtain ⟨place, hmem⟩ := FileTable.exists_entry_of_read hread
    obtain ⟨entry, -, heq⟩ := List.mem_map.mp hmem
    cases heq
    exact Lexer.pairwise_tokens entry.2
  · exact List.Pairwise.nil

theorem apart_spans_ofFiles (cwd : Place) (files : FileTable String) (path : String) (start stop : Nat) :
    Token.Apart ((ofFiles cwd files).spans path start stop) := by
  have hmem : ∀ token ∈ (ofFiles cwd files).spans path start stop, token ∈ (ofFiles cwd files).tokens path := by
    intro token htoken
    unfold spans Token.within at htoken
    split at htoken
    · cases htoken
    · exact (List.mem_filter.mp htoken).1
  have hnodup : (((ofFiles cwd files).tokens path).map Token.offset).Nodup :=
    List.pairwise_map.mpr ((pairwise_tokens_ofFiles cwd files path).imp Nat.ne_of_lt)
  exact fun token htoken other hother => List.inj_on_of_nodup_map hnodup (hmem other hother) (hmem token htoken)

end Sources

end UnitFacts
