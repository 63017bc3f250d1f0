import UnitFacts.Proofs.Json.Grammar

/-!
The reader accepts exactly the documents of the grammar, and gives the value that they spell. That what is read
is spelled goes by induction on the fuel. The other way round goes by induction on the grammar: each part is
read where it stands, and the fuel that a document is read with suffices for every part of it.
-/

namespace UnitFacts.Json

/-! ### What is read is spelled -/

/-- Blanks may follow such a text. -/
def Trailed (part : Part) (cs : List Char) : Prop := ∀ blanks, Blanks blanks → Spells part (cs ++ blanks)

theorem Spells.trailed {value : Json} {before cs : List Char} (hbefore : Blanks before)
    (h : Spells (.value value) cs) : Trailed (.element value) (before ++ cs) := by
  intro after hafter
  rw [List.append_assoc]
  exact .element hbefore h hafter

theorem itemValues?_cons_eq_some {w : Written} {ws : List Written} {items : List Json}
    (h : Written.itemValues? (w :: ws) = some items) :
    ∃ item later, w.value? = some item ∧ Written.itemValues? ws = some later ∧ items = item :: later := by
  rw [Written.itemValues?] at h
  split at h
  · cases h
  · rename_i item hitem
    obtain ⟨later, hlater, rfl⟩ := Option.map_eq_some_iff.mp h
    exact ⟨item, later, hitem, hlater, rfl⟩

theorem memberValues?_cons_eq_some {key? : Option String} {w : Written} {entries : List (Option String × Written)}
    {members : List (String × Json)} (h : Written.memberValues? ((key?, w) :: entries) = some members) :
    ∃ key value later, key? = some key ∧ w.value? = some value ∧
      Written.memberValues? entries = some later ∧ members = (key, value) :: later := by
  cases key? with
  | none => cases h
  | some key =>
    rw [Written.memberValues?] at h
    split at h
    · cases h
    · rename_i value hvalue
      obtain ⟨later, hlater, rfl⟩ := Option.map_eq_some_iff.mp h
      exact ⟨key, value, later, rfl, hvalue, hlater, rfl⟩

/-- What is read with some fuel, and has a value, is spelled as the grammar says. -/
structure Recognises (fuel : Nat) : Prop where
  value : ∀ {cs rest w value}, readValue fuel cs = some (w, rest) → w.value? = some value →
    ∃ body, Trailed (.element value) body ∧ cs = body ++ rest
  items : ∀ {cs rest ws front item items}, readItems fuel cs = some (ws, rest) →
    Written.itemValues? ws = some items → Trailed (.element item) front →
    ∃ body, Spells (.items (item :: items)) (front ++ body) ∧ cs = body ++ ']' :: rest
  member : ∀ {cs rest key w value}, readMember fuel cs = some ((some key, w), rest) →
    w.value? = some value → ∃ body, Trailed (.member (key, value)) body ∧ cs = body ++ rest
  members : ∀ {cs rest entries front member members}, readMembers fuel cs = some (entries, rest) →
    Written.memberValues? entries = some members → Trailed (.member member) front →
    ∃ body, Spells (.members (member :: members)) (front ++ body) ∧ cs = body ++ '\x7d' :: rest

namespace Recognises

variable {fuel : Nat}

theorem list (h : Recognises fuel) {cs mid rest : List Char} {w : Written} {ws : List Written} {items : List Json}
    (hitem : readValue fuel cs = some (w, mid)) (hitems : readItems fuel mid = some (ws, rest))
    (hvalues : Written.itemValues? (w :: ws) = some items) :
    ∃ body, Spells (.items items) body ∧ cs = body ++ ']' :: rest := by
  obtain ⟨item, later, hvalue, hlater, rfl⟩ := itemValues?_cons_eq_some hvalues
  obtain ⟨front, hfront, rfl⟩ := h.value hitem hvalue
  obtain ⟨body, hbody, rfl⟩ := h.items hitems hlater hfront
  exact ⟨front ++ body, hbody, (List.append_assoc ..).symm⟩

theorem table (h : Recognises fuel) {cs mid rest : List Char} {entry : Option String × Written}
    {entries : List (Option String × Written)} {members : List (String × Json)}
    (hmember : readMember fuel cs = some (entry, mid)) (hmembers : readMembers fuel mid = some (entries, rest))
    (hvalues : Written.memberValues? (entry :: entries) = some members) :
    ∃ body, Spells (.members members) body ∧ cs = body ++ '\x7d' :: rest := by
  obtain ⟨key?, w⟩ := entry
  obtain ⟨key, value, later, rfl, hvalue, hlater, rfl⟩ := memberValues?_cons_eq_some hvalues
  obtain ⟨front, hfront, rfl⟩ := h.member hmember hvalue
  obtain ⟨body, hbody, rfl⟩ := h.members hmembers hlater hfront
  exact ⟨front ++ body, hbody, (List.append_assoc ..).symm⟩

theorem value_succ (h : Recognises fuel) {cs rest : List Char} {w : Written} {value : Json}
    (hread : readValue (fuel + 1) cs = some (w, rest)) (hvalue : w.value? = some value) :
    ∃ body, Trailed (.element value) body ∧ cs = body ++ rest := by
  obtain ⟨before, hbefore, hcs⟩ := exists_blanks cs
  suffices ∃ body, Spells (.value value) body ∧ skipBlank cs = body ++ rest by
    obtain ⟨body, hbody, heq⟩ := this
    exact ⟨before ++ body, .trailed hbefore hbody, by rw [List.append_assoc, ← heq, ← hcs]⟩
  rw [readValue] at hread
  split at hread
  case h_1 heq =>
    cases hread
    cases hvalue
    exact ⟨_, .null, heq⟩
  case h_2 heq =>
    cases hread
    cases hvalue
    exact ⟨_, .yes, heq⟩
  case h_3 heq =>
    cases hread
    cases hvalue
    exact ⟨_, .no, heq⟩
  case h_4 cs' heq =>
    obtain ⟨⟨text?, r⟩, htext, hpair⟩ := Option.map_eq_some_iff.mp hread
    cases hpair
    obtain ⟨text, rfl, rfl⟩ := Option.map_eq_some_iff.mp hvalue
    obtain ⟨body, hbody, rfl⟩ := quoted_of_readText htext
    refine ⟨'"' :: (body ++ ['"']), ?_, by simp [heq]⟩
    rw [← String.ofList_toList (s := text)]
    exact .str hbody
  case h_5 cs' heq =>
    split at hread
    · rename_i hclose
      obtain ⟨blanks, hblanks, rfl⟩ := exists_blanks_of_skipBlank hclose
      cases hread
      cases hvalue
      exact ⟨_, .emptyArr hblanks, by simp [heq]⟩
    · split at hread
      · cases hread
      · rename_i hitem
        obtain ⟨⟨ws, r⟩, hitems, hpair⟩ := Option.map_eq_some_iff.mp hread
        cases hpair
        obtain ⟨items, hvalues, rfl⟩ := Option.map_eq_some_iff.mp hvalue
        obtain ⟨body, hbody, rfl⟩ := h.list hitem hitems hvalues
        exact ⟨_, .arr hbody, by simp [heq]⟩
  case h_6 cs' heq =>
    split at hread
    · rename_i hclose
      obtain ⟨blanks, hblanks, rfl⟩ := exists_blanks_of_skipBlank hclose
      cases hread
      cases hvalue
      exact ⟨_, .emptyObj hblanks, by simp [heq]⟩
    · split at hread
      · cases hread
      · rename_i hmember
        obtain ⟨⟨ws, r⟩, hmembers, hpair⟩ := Option.map_eq_some_iff.mp hread
        cases hpair
        obtain ⟨members, hvalues, rfl⟩ := Option.map_eq_some_iff.mp hvalue
        obtain ⟨body, hbody, rfl⟩ := h.table hmember hmembers hvalues
        exact ⟨_, .obj hbody, by simp [heq]⟩
  case h_7 cs' _ _ _ _ _ _ =>
    obtain ⟨⟨literal, r⟩, hnumber, hpair⟩ := Option.map_eq_some_iff.mp hread
    cases hpair
    obtain ⟨number, hliteral, rfl⟩ := Option.map_eq_some_iff.mp hvalue
    obtain ⟨body, hbody, hbreak⟩ := signed_of_readNumber hnumber
    exact ⟨body, .num hbody hliteral, hbreak⟩

theorem items_succ (h : Recognises fuel) {cs rest front : List Char} {ws : List Written} {item : Json}
    {items : List Json} (hread : readItems (fuel + 1) cs = some (ws, rest))
    (hvalues : Written.itemValues? ws = some items) (hfront : Trailed (.element item) front) :
    ∃ body, Spells (.items (item :: items)) (front ++ body) ∧ cs = body ++ ']' :: rest := by
  rw [readItems] at hread
  split at hread
  case h_1 heq =>
    obtain ⟨blanks, hblanks, rfl⟩ := exists_blanks_of_skipBlank heq
    cases hread
    cases hvalues
    exact ⟨blanks, .item (hfront blanks hblanks), rfl⟩
  case h_2 heq =>
    obtain ⟨blanks, hblanks, rfl⟩ := exists_blanks_of_skipBlank heq
    split at hread
    · cases hread
    · rename_i hitem
      obtain ⟨⟨later, r⟩, hitems, hpair⟩ := Option.map_eq_some_iff.mp hread
      cases hpair
      obtain ⟨body, hbody, rfl⟩ := h.list hitem hitems hvalues
      refine ⟨blanks ++ ',' :: body, ?_, by simp⟩
      rw [← List.append_assoc]
      exact .items (hfront blanks hblanks) hbody
  case h_3 => cases hread

theorem member_succ (h : Recognises fuel) {cs rest : List Char} {key : String} {w : Written} {value : Json}
    (hread : readMember (fuel + 1) cs = some ((some key, w), rest)) (hvalue : w.value? = some value) :
    ∃ body, Trailed (.member (key, value)) body ∧ cs = body ++ rest := by
  rw [readMember] at hread
  split at hread
  · rename_i heq
    obtain ⟨before, hbefore, rfl⟩ := exists_blanks_of_skipBlank heq
    split at hread
    · cases hread
    · rename_i htext
      split at hread
      · rename_i hcolon
        obtain ⟨after, hafter, rfl⟩ := exists_blanks_of_skipBlank hcolon
        obtain ⟨⟨w', r⟩, helement, hpair⟩ := Option.map_eq_some_iff.mp hread
        cases hpair
        obtain ⟨text, hquoted, rfl⟩ := quoted_of_readText htext
        obtain ⟨body, hbody, rfl⟩ := h.value helement hvalue
        refine ⟨before ++ '"' :: (text ++ '"' :: (after ++ ':' :: body)), fun blanks hblanks => ?_, by simp⟩
        have hmember := Spells.member hbefore hquoted hafter (hbody blanks hblanks)
        simpa using hmember
      · cases hread
  · cases hread

theorem members_succ (h : Recognises fuel) {cs rest front : List Char} {entries : List (Option String × Written)}
    {member : String × Json} {members : List (String × Json)}
    (hread : readMembers (fuel + 1) cs = some (entries, rest))
    (hvalues : Written.memberValues? entries = some members) (hfront : Trailed (.member member) front) :
    ∃ body, Spells (.members (member :: members)) (front ++ body) ∧ cs = body ++ '\x7d' :: rest := by
  rw [readMembers] at hread
  split at hread
  case h_1 heq =>
    obtain ⟨blanks, hblanks, rfl⟩ := exists_blanks_of_skipBlank heq
    cases hread
    cases hvalues
    exact ⟨blanks, .lastMember (hfront blanks hblanks), rfl⟩
  case h_2 heq =>
    obtain ⟨blanks, hblanks, rfl⟩ := exists_blanks_of_skipBlank heq
    split at hread
    · cases hread
    · rename_i hmember
      obtain ⟨⟨later, r⟩, hmembers, hpair⟩ := Option.map_eq_some_iff.mp hread
      cases hpair
      obtain ⟨body, hbody, rfl⟩ := h.table hmember hmembers hvalues
      refine ⟨blanks ++ ',' :: body, ?_, by simp⟩
      rw [← List.append_assoc]
      exact .members (hfront blanks hblanks) hbody
  case h_3 => cases hread

end Recognises

theorem recognises (fuel : Nat) : Recognises fuel := by
  induction fuel with
  | zero => constructor <;> simp [readValue, readItems, readMember, readMembers]
  | succ fuel ih => exact ⟨ih.value_succ, ih.items_succ, ih.member_succ, ih.members_succ⟩

theorem spells_of_parse? {text : String} {value : Json} (h : parse? text = some value) :
    Spells (.element value) text.toList := by
  obtain ⟨w, hw, hvalue⟩ := Option.bind_eq_some_iff.mp h
  rw [Written.parse?] at hw
  split at hw
  · rename_i rest hread
    split at hw
    · rename_i hempty
      cases hw
      obtain ⟨blanks, hblanks, rfl⟩ := exists_blanks_of_skipBlank (List.isEmpty_iff.mp hempty)
      obtain ⟨body, hbody, heq⟩ := (recognises _).value hread hvalue
      rw [heq, List.append_nil]
      exact hbody blanks hblanks
    · cases hw
  · cases hw

/-! ### What is spelled is read -/

theorem readItems_congr {cs cs' : List Char} (h : skipBlank cs = skipBlank cs') (fuel : Nat) :
    readItems fuel cs = readItems fuel cs' := by
  cases fuel with
  | zero => rw [readItems, readItems]
  | succ fuel => rw [readItems, readItems, h]

theorem readMembers_congr {cs cs' : List Char} (h : skipBlank cs = skipBlank cs') (fuel : Nat) :
    readMembers fuel cs = readMembers fuel cs' := by
  cases fuel with
  | zero => rw [readMembers, readMembers]
  | succ fuel => rw [readMembers, readMembers, h]

/-- No value starts with a closing bracket. -/
theorem skipBlank_ne_of_readValue {fuel : Nat} {cs rest : List Char} {w : Written}
    (h : readValue fuel cs = some (w, rest)) (after : List Char) : skipBlank cs ≠ ']' :: after := by
  intro heq
  cases fuel with
  | zero => simp [readValue] at h
  | succ fuel => simp [readValue, heq, readNumber, readUnsigned, readWhole] at h

theorem skipBlank_ne_of_readMember {fuel : Nat} {cs rest : List Char} {entry : Option String × Written}
    (h : readMember fuel cs = some (entry, rest)) (after : List Char) : skipBlank cs ≠ '\x7d' :: after := by
  intro heq
  cases fuel with
  | zero => simp [readMember] at h
  | succ fuel => simp [readMember, heq] at h

theorem EndsNumber.blanks_append {blanks rest : List Char} (hrest : EndsNumber rest) (h : Blanks blanks) :
    EndsNumber (blanks ++ rest) := by
  cases blanks with
  | nil => exact hrest
  | cons c cs =>
    rintro d ⟨⟩
    rcases h c List.mem_cons_self with rfl | rfl | rfl | rfl <;> decide

/-- How a part of a document is read where it stands before `rest`, with fuel for every character. An element
or a member is read but for its last blanks; of items and members the first one is read and then the others. -/
def IsRead : Part → List Char → Prop
  | .value value, cs => ∀ fuel rest, EndsNumber rest → (cs ++ rest).length ≤ fuel →
      readValue fuel (cs ++ rest) = some (value.written, rest)
  | .element value, cs => ∀ fuel rest, EndsNumber rest → (cs ++ rest).length ≤ fuel →
      ∃ left, readValue fuel (cs ++ rest) = some (value.written, left) ∧ skipBlank left = skipBlank rest
  | .items items, cs => ∀ fuel rest, (cs ++ ']' :: rest).length ≤ fuel →
      ∃ w ws left, writtenItems items = w :: ws ∧ readValue fuel (cs ++ ']' :: rest) = some (w, left) ∧
        readItems fuel left = some (ws, rest)
  | .member (key, value), cs => ∀ fuel rest, EndsNumber rest → (cs ++ rest).length ≤ fuel →
      ∃ left, readMember fuel (cs ++ rest) = some ((some key, value.written), left) ∧
        skipBlank left = skipBlank rest
  | .members members, cs => ∀ fuel rest, (cs ++ '\x7d' :: rest).length ≤ fuel →
      ∃ entry entries left, writtenMembers members = entry :: entries ∧
        readMember fuel (cs ++ '\x7d' :: rest) = some (entry, left) ∧
        readMembers fuel left = some (entries, rest)

/-- A value is read with one unit of fuel for its first character. -/
theorem isRead_of_succ {value : Json} {c : Char} {cs : List Char}
    (h : ∀ fuel rest, EndsNumber rest → (cs ++ rest).length ≤ fuel →
      readValue (fuel + 1) (c :: (cs ++ rest)) = some (value.written, rest)) : IsRead (.value value) (c :: cs) := by
  intro fuel rest hrest hfuel
  rw [List.cons_append, List.length_cons] at hfuel
  cases fuel with
  | zero => omega
  | succ fuel => exact h fuel rest hrest (Nat.le_of_succ_le_succ hfuel)

theorem isRead_num {cs : List Char} {literal : Number.Literal} {number : Number} (h : Signed cs literal)
    (hnumber : Number.ofLiteral? literal = some number) : IsRead (.value (.num number)) cs := by
  have hread : ∀ rest, EndsNumber rest → readNumber (cs ++ rest) = some (literal, rest) :=
    fun rest hrest => h.readNumber_append hrest
  obtain ⟨c, cs, rfl, hstart⟩ := h.exists_cons
  apply isRead_of_succ
  intro fuel rest hrest _
  rw [readValue_number hstart, ← List.cons_append, hread rest hrest, written, ← hnumber]
  rfl

theorem isRead_str {cs text : List Char} (h : Quoted cs text) :
    IsRead (.value (.str (String.ofList text))) ('"' :: (cs ++ ['"'])) := by
  apply isRead_of_succ
  intro fuel rest _ _
  rw [readValue, skipBlank_cons rfl, written]
  simp [h.readText_append]

theorem isRead_emptyArr {blanks : List Char} (h : Blanks blanks) :
    IsRead (.value (.arr [])) ('[' :: (blanks ++ [']'])) := by
  apply isRead_of_succ
  intro fuel rest _ _
  rw [readValue, skipBlank_cons rfl, written, writtenItems, List.append_assoc]
  simp [skipBlank_append h, skipBlank_cons (show isBlank ']' = false from rfl)]

theorem isRead_arr {items : List Json} {cs : List Char} (h : IsRead (.items items) cs) :
    IsRead (.value (.arr items)) ('[' :: (cs ++ [']'])) := by
  apply isRead_of_succ
  intro fuel rest _ hfuel
  rw [List.append_assoc] at hfuel ⊢
  obtain ⟨w, ws, left, hwritten, hitem, hitems⟩ := h fuel rest hfuel
  rw [written, hwritten]
  exact readValue_bracket (skipBlank_ne_of_readValue hitem) hitem hitems

theorem isRead_emptyObj {blanks : List Char} (h : Blanks blanks) :
    IsRead (.value (.obj [])) ('\x7b' :: (blanks ++ ['\x7d'])) := by
  apply isRead_of_succ
  intro fuel rest _ _
  rw [readValue, skipBlank_cons rfl, written, writtenMembers, List.append_assoc]
  simp [skipBlank_append h, skipBlank_cons (show isBlank '\x7d' = false from rfl)]

theorem isRead_obj {members : List (String × Json)} {cs : List Char} (h : IsRead (.members members) cs) :
    IsRead (.value (.obj members)) ('\x7b' :: (cs ++ ['\x7d'])) := by
  apply isRead_of_succ
  intro fuel rest _ hfuel
  rw [List.append_assoc] at hfuel ⊢
  obtain ⟨entry, entries, left, hwritten, hmember, hmembers⟩ := h fuel rest hfuel
  rw [written, hwritten]
  exact readValue_brace (skipBlank_ne_of_readMember hmember) hmember hmembers

theorem isRead_element {value : Json} {before cs after : List Char} (hbefore : Blanks before)
    (h : IsRead (.value value) cs) (hafter : Blanks after) :
    IsRead (.element value) (before ++ (cs ++ after)) := by
  intro fuel rest hrest hfuel
  rw [List.append_assoc, List.append_assoc] at hfuel ⊢
  rw [List.length_append] at hfuel
  refine ⟨after ++ rest, ?_, skipBlank_append hafter rest⟩
  rw [readValue_congr (skipBlank_append hbefore _)]
  exact h fuel (after ++ rest) (hrest.blanks_append hafter) (by omega)

theorem isRead_item {value : Json} {cs : List Char} (h : IsRead (.element value) cs) :
    IsRead (.items [value]) cs := by
  intro fuel rest hfuel
  obtain ⟨left, hread, hleft⟩ := h fuel (']' :: rest) (by simp [EndsNumber]) hfuel
  refine ⟨value.written, [], left, rfl, hread, ?_⟩
  rw [readItems_congr hleft]
  cases fuel with
  | zero => simp at hfuel
  | succ fuel =>
    rw [readItems, skipBlank_cons rfl]
    rfl

theorem isRead_items {value : Json} {items : List Json} {cs rest : List Char} (h : IsRead (.element value) cs)
    (hitems : IsRead (.items items) rest) : IsRead (.items (value :: items)) (cs ++ ',' :: rest) := by
  intro fuel tail hfuel
  rw [List.append_assoc, List.cons_append] at hfuel ⊢
  obtain ⟨left, hread, hleft⟩ := h fuel (',' :: (rest ++ ']' :: tail)) (by simp [EndsNumber]) hfuel
  refine ⟨value.written, writtenItems items, left, by rw [writtenItems], hread, ?_⟩
  rw [readItems_congr hleft]
  cases fuel with
  | zero => simp at hfuel
  | succ fuel =>
    rw [List.length_append, List.length_cons] at hfuel
    obtain ⟨w, ws, mid, hwritten, hfirst, hlater⟩ := hitems fuel tail (by omega)
    rw [readItems, skipBlank_cons rfl, hwritten]
    simp [hfirst, hlater]

theorem isRead_member {key before text after cs : List Char} {value : Json} (hbefore : Blanks before)
    (hkey : Quoted text key) (hafter : Blanks after) (h : IsRead (.element value) cs) :
    IsRead (.member (String.ofList key, value)) (before ++ '"' :: (text ++ '"' :: (after ++ ':' :: cs))) := by
  intro fuel rest hrest hfuel
  have hassoc : before ++ '"' :: (text ++ '"' :: (after ++ ':' :: cs)) ++ rest =
      before ++ '"' :: (text ++ '"' :: (after ++ ':' :: (cs ++ rest))) := by simp
  rw [hassoc] at hfuel ⊢
  simp only [List.length_append, List.length_cons] at hfuel
  cases fuel with
  | zero => omega
  | succ fuel =>
    obtain ⟨left, hread, hleft⟩ := h fuel rest hrest (by rw [List.length_append]; omega)
    refine ⟨left, ?_, hleft⟩
    rw [readMember, skipBlank_append hbefore, skipBlank_cons rfl]
    simp only [hkey.readText_append, skipBlank_append hafter, skipBlank_cons (show isBlank ':' = false from rfl),
      hread, Option.map_some]

theorem isRead_lastMember {member : String × Json} {cs : List Char} (h : IsRead (.member member) cs) :
    IsRead (.members [member]) cs := by
  intro fuel rest hfuel
  obtain ⟨left, hread, hleft⟩ := h fuel ('\x7d' :: rest) (by simp [EndsNumber]) hfuel
  refine ⟨_, [], left, by rw [writtenMembers, writtenMembers], hread, ?_⟩
  rw [readMembers_congr hleft]
  cases fuel with
  | zero => simp at hfuel
  | succ fuel =>
    rw [readMembers, skipBlank_cons rfl]
    rfl

theorem isRead_members {member : String × Json} {members : List (String × Json)} {cs rest : List Char}
    (h : IsRead (.member member) cs) (hmembers : IsRead (.members members) rest) :
    IsRead (.members (member :: members)) (cs ++ ',' :: rest) := by
  intro fuel tail hfuel
  rw [List.append_assoc, List.cons_append] at hfuel ⊢
  obtain ⟨left, hread, hleft⟩ := h fuel (',' :: (rest ++ '\x7d' :: tail)) (by simp [EndsNumber]) hfuel
  refine ⟨_, writtenMembers members, left, by rw [writtenMembers], hread, ?_⟩
  rw [readMembers_congr hleft]
  cases fuel with
  | zero => simp at hfuel
  | succ fuel =>
    rw [List.length_append, List.length_cons] at hfuel
    obtain ⟨entry, entries, mid, hwritten, hfirst, hlater⟩ := hmembers fuel tail (by omega)
    rw [readMembers, skipBlank_cons rfl, hwritten]
    simp [hfirst, hlater]

theorem Spells.isRead {part : Part} {cs : List Char} (h : Spells part cs) : IsRead part cs := by
  induction h with
  | null => exact isRead_of_succ fun fuel rest _ _ => by rw [readValue, skipBlank_cons rfl, written]; rfl
  | yes => exact isRead_of_succ fun fuel rest _ _ => by rw [readValue, skipBlank_cons rfl, written]; rfl
  | no => exact isRead_of_succ fun fuel rest _ _ => by rw [readValue, skipBlank_cons rfl, written]; rfl
  | num hsigned hnumber => exact isRead_num hsigned hnumber
  | str hquoted => exact isRead_str hquoted
  | emptyArr hblanks => exact isRead_emptyArr hblanks
  | arr _ ih => exact isRead_arr ih
  | emptyObj hblanks => exact isRead_emptyObj hblanks
  | obj _ ih => exact isRead_obj ih
  | element hbefore _ hafter ih => exact isRead_element hbefore ih hafter
  | item _ ih => exact isRead_item ih
  | items _ _ ih ihitems => exact isRead_items ih ihitems
  | member hbefore hkey hafter _ ih => exact isRead_member hbefore hkey hafter ih
  | lastMember _ ih => exact isRead_lastMember ih
  | members _ _ ih ihmembers => exact isRead_members ih ihmembers

/-- The reader accepts exactly the documents of the grammar, each as the value it spells. -/
theorem parse?_eq_some_iff (text : String) (value : Json) :
    parse? text = some value ↔ Spells (.element value) text.toList := by
  refine ⟨spells_of_parse?, fun h => ?_⟩
  obtain ⟨left, hread, hleft⟩ := h.isRead (2 * text.toList.length + 2) [] (by simp [EndsNumber])
    (by rw [List.append_nil]; omega)
  rw [List.append_nil] at hread
  have hempty : skipBlank left = [] := hleft
  rw [parse?, Written.parse?, hread]
  simp [hempty, value?_written]

end UnitFacts.Json
