import UnitFacts.Proofs.Dump.Passes
import UnitFacts.Proofs.Extract.Access
import UnitFacts.Proofs.Source.Tokens

/-!
The tokens of an operator, and its opcode. An operator that was read from source text bears all tokens of its
stretch of source, those of its operands among them; without the text it bears its opcode alone. Most of the time
this makes no difference for the names below it. It does where the tokens of an operand are taken for the operator:
the innermost operator around the name is another one than the tokens suggest, and the name stands in its first
operand. So `x == (y = 2)` counts as a write of `x` where the text can be read, and as a read of it where not.
-/

namespace UnitFacts

/-- Tokens of an operator with this opcode that let it pass for another operator. -/
inductive Misleads (op : String) : NodeKind → List String → Prop
  | assignment {tokens : List String} {token : String} : op ∉ assignmentTokens → token ∈ tokens →
      token ∈ assignmentTokens → Misleads op .binaryOperator tokens
  | increment {tokens : List String} : op ≠ "++" → op ≠ "--" → "++" ∈ tokens ∨ "--" ∈ tokens →
      Misleads op .unaryOperator tokens
  | ampersand {tokens : List String} : op ≠ "++" → op ≠ "--" → op ≠ "&" → "&" ∈ tokens →
      Misleads op .unaryOperator tokens

section Usage

variable {op : String} {tokens : List String}

theorem operandUsage_binary (tokens : List String) :
    operandUsage .binaryOperator tokens =
      if ∃ token ∈ tokens, token ∈ assignmentTokens then .write else .read := by
  simp only [operandUsage, any_isAssignmentToken_iff]

theorem operandUsage_unary (tokens : List String) :
    operandUsage .unaryOperator tokens =
      if "++" ∈ tokens ∨ "--" ∈ tokens then .write else if "&" ∈ tokens then .addr else .read := by
  simp only [operandUsage, any_increment_iff, List.contains_iff_mem]

theorem operandUsage_binary_eq_iff (hop : op ∈ tokens) :
    operandUsage .binaryOperator tokens = operandUsage .binaryOperator [op] ↔
      ¬ Misleads op .binaryOperator tokens := by
  rw [operandUsage_binary, operandUsage_binary [op]]
  by_cases hown : op ∈ assignmentTokens
  · have hread : ¬ Misleads op .binaryOperator tokens := fun h => by
      cases h with
      | assignment hother => exact hother hown
    rw [if_pos ⟨op, hop, hown⟩, if_pos ⟨op, List.mem_singleton_self op, hown⟩]
    exact iff_of_true rfl hread
  · rw [if_neg (show ¬ ∃ token ∈ [op], token ∈ assignmentTokens by simpa using hown)]
    split
    · rename_i hstray
      obtain ⟨token, hmem, htoken⟩ := hstray
      exact iff_of_false nofun fun h => h (.assignment hown hmem htoken)
    · rename_i hnone
      refine iff_of_true rfl fun h => ?_
      cases h with
      | assignment _ hmem htoken => exact hnone ⟨_, hmem, htoken⟩

theorem operandUsage_unary_eq_iff (hop : op ∈ tokens) :
    operandUsage .unaryOperator tokens = operandUsage .unaryOperator [op] ↔ ¬ Misleads op .unaryOperator tokens := by
  rw [operandUsage_unary, operandUsage_unary [op]]
  simp only [List.mem_singleton]
  by_cases hown : "++" = op ∨ "--" = op
  · have hwrites : "++" ∈ tokens ∨ "--" ∈ tokens := by
      rcases hown with rfl | rfl
      · exact Or.inl hop
      · exact Or.inr hop
    rw [if_pos hwrites, if_pos hown]
    refine iff_of_true rfl fun h => ?_
    cases h with
    | increment hne hne' => exact hown.elim (hne ·.symm) (hne' ·.symm)
    | ampersand hne hne' => exact hown.elim (hne ·.symm) (hne' ·.symm)
  · rw [not_or] at hown
    rw [if_neg (not_or.mpr hown)]
    by_cases hstray : "++" ∈ tokens ∨ "--" ∈ tokens
    · rw [if_pos hstray]
      refine iff_of_false ?_ fun h => h (.increment (Ne.symm hown.1) (Ne.symm hown.2) hstray)
      split <;> nofun
    · rw [if_neg hstray]
      by_cases hampersand : "&" = op
      · rw [if_pos (hampersand ▸ hop), if_pos hampersand]
        refine iff_of_true rfl fun h => ?_
        cases h with
        | increment _ _ hincrement => exact hstray hincrement
        | ampersand _ _ hne => exact hne hampersand.symm
      · rw [if_neg hampersand]
        split
        · rename_i hmem
          exact iff_of_false nofun fun h => h (.ampersand (Ne.symm hown.1) (Ne.symm hown.2) (Ne.symm hampersand) hmem)
        · rename_i hmem
          refine iff_of_true rfl fun h => ?_
          cases h with
          | increment _ _ hincrement => exact hstray hincrement
          | ampersand _ _ _ hother => exact hmem hother

/-- The tokens of an operator say the same as its opcode unless they mislead. -/
theorem operandUsage_eq_iff {kind : NodeKind} (hkind : kind = .binaryOperator ∨ kind = .unaryOperator)
    (hop : op ∈ tokens) : operandUsage kind tokens = operandUsage kind [op] ↔ ¬ Misleads op kind tokens := by
  rcases hkind with rfl | rfl
  · exact operandUsage_binary_eq_iff hop
  · exact operandUsage_unary_eq_iff hop

end Usage

namespace Tree

/-- A node is taken to be accessed by another operator than the one it stands below. -/
structure Misread (t : Tree) (v : Visit) (id : NodeId) (kind : NodeKind) (op : String) : Prop where
  innermost : t.InnermostOperation v id kind
  inFirstOperand : t.InFirstOperand id v.node
  misleads : Misleads op kind (t.tokens id)

section SetTokens

variable (t : Tree) (id k : NodeId) (tokens : List String)

theorem kind?_setTokens : (t.setTokens id tokens).kind? k = t.kind? k := by
  rw [kind?_eq_shape, shape?_setTokens, ← kind?_eq_shape]

theorem children_setTokens : (t.setTokens id tokens).children k = t.children k := by
  rw [children_eq_shape, shape?_setTokens, ← children_eq_shape]

theorem tokens_setTokens {id : NodeId} (hid : id < t.size) :
    (t.setTokens id tokens).tokens k = if k = id then tokens else t.tokens k := by
  obtain ⟨n, hn⟩ := exists_node? hid
  rw [setTokens, Tree.tokens, node?_modify]
  by_cases hk : k = id
  · simp [hk, hn]
  · simp [hk, Ne.symm hk, Tree.tokens]

end SetTokens

/-- The opcode alone gives a node the same access as the tokens do unless the node is misread. -/
theorem WellFormed.access_eq_setTokens_iff {t : Tree} (ht : t.WellFormed) {v : Visit}
    (hv : t.RootPath v.node v.path) {id : NodeId} {kind : NodeKind} (hkind : t.kind? id = some kind)
    (hoperator : kind = .binaryOperator ∨ kind = .unaryOperator) {op : String} (hop : op ∈ t.tokens id) :
    t.access v = (t.setTokens id [op]).access v ↔ ¬ t.Misread v id kind op := by
  have hid := lt_size_of_kind? hkind
  have hsettles : (t.setTokens id [op]).kindIn NodeKind.settlesAccess = t.kindIn NodeKind.settlesAccess := by
    funext k
    rw [kindIn, kind?_setTokens, kindIn]
  have hinnermost : ∀ k, ((v.steps.find? fun step => t.kindIn NodeKind.settlesAccess step.1).map (·.1)) = some k ↔
      ∃ kind, t.InnermostOperation v k kind := by
    intro k
    rw [← find?_path_eq_steps v (t.kindIn NodeKind.settlesAccess), find?_settlesAccess_iff]
  rw [access_eq_find?, access_eq_find?, hsettles]
  cases hfind : v.steps.find? fun step => t.kindIn NodeKind.settlesAccess step.1 with
  | none =>
    rw [hfind] at hinnermost
    refine iff_of_true rfl fun h => ?_
    cases (hinnermost id).mpr ⟨kind, h.innermost⟩
  | some step =>
    rw [hfind] at hinnermost
    simp only [Option.map_some, Option.getD_some, Option.some.injEq, usageAt, kind?_setTokens, children_setTokens,
      tokens_setTokens t _ _ hid] at hinnermost ⊢
    by_cases hstep : step.1 = id
    · obtain ⟨other, hother⟩ := (hinnermost id).mp hstep
      obtain rfl : kind = other := Option.some.inj (hkind.symm.trans hother.kind_eq)
      have hfirst := ht.inFirstOperand_iff hv (List.mem_of_find?_eq_some hfind)
      rw [hstep] at hfirst ⊢
      simp only [hkind, Option.map_some, Option.getD_some, if_true]
      split
      · rename_i hhead
        rw [operandUsage_eq_iff hoperator hop, not_iff_not]
        exact ⟨fun h => ⟨hother, hfirst.mpr hhead, h⟩, Misread.misleads⟩
      · rename_i hhead
        exact iff_of_true rfl fun h => hhead (hfirst.mp h.inFirstOperand)
    · rw [if_neg hstep]
      exact iff_of_true rfl fun h => hstep ((hinnermost id).mpr ⟨kind, h.innermost⟩)

end Tree

namespace Dump

open UnitFacts.Tree

/-- An object that is read as a binary or a unary operator with this opcode. -/
structure Entry.IsOperator (e : Entry) (op : String) : Prop where
  role_eq : e.role = .statement
  kind_eq : e.kind = .binaryOperator ∨ e.kind = .unaryOperator
  opcode_eq : e.attrs.opcode = some op

section Unit

variable {ctx : Context} {attrs : Attrs} {inner : List Node} {e : Entry}

/-- A node bears the tokens that were read for its object. -/
theorem tokens_treeOf (messages : Messages) (he : e ∈ unitInventory ctx attrs inner) (hrole : e.role ≠ .unit)
    (hnew : e.isNew = true) : (treeOf ctx messages (.mk attrs inner)).tokens e.node = e.tokens ctx := by
  obtain ⟨parent, scope, hlabel, -⟩ := Entry.stands_of_mem he hrole hnew
  rw [treeOf_eq_treeIn, tokens_eq_unscoped, label?_treeIn,
    label?_linkedIn ctx _ _ (sound_buildRoot ctx (.mk attrs inner)).bounded (lt_size_of_label? hlabel),
    unscoped_linkScopes, hlabel]
  rfl

/-- Without source text an operator bears its opcode. -/
theorem Entry.IsOperator.tokens_eq {op : String} (h : e.IsOperator op) (ctx : Context) :
    e.tokens { ctx with sources := {} } = [op] := by
  have hoperator : isOperator e.kind = true := by
    rcases h.kind_eq with hkind | hkind <;> rw [hkind] <;> rfl
  have hnone : ∀ first last, tokensBetween { ctx with sources := {} } first last = [] := by
    intro first last
    unfold tokensBetween
    split
    · split
      · exact Sources.spans_empty ..
      · rfl
    · rfl
  have hspelled : operatorTokens { ctx with sources := {} } e.attrs (e.cursor.rangeFirst e.attrs)
      (e.cursor.rangeLast e.attrs) = e.attrs.opcode.toList := by
    unfold operatorTokens
    split <;> simp [hnone]
  rw [Entry.tokens, h.role_eq, hoperator, hspelled, h.opcode_eq]
  rfl

end Unit

/-- For the names below an operator its opcode alone says the same as all its tokens from the source, unless they are
misread. -/
theorem importTree?_operatorsRead (ctx : Context) (messages : Messages) (members : List (String × Json))
    (hunit : Json.lookup "kind" members = some (.str unitClass)) :
    ∃ t, importTree? ctx messages (.obj members) = some t ∧
      Holds t (unitInventory ctx (.ofJson (.obj members)) (innerOf members)) ∧
      ∀ e ∈ unitInventory ctx (.ofJson (.obj members)) (innerOf members), ∀ op, e.IsOperator op →
        t.tokens e.node = e.tokens ctx ∧ e.tokens { ctx with sources := {} } = [op] ∧
          (op ∈ e.tokens ctx → ∀ v, t.RootPath v.node v.path →
            (t.access v = (t.setTokens e.node [op]).access v ↔ ¬ t.Misread v e.node e.kind op)) := by
  have hholds := holds_treeOf ctx messages (.ofJson (.obj members)) (innerOf members)
  refine ⟨_, (importTree?_obj ctx messages hunit).2, hholds, fun e he op hoperator => ?_⟩
  have hrole : e.role ≠ .unit ∧ e.isNew = true := by simp [Entry.isNew, hoperator.role_eq]
  have htokens := tokens_treeOf messages he hrole.1 hrole.2
  refine ⟨htokens, hoperator.tokens_eq ctx, fun hop v hv => ?_⟩
  exact (sound_treeOf ctx messages _).wellFormed.access_eq_setTokens_iff hv (hholds.kind?_eq e he) hoperator.kind_eq
    (htokens ▸ hop)

/-- The place of a token in the text below. -/
def tokenAt (offset : Int) : Json :=
  .obj [("file", .str "main.cpp"), ("line", .num (.int 1)), ("col", .num (.int (offset + 1))),
    ("offset", .num (.int offset)), ("tokLen", .num (.int 1))]

/-- The comparison of a variable with the value of an assignment. -/
def comparingUnit : List (String × Json) :=
  [("kind", .str "TranslationUnitDecl"), ("inner", .arr [
    .obj [("kind", .str "VarDecl"), ("id", .str "x"), ("name", .str "x"), ("loc", .obj [])],
    .obj [("kind", .str "VarDecl"), ("id", .str "y"), ("name", .str "y"), ("loc", .obj [])],
    .obj [("kind", .str "FunctionDecl"), ("name", .str "f"), ("loc", .obj []), ("inner", .arr [
      .obj [("kind", .str "CompoundStmt"), ("inner", .arr [
        .obj [("kind", .str "BinaryOperator"), ("opcode", .str "=="),
          ("range", .obj [("begin", tokenAt 0), ("end", tokenAt 11)]), ("inner", .arr [
            .obj [("kind", .str "DeclRefExpr"), ("referencedDecl", .obj [("id", .str "x")])],
            .obj [("kind", .str "ParenExpr"), ("inner", .arr [
              .obj [("kind", .str "BinaryOperator"), ("opcode", .str "="),
                ("range", .obj [("begin", tokenAt 6), ("end", tokenAt 10)]), ("inner", .arr [
                  .obj [("kind", .str "DeclRefExpr"), ("referencedDecl", .obj [("id", .str "y")])],
                  .obj [("kind", .str "IntegerLiteral")]])]])]])]])]])]])]

def comparingContext : Context where
  mainFile := "main.cpp"
  sources := .ofFiles [] ⟨[], [(["main.cpp"], "x == (y = 2);")]⟩

theorem importTree?_operatorsRead_comparingUnit :
    Json.lookup "kind" comparingUnit = some (.str unitClass) ∧
      ∃ t, importTree? comparingContext {} (.obj comparingUnit) = some t ∧
        Holds t (unitInventory comparingContext (.ofJson (.obj comparingUnit)) (innerOf comparingUnit)) ∧
        ∀ e ∈ unitInventory comparingContext (.ofJson (.obj comparingUnit)) (innerOf comparingUnit), ∀ op,
          e.IsOperator op →
          t.tokens e.node = e.tokens comparingContext ∧ e.tokens { comparingContext with sources := {} } = [op] ∧
            (op ∈ e.tokens comparingContext → ∀ v, t.RootPath v.node v.path →
              (t.access v = (t.setTokens e.node [op]).access v ↔ ¬ t.Misread v e.node e.kind op)) :=
  ⟨rfl, importTree?_operatorsRead comparingContext {} comparingUnit rfl⟩

/-- The variable on the left counts as written with the tokens of the comparison, and as read with its opcode. -/
theorem access_comparingUnit :
    ∃ t, importTree? comparingContext {} (.obj comparingUnit) = some t ∧
      ∃ e ∈ unitInventory comparingContext (.ofJson (.obj comparingUnit)) (innerOf comparingUnit),
        e.IsOperator "==" ∧ "==" ∈ e.tokens comparingContext ∧ t.tokens e.node = e.tokens comparingContext ∧
          ∃ v ∈ t.allVisits, e.node ∈ v.path ∧ t.kind? v.node = some .declRefExpr ∧ t.access v = .write ∧
            (t.setTokens e.node ["=="]).access v = .read := by
  have hentry : ∃ e ∈ unitInventory comparingContext (.ofJson (.obj comparingUnit)) (innerOf comparingUnit),
      e.node = 5 ∧ e.role = .statement ∧ e.kind = .binaryOperator ∧ e.attrs.opcode = some "==" ∧
        e.tokens comparingContext = ["x", "==", "(", "y", "=", "2", ")"] := by decide +kernel
  obtain ⟨e, he, hnode, hrole, hkind, hopcode, htokens⟩ := hentry
  have hborne := tokens_treeOf {} he (by simp [hrole]) (by simp [Entry.isNew, hrole])
  refine ⟨_, rfl, e, he, ⟨hrole, Or.inl hkind, hopcode⟩, htokens ▸ by simp, hborne, ⟨6, [5, 4, 3, 0]⟩, ?_⟩
  rw [hnode]
  decide +kernel

end Dump

end UnitFacts
