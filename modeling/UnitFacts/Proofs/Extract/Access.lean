import UnitFacts.Proofs.Extract.References

/-!
How a name is accessed. Of all that stands around a name only the innermost operator or call matters, and of
that only its kind, its tokens and whether the name stands anywhere in the subtree of its first operand. The
search outwards compares a single child on the way; in a well-formed tree that child is the first operand
exactly if the name lies in the subtree of the first operand.
-/

namespace UnitFacts

/-- Kinds of nodes at which the search outwards ends. -/
def operationKinds : List NodeKind := [.compoundAssignOperator, .binaryOperator, .unaryOperator, .callExpr]

/-- An operator of this kind with these tokens writes its first operand. -/
inductive WritesOperand : NodeKind → List String → Prop
  | compound {tokens : List String} : WritesOperand .compoundAssignOperator tokens
  | assignment {tokens : List String} {token : String} : token ∈ tokens → token ∈ assignmentTokens →
      WritesOperand .binaryOperator tokens
  | increment {tokens : List String} : "++" ∈ tokens ∨ "--" ∈ tokens → WritesOperand .unaryOperator tokens

/-- An operator of this kind with these tokens takes the address of its first operand. -/
structure TakesAddress (kind : NodeKind) (tokens : List String) : Prop where
  unary : kind = .unaryOperator
  ampersand : "&" ∈ tokens
  no_increment : "++" ∉ tokens
  no_decrement : "--" ∉ tokens

theorem mem_operationKinds_iff (kind : NodeKind) : kind ∈ operationKinds ↔ kind.settlesAccess = true := by
  cases kind <;> decide

theorem WritesOperand.not_takesAddress {kind : NodeKind} {tokens : List String}
    (h : WritesOperand kind tokens) : ¬ TakesAddress kind tokens := by
  intro haddr
  cases h with
  | compound => cases haddr.unary
  | assignment => cases haddr.unary
  | increment htoken => exact htoken.elim haddr.no_increment haddr.no_decrement

theorem any_isAssignmentToken_iff (tokens : List String) :
    tokens.any isAssignmentToken = true ↔ ∃ token ∈ tokens, token ∈ assignmentTokens := by
  simp [isAssignmentToken]

theorem any_increment_iff (tokens : List String) :
    (tokens.any fun token => token = "++" || token = "--") = true ↔ "++" ∈ tokens ∨ "--" ∈ tokens := by
  simp only [List.any_eq_true, Bool.or_eq_true, decide_eq_true_eq]
  constructor
  · intro h
    obtain ⟨token, hmem, heq | heq⟩ := h
    · exact Or.inl (heq ▸ hmem)
    · exact Or.inr (heq ▸ hmem)
  · intro h
    obtain hmem | hmem := h
    · exact ⟨"++", hmem, Or.inl rfl⟩
    · exact ⟨"--", hmem, Or.inr rfl⟩

/-- What an operator does to its first operand: it is written, or its address is taken, or it is read. -/
theorem operandUsage_cases (kind : NodeKind) (tokens : List String) :
    (WritesOperand kind tokens ∧ operandUsage kind tokens = .write) ∨
      (TakesAddress kind tokens ∧ operandUsage kind tokens = .addr) ∨
      ((¬ WritesOperand kind tokens ∧ ¬ TakesAddress kind tokens) ∧ operandUsage kind tokens = .read) := by
  unfold operandUsage
  split
  · exact Or.inl ⟨.compound, rfl⟩
  · split
    · rename_i hassign
      obtain ⟨token, hmem, htoken⟩ := (any_isAssignmentToken_iff tokens).mp hassign
      exact Or.inl ⟨.assignment hmem htoken, rfl⟩
    · rename_i hassign
      refine Or.inr (Or.inr ⟨⟨?_, fun haddr => by cases haddr.unary⟩, rfl⟩)
      intro hwrites
      cases hwrites with
      | @assignment _ token hmem htoken =>
        exact hassign ((any_isAssignmentToken_iff tokens).mpr ⟨token, hmem, htoken⟩)
  · split
    · rename_i hincrement
      exact Or.inl ⟨.increment ((any_increment_iff tokens).mp hincrement), rfl⟩
    · rename_i hincrement
      rw [any_increment_iff, not_or] at hincrement
      have hread : ¬ WritesOperand .unaryOperator tokens := by
        intro hwrites
        cases hwrites with
        | increment htoken => exact htoken.elim hincrement.1 hincrement.2
      split
      · rename_i hampersand
        have hmem : "&" ∈ tokens := by simpa using hampersand
        exact Or.inr (Or.inl ⟨⟨rfl, hmem, hincrement.1, hincrement.2⟩, rfl⟩)
      · rename_i hampersand
        refine Or.inr (Or.inr ⟨⟨hread, ?_⟩, rfl⟩)
        intro haddr
        exact hampersand (by simpa using haddr.ampersand)
  · rename_i hcompound hbinary hunary
    refine Or.inr (Or.inr ⟨⟨?_, fun haddr => hunary haddr.unary⟩, rfl⟩)
    intro hwrites
    cases hwrites with
    | compound => exact hcompound rfl
    | assignment => exact hbinary rfl
    | increment => exact hunary rfl

namespace Tree

/-- The innermost operator or call around the visited node, and its kind. -/
structure InnermostOperation (t : Tree) (v : Visit) (id : NodeId) (kind : NodeKind) : Prop where
  kind_eq : t.kind? id = some kind
  kind_mem : kind ∈ operationKinds
  innermost : ∃ inner outer, v.path = inner ++ id :: outer ∧
    ∀ passed ∈ inner, ∀ other, t.kind? passed = some other → other ∉ operationKinds

/-- The node stands in the subtree of the first operand. -/
def InFirstOperand (t : Tree) (operation id : NodeId) : Prop :=
  ∃ first, (t.children operation).head? = some first ∧ t.Below first id

/-- The access of a visited node, told by the innermost operator or call around it. -/
inductive Accesses (t : Tree) (v : Visit) : Usage → Prop
  | write {id : NodeId} {kind : NodeKind} : t.InnermostOperation v id kind → t.InFirstOperand id v.node →
      WritesOperand kind (t.tokens id) → Accesses t v .write
  | addr {id : NodeId} {kind : NodeKind} : t.InnermostOperation v id kind → t.InFirstOperand id v.node →
      TakesAddress kind (t.tokens id) → Accesses t v .addr
  | read : (∀ id kind, t.InnermostOperation v id kind → t.InFirstOperand id v.node →
      ¬ WritesOperand kind (t.tokens id) ∧ ¬ TakesAddress kind (t.tokens id)) → Accesses t v .read

/-- The access of every node below the root is decided by the innermost operator or call around it, and by
nothing else in this tree or any other. -/
structure AccessDecided (t : Tree) : Prop where
  access_iff : ∀ v, t.RootPath v.node v.path → ∀ usage, t.access v = usage ↔ t.Accesses v usage
  one_operation : ∀ v a b kind other, t.InnermostOperation v a kind → t.InnermostOperation v b other →
    a = b ∧ kind = other
  no_operation : ∀ v, t.RootPath v.node v.path → (∀ id kind, ¬ t.InnermostOperation v id kind) →
    t.access v = .read
  only : ∀ t' : Tree, t'.check = .ok () → ∀ v v' id id' kind, t.RootPath v.node v.path →
    t'.RootPath v'.node v'.path → t.InnermostOperation v id kind → t'.InnermostOperation v' id' kind →
    t.tokens id = t'.tokens id' → (t.InFirstOperand id v.node ↔ t'.InFirstOperand id' v'.node) →
    t.access v = t'.access v'

variable {t : Tree}

/-! ### The innermost operation -/

theorem find?_settlesAccess_iff (v : Visit) (id : NodeId) :
    v.path.find? (t.kindIn NodeKind.settlesAccess) = some id ↔ ∃ kind, t.InnermostOperation v id kind := by
  have hkind : ∀ k, t.kindIn NodeKind.settlesAccess k = true ↔
      ∃ kind, t.kind? k = some kind ∧ kind ∈ operationKinds := by
    intro k
    simp only [kindIn, Option.any_eq_true, mem_operationKinds_iff]
  rw [List.find?_eq_some_iff_append, hkind]
  constructor
  · intro h
    obtain ⟨⟨kind, hid, hmem⟩, inner, outer, hpath, hinner⟩ := h
    refine ⟨kind, hid, hmem, inner, outer, hpath, ?_⟩
    intro passed hpassed other hother hin
    have hno := hinner passed hpassed
    rw [(hkind passed).mpr ⟨other, hother, hin⟩] at hno
    cases hno
  · intro h
    obtain ⟨kind, hid, hmem, inner, outer, hpath, hinner⟩ := h
    refine ⟨⟨kind, hid, hmem⟩, inner, outer, hpath, ?_⟩
    intro passed hpassed
    rw [Bool.not_eq_true', Bool.eq_false_iff, Ne, hkind]
    intro hyes
    obtain ⟨other, hother, hin⟩ := hyes
    exact hinner passed hpassed other hother hin

theorem InnermostOperation.unique {v : Visit} {a b : NodeId} {kind other : NodeKind}
    (h : t.InnermostOperation v a kind) (h' : t.InnermostOperation v b other) : a = b ∧ kind = other := by
  have ha := (find?_settlesAccess_iff v a).mpr ⟨kind, h⟩
  have hb := (find?_settlesAccess_iff v b).mpr ⟨other, h'⟩
  obtain rfl : a = b := Option.some.inj (ha.symm.trans hb)
  exact ⟨rfl, Option.some.inj (h.kind_eq.symm.trans h'.kind_eq)⟩

theorem Accesses.unique {v : Visit} {usage other : Usage} (h : t.Accesses v usage) (h' : t.Accesses v other) :
    usage = other := by
  cases h with
  | write hop hfirst hwrites =>
    cases h' with
    | write => rfl
    | addr hop' _ haddr =>
      obtain ⟨rfl, rfl⟩ := hop.unique hop'
      exact absurd haddr hwrites.not_takesAddress
    | read hread => exact absurd hwrites (hread _ _ hop hfirst).1
  | addr hop hfirst haddr =>
    cases h' with
    | write hop' _ hwrites =>
      obtain ⟨rfl, rfl⟩ := hop.unique hop'
      exact absurd haddr hwrites.not_takesAddress
    | addr => rfl
    | read hread => exact absurd haddr (hread _ _ hop hfirst).2
  | read hread =>
    cases h' with
    | write hop hfirst hwrites => exact absurd hwrites (hread _ _ hop hfirst).1
    | addr hop hfirst haddr => exact absurd haddr (hread _ _ hop hfirst).2
    | read => rfl

/-! ### The search outwards -/

/-- What the search concludes where it ends. -/
def usageAt (t : Tree) (operation child : NodeId) : Usage :=
  if (t.children operation).head? = some child then
    ((t.kind? operation).map fun kind => operandUsage kind (t.tokens operation)).getD .read
  else .read

/-- No transparent kind settles how a name is accessed. -/
theorem not_isTransparent_of_settlesAccess {kind : NodeKind} (h : kind.settlesAccess = true) :
    kind.isTransparent = false := by
  unfold NodeKind.settlesAccess at h
  split at h
  · rfl
  · rfl
  · rfl
  · rfl
  · cases h

/-- Passing over the transparent ancestors changes nothing. -/
theorem accessAt?_eq_guard (operation child : NodeId) :
    t.accessAt? operation child =
      if t.kindIn NodeKind.settlesAccess operation then some (t.usageAt operation child) else none := by
  rw [accessAt?, usageAt, kindIn]
  cases t.kind? operation with
  | none => simp
  | some kind =>
    cases hsettles : kind.settlesAccess with
    | false => simp [hsettles]
    | true =>
      have hopaque := not_isTransparent_of_settlesAccess hsettles
      by_cases hfirst : (t.children operation).head? = some child <;> simp [hsettles, hopaque, hfirst]

theorem access_eq_find? (v : Visit) :
    t.access v = ((v.steps.find? fun step => t.kindIn NodeKind.settlesAccess step.1).map
      fun step => t.usageAt step.1 step.2).getD .read := by
  unfold access
  congr 1
  induction v.steps with
  | nil => rfl
  | cons step rest ih =>
    obtain ⟨operation, child⟩ := step
    rw [List.findSome?_cons, List.find?_cons, ih]
    simp only [accessAt?_eq_guard]
    cases t.kindIn NodeKind.settlesAccess operation <;> rfl

namespace WellFormed

variable (ht : t.WellFormed)
include ht

theorem inFirstOperand_iff {v : Visit} (hv : t.RootPath v.node v.path) {step : NodeId × NodeId}
    (hstep : step ∈ v.steps) :
    t.InFirstOperand step.1 v.node ↔ (t.children step.1).head? = some step.2 := by
  constructor
  · intro h
    obtain ⟨first, hfirst, hbelow⟩ := h
    rw [hfirst, (ht.below_iff_of_mem_steps hv hstep (List.mem_of_mem_head? hfirst)).mp hbelow]
  · intro hfirst
    exact ⟨step.2, hfirst, (hv.of_mem_steps hstep).2⟩

/-- The search outwards gives the access that the innermost operator or call decides. -/
theorem accesses_access {v : Visit} (hv : t.RootPath v.node v.path) : t.Accesses v (t.access v) := by
  have hpath := find?_path_eq_steps v (t.kindIn NodeKind.settlesAccess)
  rw [access_eq_find?]
  cases hfind : v.steps.find? fun step => t.kindIn NodeKind.settlesAccess step.1 with
  | none =>
    rw [hfind] at hpath
    apply Accesses.read
    intro id kind hop
    rw [(find?_settlesAccess_iff v id).mpr ⟨kind, hop⟩] at hpath
    cases hpath
  | some step =>
    rw [hfind] at hpath
    obtain ⟨kind, hop⟩ := (find?_settlesAccess_iff v step.1).mp hpath
    have hfirst := ht.inFirstOperand_iff hv (List.mem_of_find?_eq_some hfind)
    have hread : (t.InFirstOperand step.1 v.node → ¬ WritesOperand kind (t.tokens step.1) ∧
        ¬ TakesAddress kind (t.tokens step.1)) → t.Accesses v .read := by
      intro hnot
      apply Accesses.read
      intro id other hop'
      obtain ⟨rfl, rfl⟩ := hop.unique hop'
      exact hnot
    rw [Option.map_some, Option.getD_some, usageAt, hop.kind_eq, Option.map_some, Option.getD_some]
    split
    · rename_i hhead
      have hin := hfirst.mpr hhead
      obtain ⟨hwrites, heq⟩ | ⟨haddr, heq⟩ | ⟨hneither, heq⟩ := operandUsage_cases kind (t.tokens step.1)
      · exact heq ▸ .write hop hin hwrites
      · exact heq ▸ .addr hop hin haddr
      · exact heq ▸ hread fun _ => hneither
    · rename_i hhead
      exact hread fun hin => absurd (hfirst.mp hin) hhead

theorem access_eq_iff {v : Visit} (hv : t.RootPath v.node v.path) (usage : Usage) :
    t.access v = usage ↔ t.Accesses v usage := by
  constructor
  · intro h
    exact h ▸ ht.accesses_access hv
  · intro h
    exact (ht.accesses_access hv).unique h

end WellFormed

/-- What decides an access in one tree decides the same in another. -/
theorem Accesses.transfer {t' : Tree} {v v' : Visit} {id id' : NodeId} {kind : NodeKind} {usage : Usage}
    (h : t.Accesses v usage) (hop : t.InnermostOperation v id kind) (hop' : t'.InnermostOperation v' id' kind)
    (htokens : t.tokens id = t'.tokens id')
    (hfirst : t.InFirstOperand id v.node ↔ t'.InFirstOperand id' v'.node) : t'.Accesses v' usage := by
  cases h with
  | write hother hin hwrites =>
    obtain ⟨rfl, rfl⟩ := hop.unique hother
    exact .write hop' (hfirst.mp hin) (htokens ▸ hwrites)
  | addr hother hin haddr =>
    obtain ⟨rfl, rfl⟩ := hop.unique hother
    exact .addr hop' (hfirst.mp hin) (htokens ▸ haddr)
  | read hread =>
    apply Accesses.read
    intro other kind' hother hin
    obtain ⟨rfl, rfl⟩ := hop'.unique hother
    exact htokens ▸ hread id kind hop (hfirst.mpr hin)

/-- In every tree that the check accepts, the innermost operator or call around a name decides its access. -/
theorem accessDecided_of_check (t : Tree) (h : t.check = .ok ()) : t.AccessDecided := by
  have ht := (check_eq_ok_iff t).mp h
  constructor
  · exact fun v hv usage => ht.access_eq_iff hv usage
  · exact fun v a b kind other hop hop' => hop.unique hop'
  · intro v hv hnone
    apply (ht.access_eq_iff hv _).mpr
    exact .read fun id kind hop => absurd hop (hnone id kind)
  · intro t' h' v v' id id' kind hv hv' hop hop' htokens hfirst
    have ht' := (check_eq_ok_iff t').mp h'
    have haccess := (ht.accesses_access hv).transfer hop hop' htokens hfirst
    exact ((ht'.access_eq_iff hv' _).mpr haccess).symm

/-- The statements `a[i]++`, `&b` and `c = f(d)`. -/
def operatingTree : Tree where
  files := [⟨"main.cpp", true, false⟩]
  root := 0
  nodes := #[
    { kind := .unit, children := [1] },
    { kind := .compoundStmt, children := [2, 6, 8] },
    { kind := .unaryOperator, children := [3], tokens := ["a", "[", "i", "]", "++"] },
    { kind := .arraySubscriptExpr, children := [4, 5] },
    { kind := .declRefExpr, spelling := "a" },
    { kind := .declRefExpr, spelling := "i" },
    { kind := .unaryOperator, children := [7], tokens := ["&", "b"] },
    { kind := .declRefExpr, spelling := "b" },
    { kind := .binaryOperator, children := [9, 10], tokens := ["c", "=", "f", "(", "d", ")"] },
    { kind := .declRefExpr, spelling := "c" },
    { kind := .callExpr, children := [11, 12] },
    { kind := .declRefExpr, spelling := "f" },
    { kind := .declRefExpr, spelling := "d" }]

theorem accessDecided_of_check_operatingTree :
    operatingTree.check = .ok () ∧
      ((operatingTree.allVisits.filter fun v => operatingTree.kindIn NodeKind.isNameUse v.node).map
        operatingTree.access) = [.write, .write, .addr, .write, .read, .read] ∧ operatingTree.AccessDecided :=
  ⟨by decide, by decide, accessDecided_of_check operatingTree (by decide)⟩

end Tree

end UnitFacts
