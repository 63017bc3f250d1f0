import UnitFacts.Dump.Node
import UnitFacts.Kind
import UnitFacts.Text.Basic

/-!
What becomes of a dumped node, by its class name. Declarations, expressions and statements get the
node kind of their class, a catch-all kind for classes without one; a template takes its pattern in;
attributes, comments, template arguments and unknown classes are passed over.
-/

namespace UnitFacts.Dump

inductive Plan where
  /-- Only the locations are read. -/
  | skim
  /-- The inner nodes take this one's place. -/
  | dissolve
  /-- A template; if it merges, its pattern becomes the same node. -/
  | template (kind : NodeKind) (merges : Bool)
  | declaration (kind : NodeKind)
  /-- An expression or a statement. -/
  | statement (kind : NodeKind)
  deriving DecidableEq, Repr

def recordKind (tag : Option String) : NodeKind :=
  match tag with
  | some "class" => .classDecl
  | some "union" => .unionDecl
  | _ => .structDecl

def declarationKind? (cls : String) (tag : Option String) : Option NodeKind :=
  match cls with
  | "NamespaceDecl" => some .namespaceDecl
  | "NamespaceAliasDecl" => some .namespaceAlias
  | "LinkageSpecDecl" => some .linkageSpec
  | "UsingDirectiveDecl" => some .usingDirective
  | "UsingDecl" => some .usingDeclaration
  | "CXXRecordDecl" | "RecordDecl" | "ClassTemplateSpecializationDecl" => some (recordKind tag)
  | "ClassTemplatePartialSpecializationDecl" => some .classTemplatePartialSpecialization
  | "EnumDecl" => some .enumDecl
  | "EnumConstantDecl" => some .enumConstantDecl
  | "FunctionDecl" => some .functionDecl
  | "CXXMethodDecl" => some .cxxMethod
  | "CXXConstructorDecl" => some .constructor
  | "CXXDestructorDecl" => some .destructor
  | "CXXConversionDecl" => some .conversionFunction
  | "VarDecl" => some .varDecl
  | "FieldDecl" => some .fieldDecl
  | "ParmVarDecl" => some .parmDecl
  | "TypedefDecl" => some .typedefDecl
  | "TypeAliasDecl" => some .typeAliasDecl
  | "TemplateTypeParmDecl" => some .templateTypeParameter
  | "NonTypeTemplateParmDecl" => some .nonTypeTemplateParameter
  | "TemplateTemplateParmDecl" => some .templateTemplateParameter
  | "AccessSpecDecl" => some .accessSpecifier
  | "FriendDecl" => some .friendDecl
  | "StaticAssertDecl" => some .staticAssert
  | other => if Text.endsWith "Decl" other then some .unexposedDecl else none

def expressionKind? (cls : String) : Option NodeKind :=
  match cls with
  | "CallExpr" | "CXXMemberCallExpr" | "CXXOperatorCallExpr" | "CXXConstructExpr"
  | "CXXTemporaryObjectExpr" | "CXXUnresolvedConstructExpr" | "UserDefinedLiteral" => some .callExpr
  | "DeclRefExpr" | "DependentScopeDeclRefExpr" => some .declRefExpr
  | "MemberExpr" | "CXXDependentScopeMemberExpr" => some .memberRefExpr
  | "UnresolvedLookupExpr" | "UnresolvedMemberExpr" => some .overloadedDeclRef
  | "ParenExpr" => some .parenExpr
  | "BinaryOperator" => some .binaryOperator
  | "CompoundAssignOperator" => some .compoundAssignOperator
  | "UnaryOperator" => some .unaryOperator
  | "ConditionalOperator" => some .conditionalOperator
  | "ArraySubscriptExpr" => some .arraySubscriptExpr
  | "CStyleCastExpr" => some .cStyleCastExpr
  | "CXXStaticCastExpr" | "CXXDynamicCastExpr" | "CXXReinterpretCastExpr" | "CXXConstCastExpr" =>
    some .cxxNamedCastExpr
  | "LambdaExpr" => some .lambdaExpr
  | "InitListExpr" => some .initListExpr
  | "CXXThisExpr" => some .cxxThisExpr
  | "CXXNewExpr" => some .cxxNewExpr
  | "CXXDeleteExpr" => some .cxxDeleteExpr
  | "IntegerLiteral" => some .integerLiteral
  | "FloatingLiteral" => some .floatingLiteral
  | "StringLiteral" => some .stringLiteral
  | "CharacterLiteral" => some .characterLiteral
  | "CXXBoolLiteralExpr" => some .cxxBoolLiteralExpr
  | "CXXNullPtrLiteralExpr" => some .cxxNullPtrLiteralExpr
  | other =>
    if ["Expr", "Operator", "Literal"].any fun ending => Text.endsWith ending other then
      some .unexposedExpr
    else none

def statementKind? (cls : String) : Option NodeKind :=
  match cls with
  | "CompoundStmt" => some .compoundStmt
  | "DeclStmt" => some .declStmt
  | "ReturnStmt" => some .returnStmt
  | "IfStmt" => some .ifStmt
  | "ForStmt" => some .forStmt
  | "CXXForRangeStmt" => some .cxxForRangeStmt
  | "WhileStmt" => some .whileStmt
  | "DoStmt" => some .doStmt
  | "SwitchStmt" => some .switchStmt
  | "CaseStmt" => some .caseStmt
  | "DefaultStmt" => some .defaultStmt
  | "BreakStmt" => some .breakStmt
  | "ContinueStmt" => some .continueStmt
  | "NullStmt" => some .nullStmt
  | "CXXTryStmt" => some .cxxTryStmt
  | "CXXCatchStmt" => some .cxxCatchStmt
  | other => if Text.endsWith "Stmt" other then some .unexposedStmt else none

/-- The plan for a class that is neither a template nor passed over by name. -/
def plainPlan (cls : String) (tag : Option String) : Plan :=
  if Text.endsWith "Attr" cls || Text.endsWith "Comment" cls then .skim
  else
    match declarationKind? cls tag, expressionKind? cls, statementKind? cls with
    | some kind, _, _ => .declaration kind
    | none, some kind, _ => .statement kind
    | none, none, some kind => .statement kind
    | none, none, none => .skim

def Attrs.plan (attrs : Attrs) : Plan :=
  match attrs.cls with
  | "" | "TemplateArgument" => .skim
  | "CXXCtorInitializer" => .dissolve
  | "FunctionTemplateDecl" => .template .functionTemplate true
  | "ClassTemplateDecl" => .template .classTemplate true
  | "TypeAliasTemplateDecl" => .template .typeAliasTemplateDecl false
  | "VarTemplateDecl" => .template .unexposedDecl false
  | cls => plainPlan cls attrs.tag

/-- Kinds whose contents have them as scope. -/
def opensScope (kind : NodeKind) : Bool :=
  kind.isCallable ||
    match kind with
    | .unit | .namespaceDecl | .linkageSpec | .classDecl | .structDecl | .unionDecl | .enumDecl
    | .classTemplate | .classTemplatePartialSpecialization | .lambdaExpr => true
    | _ => false

/-- Whether a class can be the pattern of a template. -/
def isPattern (template : NodeKind) (cls : String) : Bool :=
  match template with
  | .functionTemplate =>
    ["FunctionDecl", "CXXMethodDecl", "CXXConstructorDecl", "CXXDestructorDecl",
     "CXXConversionDecl", "CXXDeductionGuideDecl"].contains cls
  | .classTemplate => cls = "CXXRecordDecl"
  | .typeAliasTemplateDecl => cls = "TypeAliasDecl"
  | .unexposedDecl => cls = "VarDecl"
  | _ => false

/-- A declaration that is only mentioned by name. -/
def Attrs.isMention (attrs : Attrs) : Bool := !attrs.hasLoc && !attrs.hasRange

def hasInner (inner : List Node) (classes : List String) : Bool :=
  inner.any fun node => classes.contains node.attrs.cls

/-- Whether a dumped declaration of a kind defines its entity, as far as the dump tells. -/
def isDefining (kind : NodeKind) (attrs : Attrs) (inner : List Node) : Bool :=
  if kind = .enumDecl then hasInner inner ["EnumConstantDecl"]
  else if kind.isAggregate || kind = .classTemplate then attrs.isComplete
  else if kind.isCallable then
    hasInner inner ["CompoundStmt", "CXXTryStmt"] || attrs.isDefaulted || attrs.isDeleted
  else false

end UnitFacts.Dump
