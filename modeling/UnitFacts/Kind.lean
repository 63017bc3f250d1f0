/-!
The closed set of node kinds, their written names and the groups that the analyses ask about.
-/

namespace UnitFacts

/-- Kind of a syntax node. The root of a tree is the `unit`. -/
inductive NodeKind where
  | unit
  | namespaceDecl
  | namespaceAlias
  | linkageSpec
  | usingDirective
  | usingDeclaration
  | classDecl
  | structDecl
  | unionDecl
  | enumDecl
  | enumConstantDecl
  | classTemplate
  | classTemplatePartialSpecialization
  | typeAliasTemplateDecl
  | functionDecl
  | cxxMethod
  | constructor
  | destructor
  | conversionFunction
  | functionTemplate
  | varDecl
  | fieldDecl
  | parmDecl
  | typedefDecl
  | typeAliasDecl
  | templateTypeParameter
  | nonTypeTemplateParameter
  | templateTemplateParameter
  | accessSpecifier
  | friendDecl
  | staticAssert
  | unexposedDecl
  | typeRef
  | templateRef
  | namespaceRef
  | memberRef
  | overloadedDeclRef
  | callExpr
  | declRefExpr
  | memberRefExpr
  | unexposedExpr
  | parenExpr
  | binaryOperator
  | compoundAssignOperator
  | unaryOperator
  | conditionalOperator
  | arraySubscriptExpr
  | cStyleCastExpr
  | cxxNamedCastExpr
  | lambdaExpr
  | initListExpr
  | cxxThisExpr
  | cxxNewExpr
  | cxxDeleteExpr
  | integerLiteral
  | floatingLiteral
  | stringLiteral
  | characterLiteral
  | cxxBoolLiteralExpr
  | cxxNullPtrLiteralExpr
  | compoundStmt
  | declStmt
  | returnStmt
  | ifStmt
  | forStmt
  | cxxForRangeStmt
  | whileStmt
  | doStmt
  | switchStmt
  | caseStmt
  | defaultStmt
  | breakStmt
  | continueStmt
  | nullStmt
  | cxxTryStmt
  | cxxCatchStmt
  | unexposedStmt
  deriving DecidableEq, Repr, Inhabited

namespace NodeKind

/-- The name a kind is written with. -/
def name : NodeKind → String
  | .unit => "TranslationUnit"
  | .namespaceDecl => "Namespace"
  | .namespaceAlias => "NamespaceAlias"
  | .linkageSpec => "LinkageSpec"
  | .usingDirective => "UsingDirective"
  | .usingDeclaration => "UsingDeclaration"
  | .classDecl => "ClassDecl"
  | .structDecl => "StructDecl"
  | .unionDecl => "UnionDecl"
  | .enumDecl => "EnumDecl"
  | .enumConstantDecl => "EnumConstantDecl"
  | .classTemplate => "ClassTemplate"
  | .classTemplatePartialSpecialization => "ClassTemplatePartialSpecialization"
  | .typeAliasTemplateDecl => "TypeAliasTemplateDecl"
  | .functionDecl => "FunctionDecl"
  | .cxxMethod => "CXXMethod"
  | .constructor => "Constructor"
  | .destructor => "Destructor"
  | .conversionFunction => "ConversionFunction"
  | .functionTemplate => "FunctionTemplate"
  | .varDecl => "VarDecl"
  | .fieldDecl => "FieldDecl"
  | .parmDecl => "ParmDecl"
  | .typedefDecl => "TypedefDecl"
  | .typeAliasDecl => "TypeAliasDecl"
  | .templateTypeParameter => "TemplateTypeParameter"
  | .nonTypeTemplateParameter => "NonTypeTemplateParameter"
  | .templateTemplateParameter => "TemplateTemplateParameter"
  | .accessSpecifier => "AccessSpecifier"
  | .friendDecl => "FriendDecl"
  | .staticAssert => "StaticAssert"
  | .unexposedDecl => "UnexposedDecl"
  | .typeRef => "TypeRef"
  | .templateRef => "TemplateRef"
  | .namespaceRef => "NamespaceRef"
  | .memberRef => "MemberRef"
  | .overloadedDeclRef => "OverloadedDeclRef"
  | .callExpr => "CallExpr"
  | .declRefExpr => "DeclRefExpr"
  | .memberRefExpr => "MemberRefExpr"
  | .unexposedExpr => "UnexposedExpr"
  | .parenExpr => "ParenExpr"
  | .binaryOperator => "BinaryOperator"
  | .compoundAssignOperator => "CompoundAssignOperator"
  | .unaryOperator => "UnaryOperator"
  | .conditionalOperator => "ConditionalOperator"
  | .arraySubscriptExpr => "ArraySubscriptExpr"
  | .cStyleCastExpr => "CStyleCastExpr"
  | .cxxNamedCastExpr => "CXXNamedCastExpr"
  | .lambdaExpr => "LambdaExpr"
  | .initListExpr => "InitListExpr"
  | .cxxThisExpr => "CXXThisExpr"
  | .cxxNewExpr => "CXXNewExpr"
  | .cxxDeleteExpr => "CXXDeleteExpr"
  | .integerLiteral => "IntegerLiteral"
  | .floatingLiteral => "FloatingLiteral"
  | .stringLiteral => "StringLiteral"
  | .characterLiteral => "CharacterLiteral"
  | .cxxBoolLiteralExpr => "CXXBoolLiteralExpr"
  | .cxxNullPtrLiteralExpr => "CXXNullPtrLiteralExpr"
  | .compoundStmt => "CompoundStmt"
  | .declStmt => "DeclStmt"
  | .returnStmt => "ReturnStmt"
  | .ifStmt => "IfStmt"
  | .forStmt => "ForStmt"
  | .cxxForRangeStmt => "CXXForRangeStmt"
  | .whileStmt => "WhileStmt"
  | .doStmt => "DoStmt"
  | .switchStmt => "SwitchStmt"
  | .caseStmt => "CaseStmt"
  | .defaultStmt => "DefaultStmt"
  | .breakStmt => "BreakStmt"
  | .continueStmt => "ContinueStmt"
  | .nullStmt => "NullStmt"
  | .cxxTryStmt => "CXXTryStmt"
  | .cxxCatchStmt => "CXXCatchStmt"
  | .unexposedStmt => "UnexposedStmt"

def all : List NodeKind :=
  [.unit, .namespaceDecl, .namespaceAlias, .linkageSpec, .usingDirective, .usingDeclaration,
   .classDecl, .structDecl, .unionDecl, .enumDecl, .enumConstantDecl, .classTemplate,
   .classTemplatePartialSpecialization, .typeAliasTemplateDecl, .functionDecl, .cxxMethod,
   .constructor, .destructor, .conversionFunction, .functionTemplate, .varDecl, .fieldDecl,
   .parmDecl, .typedefDecl, .typeAliasDecl, .templateTypeParameter, .nonTypeTemplateParameter,
   .templateTemplateParameter, .accessSpecifier, .friendDecl, .staticAssert, .unexposedDecl,
   .typeRef, .templateRef, .namespaceRef, .memberRef, .overloadedDeclRef, .callExpr,
   .declRefExpr, .memberRefExpr, .unexposedExpr, .parenExpr, .binaryOperator,
   .compoundAssignOperator, .unaryOperator, .conditionalOperator, .arraySubscriptExpr,
   .cStyleCastExpr, .cxxNamedCastExpr, .lambdaExpr, .initListExpr, .cxxThisExpr, .cxxNewExpr,
   .cxxDeleteExpr, .integerLiteral, .floatingLiteral, .stringLiteral, .characterLiteral,
   .cxxBoolLiteralExpr, .cxxNullPtrLiteralExpr, .compoundStmt, .declStmt, .returnStmt, .ifStmt,
   .forStmt, .cxxForRangeStmt, .whileStmt, .doStmt, .switchStmt, .caseStmt, .defaultStmt,
   .breakStmt, .continueStmt, .nullStmt, .cxxTryStmt, .cxxCatchStmt, .unexposedStmt]

def ofName? (name : String) : Option NodeKind := all.find? fun kind => kind.name = name

/-- Kinds whose nodes may be reported as symbols. -/
def bearsSymbol : NodeKind → Bool
  | .functionDecl | .cxxMethod | .constructor | .destructor | .functionTemplate
  | .classTemplate | .classDecl | .structDecl | .unionDecl | .enumDecl | .enumConstantDecl
  | .varDecl | .fieldDecl | .typedefDecl | .typeAliasDecl | .namespaceDecl => true
  | _ => false

/-- Kinds that own a body, and so can be the caller of a call. -/
def ownsBody : NodeKind → Bool
  | .functionDecl | .cxxMethod | .constructor | .destructor | .functionTemplate
  | .lambdaExpr => true
  | _ => false

/-- Declarations that a call can resolve to. -/
def isCallable : NodeKind → Bool
  | .functionDecl | .cxxMethod | .constructor | .destructor | .functionTemplate
  | .conversionFunction => true
  | _ => false

/-- Children of a call that may carry the name of the callee. -/
def carriesCallee : NodeKind → Bool
  | .memberRefExpr | .memberRef | .declRefExpr | .overloadedDeclRef | .unexposedExpr
  | .callExpr | .typeRef => true
  | _ => false

/-- Classes, structs, unions and enumerations. -/
def isAggregate : NodeKind → Bool
  | .classDecl | .structDecl | .unionDecl | .enumDecl => true
  | _ => false

/-- Uses of a name that count as a read, a write or an address. -/
def isNameUse : NodeKind → Bool
  | .declRefExpr | .memberRefExpr | .memberRef => true
  | _ => false

/-- Ancestors that do not decide how a name is accessed. -/
def isTransparent : NodeKind → Bool
  | .unexposedExpr | .parenExpr | .memberRefExpr | .memberRef | .declRefExpr => true
  | _ => false

/-- Declarations of every sort, the unit included. -/
def isDeclaration : NodeKind → Bool
  | .unit | .namespaceDecl | .namespaceAlias | .linkageSpec | .usingDirective
  | .usingDeclaration | .classDecl | .structDecl | .unionDecl | .enumDecl
  | .enumConstantDecl | .classTemplate | .classTemplatePartialSpecialization
  | .typeAliasTemplateDecl | .functionDecl | .cxxMethod | .constructor | .destructor
  | .conversionFunction | .functionTemplate | .varDecl | .fieldDecl | .parmDecl
  | .typedefDecl | .typeAliasDecl | .templateTypeParameter | .nonTypeTemplateParameter
  | .templateTemplateParameter | .accessSpecifier | .friendDecl | .staticAssert
  | .unexposedDecl => true
  | _ => false

/-- Kinds that become the scope of the nodes inside them. -/
def isScope (kind : NodeKind) : Bool := kind.isDeclaration || kind = .lambdaExpr

end NodeKind

end UnitFacts
