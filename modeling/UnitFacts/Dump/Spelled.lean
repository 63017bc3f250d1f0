import UnitFacts.Dump.Draft

/-!
What the source text adds to a dump: the place of a name inside a longer reference, the tokens of
an operator, the closing brace of a body, and the stretch in which a declaration writes its type.
-/

namespace UnitFacts.Dump

/-- The offset after a token; offsets are words of 64 bits, and sums of them come round. -/
def offsetAfter (offset length : Nat) : Nat := (UInt64.ofNat offset + UInt64.ofNat length).toNat

/-- The tokens from the begin of one location to the end of the last token of another, if both are
spelled in one file at known offsets. -/
def tokensBetween (ctx : Context) (first last : Loc) : List Token :=
  if first.spelling.file = last.spelling.file then
    match first.spelling.offset, last.spelling.offset with
    | some start, some stop =>
      ctx.sources.spans first.spelling.file start (offsetAfter stop last.spelling.tokenLength)
    | _, _ => []
  else []

/-- Whether a range starts before its last token. -/
def startsEarlier (first last : Loc) : Bool :=
  match first.spelling.offset, last.spelling.offset with
  | some start, some stop => start < stop
  | _, _ => false

/-- Where a reference names its target: at the last token spelled `name`, else at its end. -/
def namePosition (ctx : Context) (name : String) (first? last? : Option Loc) : Option Loc :=
  match last? with
  | none => none
  | some last =>
    let found : Option Token := match first? with
      | some first =>
        if name ≠ "" && startsEarlier first last then
          (tokensBetween ctx first last).reverse.find? fun token => token.text = name
        else none
      | none => none
    match found with
    | some token =>
      some { last with spelling := {
        file := last.spelling.file
        line := UInt32.ofNat token.line
        col := UInt32.ofNat token.col
        offset := some token.offset
        tokenLength := token.text.utf8ByteSize } }
    | none => some last

/-- Whether the token at the end of a declaration is the brace that closes a body. -/
def closesBody (ctx : Context) (last? : Option Loc) : Bool :=
  match last? with
  | some last =>
    match last.spelling.offset with
    | some offset =>
      let stop := offsetAfter offset (max last.spelling.tokenLength 1)
      (ctx.sources.spans last.spelling.file offset stop).map (·.text) = ["\x7d"]
    | none => false
  | none => false

/-- The source tokens of an operator, or its opcode where the source has none. -/
def operatorTokens (ctx : Context) (attrs : Attrs) (first? last? : Option Loc) : List String :=
  let spelled := match first?, last? with
    | some first, some last => (tokensBetween ctx first last).map (·.text)
    | _, _ => []
  if spelled.isEmpty then attrs.opcode.toList else spelled

/-- The type that a declaration of a kind writes in front of or after its name. -/
def writtenType? (kind : NodeKind) (declared : Option String) : Option String :=
  match kind with
  | .varDecl | .fieldDecl | .parmDecl | .typedefDecl | .typeAliasDecl => declared
  | .functionDecl | .cxxMethod => declared.bind returnType?
  | _ => none

/-- The offsets between which a declaration writes its type: after the name of an alias, before any
other name, and everywhere in a declaration without a name. -/
def typeStretch (kind : NodeKind) (isUnnamed : Bool) (first name last : Nat)
    (nameLength lastLength : Nat) : Nat × Nat :=
  if kind = .typeAliasDecl then (offsetAfter name nameLength, offsetAfter last lastLength)
  else if isUnnamed then (first, offsetAfter last lastLength)
  else (first, name)

/-- The mention of a type by a declaration that is spelled in one file outside any macro. -/
def mention? (ctx : Context) (attrs : Attrs) (kind : NodeKind) (owner : NodeId)
    (first? name? last? : Option Loc) : Option Mention :=
  let names := ((writtenType? kind attrs.qualType).map typeNames).getD []
  match first?, name?, last? with
  | some first, some name, some last =>
    let file := first.spelling.file
    if names.isEmpty || file ≠ first.expansion.file || file ≠ name.spelling.file ||
        file ≠ last.spelling.file || ctx.isSystemFile file then none
    else
      match first.spelling.offset, name.spelling.offset, last.spelling.offset with
      | some firstOffset, some nameOffset, some lastOffset =>
        let (start, stop) := typeStretch kind (attrs.name = "") firstOffset nameOffset lastOffset
          name.spelling.tokenLength last.spelling.tokenLength
        if start < stop then some ⟨owner, file, start, stop, names⟩ else none
      | _, _, _ => none
  | _, _, _ => none

end UnitFacts.Dump
