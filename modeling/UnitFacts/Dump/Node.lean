import UnitFacts.Dump.Location

/-!
The nodes of a dump: a class name, the attributes that matter here, and the nodes inside.
-/

namespace UnitFacts.Dump

/-- The attributes of a dumped node. `hasLoc` and `hasRange` say whether the keys stand there at
all; a declaration with neither is only a mention of one. -/
structure Attrs where
  cls : String := ""
  id : Option String := none
  name : String := ""
  hasLoc : Bool := false
  hasRange : Bool := false
  loc : RawLoc := .absent
  rangeBegin : RawLoc := .absent
  rangeEnd : RawLoc := .absent
  tag : Option String := none
  isImplicit : Bool := false
  isComplete : Bool := false
  isDefaulted : Bool := false
  isDeleted : Bool := false
  previousDecl : Option String := none
  parentContext : Option String := none
  qualType : Option String := none
  desugaredType : Option String := none
  ctorType : Option String := none
  referencedId : Option String := none
  referencedName : String := ""
  memberId : Option String := none
  lookupId : Option String := none
  opcode : Option String := none
  deriving DecidableEq, Repr

inductive Node where
  | mk (attrs : Attrs) (inner : List Node)
  deriving Repr

def Node.attrs : Node → Attrs
  | .mk attrs _ => attrs

def Node.inner : Node → List Node
  | .mk _ inner => inner

def textAttr? (value : Json) (name : String) : Option String := (value.member? name).bind Json.text?

def flagAttr (value : Json) (name : String) : Bool := ((value.member? name).bind Json.bool?).getD false

def Attrs.ofJson (value : Json) : Attrs where
  cls := (textAttr? value "kind").getD ""
  id := textAttr? value "id"
  name := (textAttr? value "name").getD ""
  hasLoc := value.hasMember "loc"
  hasRange := value.hasMember "range"
  loc := rawLoc (value.member? "loc")
  rangeBegin := rawLoc ((value.member? "range").bind (·.member? "begin"))
  rangeEnd := rawLoc ((value.member? "range").bind (·.member? "end"))
  tag := textAttr? value "tagUsed"
  isImplicit := flagAttr value "isImplicit"
  isComplete := flagAttr value "completeDefinition"
  isDefaulted := value.hasMember "explicitlyDefaulted"
  isDeleted := flagAttr value "explicitlyDeleted"
  previousDecl := textAttr? value "previousDecl"
  parentContext := textAttr? value "parentDeclContextId"
  qualType := (value.member? "type").bind (textAttr? · "qualType")
  desugaredType := (value.member? "type").bind (textAttr? · "desugaredQualType")
  ctorType := (value.member? "ctorType").bind (textAttr? · "qualType")
  referencedId := (value.member? "referencedDecl").bind (textAttr? · "id")
  referencedName := ((value.member? "referencedDecl").bind (textAttr? · "name")).getD ""
  memberId := textAttr? value "referencedMemberDecl"
  lookupId := ((value.member? "lookups").bind Json.items?).bind fun items =>
    items.head?.bind (textAttr? · "id")
  opcode := textAttr? value "opcode"

mutual

/-- The node that an object stands for; whatever else stands among the inner nodes is none. -/
def Node.ofJson? : Json → Option Node
  | .obj members => some (.mk (.ofJson (.obj members)) (innerOf members))
  | _ => none

/-- The nodes under the last key `inner`. -/
def innerOf : List (String × Json) → List Node
  | [] => []
  | (key, value) :: rest =>
    if key = "inner" && (Json.lookup "inner" rest).isNone then itemsOf value else innerOf rest

def itemsOf : Json → List Node
  | .arr items => nodesOf items
  | _ => []

def nodesOf : List Json → List Node
  | [] => []
  | item :: rest =>
    match Node.ofJson? item with
    | some node => node :: nodesOf rest
    | none => nodesOf rest

end

end UnitFacts.Dump
