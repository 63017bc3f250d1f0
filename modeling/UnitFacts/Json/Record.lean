import UnitFacts.Json.Written

/-!
Records as JSON. A record is an object, in which the values of unknown keys are passed over and a
known key may stand only once, or an array of the fields in their order, in which only trailing fields
may be missing. A plain choice is its name, or an object whose one key is the name and whose value is
null.
-/

namespace UnitFacts.Json

/-- The value of a key that stands at most once: `none` if it is repeated. -/
def uniqueMember (name : String) (members : List (Option String × Written)) :
    Option (Option Written) :=
  match members.filter fun (key, _) => key = some name with
  | [] => some none
  | [(_, value)] => some (some value)
  | _ => none

/-- The value of each field, `none` for a field that is missing. Every key has to be a text. -/
def fields? (names : List String) : Written → Option (List (Option Written))
  | .obj members =>
    if members.all fun (key, _) => key.isSome then names.mapM fun name => uniqueMember name members
    else none
  | .arr items =>
    if items.length ≤ names.length then
      some (items.map some ++ List.replicate (names.length - items.length) none)
    else none
  | _ => none

def required {α : Type} (decode : Written → Option α) : Option Written → Option α
  | some value => decode value
  | none => none

/-- A field that takes a default value when it is missing. -/
def defaulted {α : Type} (default : α) (decode : Written → Option α) : Option Written → Option α
  | some value => decode value
  | none => some default

/-- A field that may be null. -/
def nullable {α : Type} (decode : Written → Option α) : Written → Option (Option α)
  | .null => some none
  | value => (decode value).map some

def listOf? {α : Type} (decode : Written → Option α) (value : Written) : Option (List α) :=
  value.items?.bind (·.mapM decode)

def nat32? (value : Written) : Option Nat := value.natBelow? 0x100000000

def word32? (value : Written) : Option UInt32 := (nat32? value).map UInt32.ofNat

/-- A choice among named values. -/
def choice? {α : Type} (ofName? : String → Option α) : Written → Option α
  | .str (some name) => ofName? name
  | .obj [(some name, .null)] => ofName? name
  | _ => none

end UnitFacts.Json
