import UnitFacts.Text.Basic
import UnitFacts.Text.Letter
import UnitFacts.Unique

/-!
Names in written types. `const ns::Box<Item> &` mentions `ns::Box` and `Item` among other words; the
record that a constructed type names stands before its template arguments, qualifiers taken off.
-/

namespace UnitFacts.Dump

/-- How a dump writes the scope of an unnamed namespace. -/
def unnamedScope : List Char := "(anonymous namespace)::".toList

def isNameChar (c : Char) : Bool := Text.isAlphanumeric c || c = '_' || c = ':'

/-- Whether a word of a type can be a name. -/
def isName (word : List Char) : Bool := !word.isEmpty && !(word.head?.any Char.isDigit)

/-- The words of a type that can be names, each once. -/
def typeNames (type : String) : List String :=
  let words := Text.splitWhere (fun c => !isNameChar c) (Text.removeAll unnamedScope 0 type.toList)
  (firstByKey id [] ((words.map (Text.trimChar ':')).filter isName)).map String.ofList

/-- Takes off a word that stands in front. -/
def dropFront (front : String) (cs : List Char) : List Char := (front.toList.isPrefixOf? cs).getD cs

def typeQualifiers : List String := ["const ", "volatile ", "struct ", "class ", "union ", "::"]

/-- The qualified name of the record that a type names. -/
def recordName (type : String) : String :=
  let bare := typeQualifiers.foldl (fun cs front => dropFront front cs) (Text.trim type.toList)
  String.ofList (Text.removeAll unnamedScope 0 (Text.trim (bare.takeWhile fun c => c ≠ '<')))

/-- What a function type writes before its parameters. -/
def returnType? (type : String) : Option String :=
  (Text.cutAt? ['('] type.toList).map fun (before, _) => String.ofList before

/-- The part of a qualified name after its last `::`. -/
def shortName (name : String) : String :=
  match Text.cutAt? [':', ':'] name.toList.reverse with
  | some (last, _) => String.ofList last.reverse
  | none => name

end UnitFacts.Dump
