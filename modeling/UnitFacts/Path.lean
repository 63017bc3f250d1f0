import UnitFacts.Text.Basic

/-!
Paths. Both slashes separate, the backward one being turned forward first. A path is compared by its
components: a leading slash is one, empty components and `.` are dropped, except a leading `.`,
and `..` is kept as it stands.
-/

namespace UnitFacts.Path

def normalise (path : String) : String := path.map fun c => if c = '\\' then '/' else c

/-- Whether a segment that is not the first one counts. -/
def isSolid (segment : List Char) : Bool := !segment.isEmpty && segment != ['.']

/-- The components of a path, a leading slash as the component `/`. -/
def components (path : String) : List (List Char) :=
  match Text.splitOn '/' path.toList with
  | [] => []
  | first :: rest =>
    let head :=
      if first.isEmpty then (if rest.isEmpty then [] else [['/']])
      else [first]
    head ++ rest.filter isSolid

/-- Whether the components of `base` begin those of `path`. -/
def isUnder (path base : String) : Bool := (components base).isPrefixOf (components path)

end UnitFacts.Path
