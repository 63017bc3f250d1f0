import UnitFacts.Path

/-!
Compile arguments. Build systems in the style of another compiler record flags with a leading slash;
those that concern code generation only are dropped, and those that concern parsing are put in the
form that `clang` takes.
-/

namespace UnitFacts.Arguments

def droppedFlags : List String :=
  ["/nologo", "/Zi", "/Z7", "/FS", "/Od", "/Ob0", "/EHsc", "/utf-8", "/permissive-",
   "/Zc:twoPhase-", "-MD", "-MDd", "-MT", "-MTd", "/MD", "/MDd", "/MT", "/MTd", "/c", "-c", "-TP",
   "/TP"]

def droppedStarts : List String := ["/RTC", "/Fo", "/Fd"]

def isDropped (arg : String) : Bool :=
  droppedFlags.contains arg || droppedStarts.any fun start => Text.startsWith start arg

/-- The value of a flag that is written together with it; an empty one is no value. -/
def joined? (flag arg : String) : Option String := (Text.after? flag arg).filter fun value => value ≠ ""

/-- The words that take the place of one argument. -/
def sanitiseOne (arg : String) : List String :=
  if arg = "" || isDropped arg then []
  else
    match joined? "/D" arg, joined? "/FI" arg, joined? "/I" arg, joined? "/std:" arg with
    | some define, _, _, _ => ["-D" ++ define]
    | none, some file, _, _ => ["-include", file]
    | none, none, some dir, _ => ["-I" ++ dir]
    | none, none, none, some standard => ["-std=" ++ standard]
    | none, none, none, none => [arg]

def sanitise (args : List String) : List String := args.flatMap sanitiseOne

/-- The directories given with `-isystem`, as a word of their own or joined to it. -/
def systemDirs : List String → List String
  | [] => []
  | [arg] => (joined? "-isystem" arg).toList.map Path.normalise
  | arg :: dir :: rest =>
    if arg = "-isystem" then Path.normalise dir :: systemDirs rest
    else (joined? "-isystem" arg).toList.map Path.normalise ++ systemDirs (dir :: rest)

/-- The flags that make the compiler print its tree and the headers it opens. -/
def dumpFlags : List String := ["-fsyntax-only", "-x", "c++", "-H", "-Xclang", "-ast-dump=json"]

/-- The whole argument list for one file. -/
def command (extra : List String) (file : String) (args : List String) : List String :=
  dumpFlags ++ extra ++ sanitise args ++ [file]

end UnitFacts.Arguments
