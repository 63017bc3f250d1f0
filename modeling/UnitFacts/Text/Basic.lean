/-!
Cutting texts. Everything is done on the list of characters, so that each cut is a statement about
lists: what was cut off, put back, gives the text again.
-/

namespace UnitFacts.Text

def inRanges (ranges : List (Nat × Nat)) (code : Nat) : Bool :=
  ranges.any fun (low, high) => low ≤ code && code ≤ high

/-- The white space of Unicode. -/
def isBlank (c : Char) : Bool :=
  let code := c.toNat
  (9 ≤ code && code ≤ 13) || code = 0x20 || code = 0x85 || code = 0xA0 || code = 0x1680 ||
    (0x2000 ≤ code && code ≤ 0x200A) || code = 0x2028 || code = 0x2029 || code = 0x202F ||
    code = 0x205F || code = 0x3000

def trimStart (cs : List Char) : List Char := cs.dropWhile isBlank

def trimEnd (cs : List Char) : List Char := (cs.reverse.dropWhile isBlank).reverse

def trim (cs : List Char) : List Char := trimStart (trimEnd cs)

/-- What follows `start` in a text that begins with it. -/
def after? (start text : String) : Option String :=
  (start.toList.isPrefixOf? text.toList).map String.ofList

def startsWith (start text : String) : Bool := start.toList.isPrefixOf text.toList

def endsWith (ending text : String) : Bool := ending.toList.isSuffixOf text.toList

/-- Cuts a list at every character of a class. -/
def splitWhere (isCut : Char → Bool) : List Char → List (List Char)
  | [] => [[]]
  | c :: rest =>
    match splitWhere isCut rest with
    | [] => [[c]]
    | head :: tail => if isCut c then [] :: head :: tail else (c :: head) :: tail

def splitOn (separator : Char) (cs : List Char) : List (List Char) :=
  splitWhere (fun c => c = separator) cs

/-- Takes out a pattern wherever it stands, from left to right; `pending` more characters of an
occurrence are still to be left out. -/
def removeAll (pattern : List Char) : Nat → List Char → List Char
  | _, [] => []
  | pending + 1, _ :: rest => removeAll pattern pending rest
  | 0, c :: rest =>
    if pattern.isPrefixOf (c :: rest) then removeAll pattern (pattern.length - 1) rest
    else c :: removeAll pattern 0 rest

/-- Drops a character from both ends as often as it stands there. -/
def trimChar (c : Char) (cs : List Char) : List Char :=
  ((cs.dropWhile fun d => d = c).reverse.dropWhile fun d => d = c).reverse

/-- Drops a carriage return at the end of a line. -/
def dropReturn (line : List Char) : List Char :=
  if line.getLast? = some '\r' then line.dropLast else line

/-- The lines of a text. Every line but the last ends at a newline, with or without a carriage
return before it; an empty last line is none. -/
def lines (text : List Char) : List (List Char) :=
  let pieces := splitOn '\n' text
  let last := pieces.getLastD []
  pieces.dropLast.map dropReturn ++ if last.isEmpty then [] else [last]

/-- The first occurrence of `separator`, with what stands before and after it. -/
def cutAt? (separator : List Char) : List Char → Option (List Char × List Char)
  | [] => if separator.isEmpty then some ([], []) else none
  | c :: rest =>
    match separator.isPrefixOf? (c :: rest) with
    | some after => some ([], after)
    | none => (cutAt? separator rest).map fun (before, after) => (c :: before, after)

/-- The beginning of a list that has `size` bytes, unless it would end inside of a character. -/
def takeBytes? : Nat → List Char → Option (List Char)
  | 0, _ => some []
  | _, [] => none
  | size, c :: rest =>
    if c.utf8Size ≤ size then (takeBytes? (size - c.utf8Size) rest).map (c :: ·) else none

end UnitFacts.Text
