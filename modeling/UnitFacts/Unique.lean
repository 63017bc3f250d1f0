/-!
Lists without repetitions: by comparing neighbours, or by remembering keys.
-/

namespace UnitFacts

/-- Drops every item that is related to the item kept just before it. -/
def dropRepeats {α : Type} (same : α → α → Bool) : List α → List α
  | [] => []
  | [a] => [a]
  | a :: b :: rest =>
    if same a b then dropRepeats same (a :: rest) else a :: dropRepeats same (b :: rest)
termination_by items => items.length

/-- The items whose key was not seen before, neither in `seen` nor earlier in the list. -/
def firstByKey {α κ : Type} [DecidableEq κ] (key : α → κ) : List κ → List α → List α
  | _, [] => []
  | seen, item :: rest =>
    if key item ∈ seen then firstByKey key seen rest
    else item :: firstByKey key (key item :: seen) rest

end UnitFacts
