import EgressGateway.Base.Text

-- Regular expressions that are sequences of fixed texts and of gaps, matched as `regexp` does: ignoring
-- case, from the leftmost position that works, and with every gap as long as possible.

inductive Pattern.Item
  -- A text, in which `none` stands for an arbitrary character.
  | text (cs : List (Option Char))
  -- At least `min` arbitrary characters, which are returned if `group` is set.
  | gap (min : Nat) (group : Bool)

abbrev Pattern := List Pattern.Item

namespace Pattern

variable [CaseFold]

def anyChar (c : Char) : Bool :=
  c ≠ '\n'

-- What remains after a text.
def dropText : List (Option Char) → List Char → Option (List Char)
  | [],          cs      => some cs
  | _ :: _,      []      => none
  | none :: ps,   c :: cs => if anyChar c then dropText ps cs else none
  | some p :: ps, c :: cs => if CaseFold.fold p = CaseFold.fold c then dropText ps cs else none

-- The groups of a match that begins at the first character.
def matchHere : Pattern → List Char → Option (List String)
  | [],                    _  => some []
  | .text ps :: rest,      cs => (dropText ps cs).bind (matchHere rest)
  | .gap min group :: rest, cs =>
    let run := (cs.takeWhile anyChar).length
    ((List.range' min (run + 1 - min)).reverse).findSome? fun n =>
      (matchHere rest (cs.drop n)).map fun gs =>
        if group then String.ofList (cs.take n) :: gs else gs

-- `FindStringSubmatch`, without the match as a whole.
def findSubmatch (p : Pattern) (s : String) : Option (List String) :=
  s.toList.tails.findSome? (matchHere p)

-- The literal parts of a pattern.
def lit (s : String) : Item :=
  .text (s.toList.map fun c => if c = '.' then none else some c)

end Pattern
