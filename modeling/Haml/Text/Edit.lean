import Haml.Text.Blank
/-! Edits: what turns the lines of one text into those of another, with as few lines dropped and
added as there can be. -/

namespace Haml.Text

inductive Edit where
  | keep (line : List Char)
  | drop (line : List Char)
  | add (lines : List (List Char))
  deriving DecidableEq, Repr

namespace Edit

abbrev Lines := List (List Char)

def before : List Edit → Lines
  | [] => []
  | keep line :: edits | drop line :: edits => line :: before edits
  | add _ :: edits => before edits

def after : List Edit → Lines
  | [] => []
  | keep line :: edits => line :: after edits
  | drop _ :: edits => after edits
  | add lines :: edits => lines ++ after edits

def commonLength : Lines → Lines → Nat
  | a :: as, b :: bs => if a = b then commonLength as bs + 1 else 0
  | _, _ => 0

/-! The shortest way through two texts leads along diagonals: on diagonal `k`, as many lines of the
new text are passed as of the old one, less `k`. A search from the start and one from the end go on
by one dropped or added line at a time until they meet. -/

/-- How far a search has come on a diagonal, in lines of the old text: where its last lines in common
start, and where they end. -/
structure Reach where
  diagonal : Int
  start : Nat
  stop : Nat

def starts : List Nat → List Nat
  | [] => [0]
  | x :: xs => (x + 1) :: between x xs
where
  between (x : Nat) : List Nat → List Nat
    | [] => [x]
    | y :: ys => (if y < x then x else y + 1) :: between y ys

def diagonals (d : Nat) : List Int := (List.range (d + 1)).map fun (i : Nat) => (d : Int) - 2 * i

def passCommon (old new : Lines) (diagonal : Int) (start : Nat) : Reach :=
  ⟨diagonal, start,
    start + commonLength (old.drop start) (new.drop ((start : Int) - diagonal).toNat)⟩

def advance (old new : Lines) (d : Nat) (reached : List Reach) : List Reach :=
  ((diagonals d).zip (starts (reached.map Reach.stop))).map fun (k, x) => passCommon old new k x

def meets (old new : Lines) (others : List Reach) (r : Reach) : Bool :=
  others.any fun o =>
    o.diagonal == (old.length : Int) - new.length - r.diagonal && old.length ≤ r.stop + o.stop

def meetingPoint (old new : Lines) : Nat → Nat → List Reach → List Reach → Option (Nat × Nat)
  | 0, _, _, _ => none
  | steps + 1, d, forward, backward =>
      let forward := advance old new d forward
      match forward.find? (meets old new backward) with
      | some r => some (r.start, ((r.start : Int) - r.diagonal).toNat)
      | none =>
          let backward := advance old.reverse new.reverse d backward
          match backward.find? (meets old new forward) with
          | some r =>
              some (old.length - r.stop, new.length - ((r.stop : Int) - r.diagonal).toNat)
          | none => meetingPoint old new steps (d + 1) forward backward

def divide (compare : Lines → Lines → List Edit) (old new : Lines) : List Edit :=
  if new.isEmpty then old.map drop
  else if old.isEmpty then [add new]
  else
    match meetingPoint old new ((old.length + new.length + 1) / 2 + 1) 0 [] [] with
    | none => old.map drop ++ [add new]
    | some (x, y) =>
        compare (old.take x) (new.take y) ++ compare (old.drop x) (new.drop y)

def trimmed (edits : Lines → Lines → List Edit) (old new : Lines) : List Edit :=
  let first := commonLength old new
  let (head, old, new) := (old.take first, old.drop first, new.drop first)
  let last := commonLength old.reverse new.reverse
  head.map keep ++
    edits (old.take (old.length - last)) (new.take (new.length - last)) ++
    (old.drop (old.length - last)).map keep

/-- The edits between two texts. Each division leaves shorter texts, so that as many as there are
lines are enough. -/
def ofLinesWithin : Nat → Lines → Lines → List Edit
  | 0, old, new => old.map drop ++ [add new]
  | steps + 1, old, new => trimmed (divide (ofLinesWithin steps)) old new

/-! Where a block of added lines repeats lines around it, it can stand in more than one place. Each
block is moved down as far as it goes, and joined with the blocks that it comes upon. -/

/-- Moves a block up. What it passes is taken from the edits before it, which are listed from the
nearest one on. -/
def moveUp : List Edit → Lines → List Edit → List Edit × Lines × List Edit
  | keep line :: before, block, after =>
      if block.getLast? = some line then moveUp before (line :: block.dropLast) (keep line :: after)
      else (keep line :: before, block, after)
  | drop line :: before, block, after => moveUp before block (drop line :: after)
  | add lines :: before, block, after => moveUp before (lines ++ block) after
  | [], block, after => ([], block, after)

def moveDown : List Edit → Lines → List Edit → List Edit × Lines × List Edit
  | before, block, keep line :: after =>
      if block.head? = some line then moveDown (keep line :: before) (block.tail ++ [line]) after
      else (before, block, keep line :: after)
  | before, block, drop line :: after => moveDown (drop line :: before) block after
  | before, block, add lines :: after => moveDown before (block ++ lines) after
  | before, block, [] => (before, block, [])

def isAdd : Edit → Bool
  | add _ => true
  | _ => false

def settle : Nat → List Edit → List Edit → List Edit
  | 0, before, after => before.reverse ++ after
  | blocks + 1, before, after =>
      let passed := after.takeWhile fun e => !isAdd e
      let before := passed.reverse ++ before
      match after.drop passed.length with
      | add lines :: after =>
          let (before, block, after) := moveUp before lines after
          let (before, block, after) := moveDown before block after
          settle blocks (add block :: before) after
      | after => before.reverse ++ after

def dropsFirst : Lines → Lines → List Edit → List Edit
  | drops, adds, keep line :: edits =>
      drops.map drop ++ (add adds :: keep line :: dropsFirst [] [] edits)
  | drops, adds, drop line :: edits => dropsFirst (drops ++ [line]) adds edits
  | drops, adds, add lines :: edits => dropsFirst drops (adds ++ lines) edits
  | drops, adds, [] => drops.map drop ++ [add adds]

def ofLines (old new : Lines) : List Edit :=
  let edits := ofLinesWithin (old.length + new.length + 1) old new
  dropsFirst [] [] (settle (edits.countP isAdd) [] edits)

def pieces : List Char → Lines
  | [] => []
  | '\r' :: '\n' :: cs => ['\r', '\n'] :: pieces cs
  | c :: cs =>
      if c = '\n' ∨ c = '\r' then [c] :: pieces cs
      else
        match pieces cs with
        | [] => [[c]]
        | line :: lines => (c :: line) :: lines

def endsLine (line : List Char) : Bool :=
  line.getLast? == some '\n' || line.getLast? == some '\r'

def marked (mark : String) (line : List Char) : String :=
  mark ++ String.ofList line ++ (if endsLine line then "" else "\n")

def write : Edit → String
  | keep line => marked "   " line
  | drop line => marked "  -" line
  | add lines => String.join (lines.map (marked "  +"))

def report (old new : List Char) : String :=
  String.join ((ofLines (pieces old) (pieces new)).map write)

end Edit

end Haml.Text
