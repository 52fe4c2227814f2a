import Haml.Expr.Fault
import Haml.Value.Order
import Haml.Value.Text
/-! Access to the parts of values: attributes, items, slices and containment. -/

namespace Haml.Value

def position? (size : Option Nat) (key : Value) : Option Nat :=
  match toInt? key with
  | some n =>
      if !Decimal.fitsSigned 64 n then none
      else if 0 ≤ n then some n.toNat
      else size.bind fun size => if n.natAbs ≤ size then some (size - n.natAbs) else none
  | none => none

def item? (v key : Value) : Option Value :=
  match v with
  | map entries => atKey? key entries
  | list items => (position? (some items.length) key).bind fun i => items[i]?
  | iter items sized =>
      (position? (if sized then some items.length else none) key).bind fun i => items[i]?
  | text s _ => (position? (some s.length) key).bind fun i => s.toList[i]?.map ofChar
  | _ => none

def getItem (v key : Value) : Except Fault Value :=
  match item? v key with
  | some part => .ok part
  | none =>
      match v with
      | undefined => .error .undefinedValue
      | _ => .ok undefined

def getAttr (v : Value) (name : String) : Except Fault Value :=
  match v with
  | map entries => .ok ((atKey? (ofString name) entries).getD undefined)
  | undefined => .error .undefinedValue
  | _ => .ok undefined

def getPath (v : Value) (path : String) : Except Fault Value :=
  (path.splitOn ".").foldlM (fun v part =>
    match part.toNat? with
    | some n => getItem v (int n)
    | none => getItem v (ofString part)) v

def items (v : Value) : Except Fault (List Value) :=
  match items? v with
  | some items => .ok items
  | none => .error (.notIterable v.kind)

def bound? (v : Value) : Except Fault (Option Int) :=
  match v with
  | null => .ok none
  | v =>
      match toInt? v with
      | some n =>
          if Decimal.fitsSigned 64 n then .ok (some n)
          else .error (.notConvertible v.kind "i64")
      | none => .error (.notConvertible v.kind "i64")

def everyNth {α : Type} (step : Nat) : Nat → List α → List α
  | _, [] => []
  | 0, x :: xs => x :: everyNth step (step - 1) xs
  | skip + 1, _ :: xs => everyNth step skip xs

def sliceForward {α : Type} (start stop : Option Int) (step : Nat) (xs : List α) : List α :=
  let size : Int := xs.length
  let clamp (n : Int) : Nat := if n < 0 then (size + n).toNat else n.toNat
  let first := clamp (start.getD 0)
  let last := (stop.map clamp).getD xs.length
  everyNth step 0 ((xs.drop first).take (last - first))

def sliceBackward {α : Type} (start stop : Option Int) (step : Nat) (xs : List α) : List α :=
  let size : Int := xs.length
  let first : Nat := match start with
    | none => xs.length - 1
    | some n => if size ≤ n then xs.length - 1 else if 0 ≤ n then n.toNat else (size + n).toNat
  let last : Nat := match stop with
    | none => 0
    | some n => if n < 0 then (size + n).toNat else n.toNat
  let count := if last = 0 then (first + step) / step else (first - last + step - 1) / step
  (List.range count).filterMap fun i => if i * step ≤ first then xs[first - i * step]? else none

def sliceItems {α : Type} (start stop : Option Int) (step : Int) (xs : List α) : List α :=
  if 0 < step then sliceForward start stop step.toNat xs
  else sliceBackward start stop step.natAbs xs

def slice (v start stop step : Value) : Except Fault Value := do
  let start ← bound? start
  let stop ← bound? stop
  let step := (← bound? step).getD 1
  if step = 0 then throw (.refused "cannot slice by step size of 0")
  match v with
  | text s _ => return ofString (String.ofList (sliceItems start stop step s.toList))
  | undefined | null => return list []
  | list items => return iter (sliceItems start stop step items) true
  | iter items sized => return iter (sliceItems start stop step items) sized
  | v => throw (.refused ("value of type " ++ v.kind.text ++ " cannot be sliced"))

def contains (container v : Value) : Except Fault Bool :=
  match container with
  | undefined => .ok false
  | text s _ =>
      let part := match v with
        | text t _ => t
        | v => v.display
      .ok (Text.splitOnce part.toList s.toList).isSome
  | map entries => .ok (atKey? v entries).isSome
  | list items | iter items _ => .ok (items.any fun x => equal x v)
  | renderer .. | function _ => .ok false
  | _ => .error (.refused "cannot perform a containment check on this value")

end Haml.Value
