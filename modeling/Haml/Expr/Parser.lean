import Haml.Expr.Syntax
import Haml.Expr.Token
/-! The grammar of expressions. Every level reads operands of the next tighter level; brackets lead
back to the loosest level, at most `maxNesting` deep. -/

namespace Haml.Expr

abbrev Parser := StateT (List Token) (Except Fault)

namespace Parser

def fail {α : Type} (detail : String) : Parser α := throw (.syntaxError detail)

def peek : Parser (Option Token) := do
  match (← get).head? with
  | some (.bad fault) => throw fault
  | t => return t

def advance : Parser Unit := modify List.tail

def isSymbol (s : Symbol) : Option Token → Bool
  | some (.symbol t) => s == t
  | _ => false

def isName (names : List String) : Option Token → Bool
  | some (.name n) => n ∈ names
  | _ => false

def atSymbol (s : Symbol) : Parser Bool := return isSymbol s (← peek)

def skip (s : Symbol) : Parser Bool := do
  if ← atSymbol s then
    advance
    return true
  else return false

def skipName (name : String) : Parser Bool := do
  if isName [name] (← peek) then
    advance
    return true
  else return false

def expect (s : Symbol) : Parser Unit := do
  if ← skip s then return else fail "unexpected token"

def name : Parser String := do
  match ← peek with
  | some (.name n) =>
      advance
      return n
  | _ => fail "expected identifier"

def chain (op? : Token → Option (Expr → Expr → Expr)) (operand : Parser Expr) :
    Nat → Expr → Parser Expr
  | 0, left => return left
  | fuel + 1, left => do
      match (← peek).bind op? with
      | some build =>
          advance
          let right ← operand
          chain op? operand fuel (build left right)
      | none => return left

def level (op? : Token → Option (Expr → Expr → Expr)) (operand : Parser Expr) : Parser Expr := do
  let left ← operand
  chain op? operand (← get).length left

def items {α : Type} (close : Symbol) (item : Parser α) : Nat → Bool → Parser (List α)
  | 0, _ => fail "unexpected end of input"
  | fuel + 1, start => do
      if ← skip close then return []
      if !start then
        expect .comma
        if ← skip close then return []
      let x ← item
      return x :: (← items close item fuel false)

def itemsTo {α : Type} (close : Symbol) (item : Parser α) : Parser (List α) := do
  items close item ((← get).length + 1) true

def textRun (s : String) : List Token → String × List Token
  | .text t :: ts => textRun (s ++ t) ts
  | ts => (s, ts)

def group (expr : Parser Expr) : Parser Expr := do
  if ← skip .closeParen then return .list []
  let e ← expr
  if ← atSymbol .comma then
    let rest ← items .closeParen expr ((← get).length + 1) false
    return .list (e :: rest)
  else
    expect .closeParen
    return e

def entry (expr : Parser Expr) : Parser (Expr × Expr) := do
  let k ← expr
  expect .colon
  let v ← expr
  return (k, v)

def primary (expr : Parser Expr) : Parser Expr := do
  match ← peek with
  | none => fail "unexpected end of input"
  | some t =>
      advance
      match t with
      | .name n =>
          if n = "true" ∨ n = "True" then return .bool true
          else if n = "false" ∨ n = "False" then return .bool false
          else if n = "none" ∨ n = "None" then return .absent
          else return .var n
      | .text s =>
          let (s, rest) := textRun s (← get)
          set rest
          return .text s
      | .int n => return .int n
      | .float x => return .float x
      | .symbol .openParen => group expr
      | .symbol .openSquare => return .list (← itemsTo .closeSquare expr)
      | .symbol .openBrace => return .map (← itemsTo .closeBrace (entry expr))
      | _ => fail "unexpected token"

def argument (expr simple : Parser Expr) (named : Bool) : Parser (ArgForm × Expr) := do
  if ← skip .doubleStar then return (.spreadNamed, ← expr)
  else if ← skip .star then return (.spread, ← expr)
  else
    let e ← expr
    match e with
    | .var n =>
        if ← skip .assign then return (.named n, ← simple)
        else if named then fail "non-keyword arg after keyword arg"
        else return (.positional, e)
    | e => if named then fail "non-keyword arg after keyword arg" else return (.positional, e)

def isNamedForm : ArgForm → Bool
  | .named _ | .spreadNamed => true
  | _ => false

def argumentsFrom (expr simple : Parser Expr) :
    Nat → Bool → Bool → Parser (List (ArgForm × Expr))
  | 0, _, _ => fail "unexpected end of input"
  | fuel + 1, start, named => do
      if ← skip .closeParen then return []
      if !start then
        expect .comma
        if ← skip .closeParen then return []
      let arg ← argument expr simple named
      let rest ← argumentsFrom expr simple fuel false (named || isNamedForm arg.1)
      return arg :: rest

def arguments (expr simple : Parser Expr) : Parser (List (ArgForm × Expr)) := do
  expect .openParen
  argumentsFrom expr simple ((← get).length + 1) true false

def subscript (expr : Parser Expr) (e : Expr) : Parser Expr := do
  let start ← if ← atSymbol .colon then pure none else some <$> expr
  if ← skip .colon then
    let stop ←
      if (← atSymbol .closeSquare) || (← atSymbol .colon) then pure none else some <$> expr
    let more ← skip .colon
    let step ← if !more || (← atSymbol .closeSquare) then pure none else some <$> expr
    expect .closeSquare
    return .slice e start stop step
  else
    expect .closeSquare
    match start with
    | some key => return .item e key
    | none => fail "empty subscript"

def postfixes (expr simple : Parser Expr) : Nat → Expr → Parser Expr
  | 0, e => return e
  | fuel + 1, e => do
      match ← peek with
      | some (.symbol .dot) =>
          advance
          match ← peek with
          | some (.name n) =>
              advance
              postfixes expr simple fuel (.attr e n)
          | some (.int n) =>
              advance
              postfixes expr simple fuel (.item e (.int n))
          | _ => fail "expected identifier"
      | some (.symbol .openSquare) =>
          advance
          let e ← subscript expr e
          postfixes expr simple fuel e
      | some (.symbol .openParen) =>
          let args ← arguments expr simple
          postfixes expr simple fuel (.call e args)
      | _ => return e

def withPostfixes (expr simple : Parser Expr) (e : Expr) : Parser Expr := do
  postfixes expr simple (← get).length e

def signed (expr : Parser Expr) : Nat → Parser Expr
  | 0 => primary expr
  | fuel + 1 => do
      if ← skip .minus then return .neg (← signed expr fuel) else primary expr

def operand (expr simple : Parser Expr) : Parser Expr := do
  let e ← signed expr (← get).length
  withPostfixes expr simple e

def startsTestArgument : Option Token → Bool
  | some (.name n) => n ∉ ["and", "or", "else", "is"]
  | some (.text _) | some (.int _) | some (.float _) => true
  | some (.symbol s) => s ∈ [.plus, .minus, .openSquare, .openBrace]
  | _ => false

def testArguments (expr simple : Parser Expr) : Parser (List (ArgForm × Expr)) := do
  let t ← peek
  if isSymbol .openParen t then arguments expr simple
  else if startsTestArgument t then return [(.positional, ← operand expr simple)]
  else return []

def suffixes (expr simple : Parser Expr) : Nat → Expr → Parser Expr
  | 0, e => return e
  | fuel + 1, e => do
      let t ← peek
      if isSymbol .bar t then
        advance
        let n ← name
        let args ← if ← atSymbol .openParen then arguments expr simple else pure []
        suffixes expr simple fuel (.filter n e args)
      else if isName ["is"] t then
        advance
        let negated ← skipName "not"
        let n ← name
        let args ← testArguments expr simple
        let e := Expr.test n e args
        suffixes expr simple fuel (if negated then .not e else e)
      else return e

def unary (expr simple : Parser Expr) : Parser Expr := do
  let e ← operand expr simple
  suffixes expr simple (← get).length e

def symbolOp? (table : List (Symbol × BinaryOp)) : Token → Option (Expr → Expr → Expr)
  | .symbol s => (table.lookup s).map Expr.binary
  | _ => none

def nameOp? (name : String) (build : Expr → Expr → Expr) : Token → Option (Expr → Expr → Expr)
  | .name n => if n = name then some build else none
  | _ => none

def arithmetic : List (List (Symbol × BinaryOp)) :=
  [[(.doubleStar, .pow)],
    [(.star, .mul), (.slash, .div), (.doubleSlash, .floorDiv), (.percent, .mod)],
    [(.tilde, .concat)],
    [(.plus, .add), (.minus, .sub)]]

def sum (unary : Parser Expr) : Parser Expr :=
  arithmetic.foldl (fun operand table => level (symbolOp? table) operand) unary

def comparisonOps : List (Symbol × BinaryOp) :=
  [(.eq, .eq), (.ne, .ne), (.lt, .lt), (.le, .le), (.gt, .gt), (.ge, .ge)]

def comparisons (sum : Parser Expr) : Nat → Expr → Parser Expr
  | 0, left => return left
  | fuel + 1, left => do
      match ← peek with
      | some t =>
          match (symbolOp? comparisonOps t).or (nameOp? "in" (Expr.binary .isIn) t) with
          | some build =>
              advance
              let right ← sum
              comparisons sum fuel (build left right)
          | none =>
              if isName ["not"] (some t) then
                advance
                if ← skipName "in" then
                  let right ← sum
                  comparisons sum fuel (.not (.binary .isIn left right))
                else fail "expected in"
              else return left
      | none => return left

def comparison (sum : Parser Expr) : Parser Expr := do
  let left ← sum
  comparisons sum (← get).length left

def negation (comparison : Parser Expr) : Nat → Parser Expr
  | 0 => comparison
  | fuel + 1 => do
      if ← skipName "not" then return .not (← negation comparison fuel) else comparison

def negated (comparison : Parser Expr) : Parser Expr := do
  negation comparison (← get).length

def conjunction (operand : Parser Expr) : Parser Expr := level (nameOp? "and" .and) operand

def disjunction (operand : Parser Expr) : Parser Expr := level (nameOp? "or" .or) operand

def conditions (simple : Parser Expr) : Nat → Expr → Parser Expr
  | 0, e => return e
  | fuel + 1, e => do
      if ← skipName "if" then
        let test ← simple
        if ← skipName "else" then
          let first ← simple
          let other ← conditions simple fuel first
          conditions simple fuel (.cond test e (some other))
        else conditions simple fuel (.cond test e none)
      else return e

def conditional (simple : Parser Expr) : Parser Expr := do
  let e ← simple
  conditions simple (← get).length e

def maxNesting : Nat := 150

def simple : Nat → Parser Expr
  | 0 => fail "template exceeds maximum recursion limits"
  | depth + 1 =>
      let inner := simple depth
      let expr := conditional inner
      disjunction (conjunction (negated (comparison (sum (unary expr inner)))))

def expression : Parser Expr := conditional (simple maxNesting)

end Parser

def parse (code : String) : Except Fault Expr := do
  let (e, rest) ← Parser.expression (Token.scan code.toList)
  match rest with
  | [] => return e
  | .bad fault :: _ => throw fault
  | _ => throw (.syntaxError "unexpected input after expression")

def check (code : String) : Except String Unit :=
  match parse code with
  | .ok _ => .ok ()
  | .error fault => .error fault.error.message

end Haml.Expr
