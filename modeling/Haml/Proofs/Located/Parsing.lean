import Haml.Expr.Parser
import Haml.Proofs.Outcome
/-! Code that is no expression: why it is none is a matter of its form alone. -/

namespace Haml

/-- Whether a fault is one of form: the code is no expression, whatever its variables are. -/
def Fault.Formal : Fault → Prop
  | .syntaxError _ | .badEscape => True
  | _ => False

namespace Expr

def Token.Formal : Token → Prop
  | .bad fault => fault.Formal
  | _ => True

namespace Token

theorem Formal.ite {c : Prop} [Decidable c] {t u : Token} (yes : t.Formal) (no : u.Formal) :
    (if c then t else u).Formal := by
  split
  · exact yes
  · exact no

theorem intToken_formal (radix : Nat) (digits : List Char) : (intToken radix digits).Formal :=
  .ite trivial trivial

theorem floatToken_formal (digits : List Char) : (floatToken digits).Formal := by
  unfold floatToken
  split
  · exact trivial
  · exact trivial

theorem number_formal (cs : List Char) : (number cs).1.Formal :=
  .ite trivial (.ite (floatToken_formal _) (intToken_formal _ _))

theorem textToken_formal (inner : List Char) : (textToken inner).Formal := by
  refine .ite ?_ trivial
  split
  · exact trivial
  · exact trivial

theorem first_formal (c : Char) (cs : List Char) : (first c cs).1.Formal := by
  unfold first
  split
  · exact trivial
  · split
    · exact trivial
    · split
      · split
        · exact textToken_formal _
        · exact trivial
      · split
        · exact number_formal _
        · split
          · exact trivial
          · exact trivial

theorem scan_formal (cs : List Char) : ∀ t ∈ scan cs, t.Formal := by
  fun_induction scan cs with
  | case1 => simp
  | case2 c cs blank ih => exact ih
  | case3 c cs text fault taken here =>
      have formal := first_formal c cs
      rw [here] at formal
      exact List.forall_mem_singleton.mpr formal
  | case4 c cs text token taken here other ih =>
      have formal := first_formal c cs
      rw [other] at formal
      exact List.forall_mem_cons.mpr ⟨formal, ih⟩

end Token

def Parser.Formal {α : Type} (p : Parser α) : Prop :=
  ∀ ts, (∀ t ∈ ts, t.Formal) → match p ts with
    | .ok (_, rest) => ∀ t ∈ rest, t.Formal
    | .error fault => fault.Formal

namespace Parser

namespace Formal

variable {α β : Type} {p : Parser α}

theorem pure (a : α) : Formal (Pure.pure a : Parser α) := fun _ formal => formal

theorem fail (detail : String) : Formal (Parser.fail detail : Parser α) := by
  intro ts _
  exact trivial

theorem bind {f : α → Parser β} (first : Formal p) (next : ∀ a, Formal (f a)) :
    Formal (p >>= f) := by
  intro ts formal
  have here := first ts formal
  simp only [Bind.bind, StateT.bind]
  cases ran : p ts with
  | error fault =>
      rw [ran] at here
      exact here
  | ok result =>
      obtain ⟨a, rest⟩ := result
      rw [ran] at here
      exact next a rest here

theorem map {f : α → β} (first : Formal p) : Formal (f <$> p) := by
  rw [map_eq_pure_bind]
  exact first.bind fun a => pure (f a)

theorem get {f : List Token → Parser β} (next : ∀ ts, (∀ t ∈ ts, t.Formal) → Formal (f ts)) :
    Formal (MonadState.get >>= f) := by
  intro ts formal
  exact next ts formal ts formal

theorem set {ts : List Token} (formal : ∀ t ∈ ts, t.Formal) {f : PUnit → Parser β}
    (next : Formal (f ⟨⟩)) : Formal (MonadStateOf.set ts >>= f) := by
  intro _ _
  exact next ts formal

theorem ite {c : Prop} [Decidable c] {q : Parser α} (yes : Formal p) (no : Formal q) :
    Formal (if c then p else q) := by
  split
  · exact yes
  · exact no

theorem iteBind {c : Prop} [Decidable c] {q : Parser α} {f : α → Parser β} (yes : Formal p)
    (no : Formal q) (next : ∀ a, Formal (f a)) : Formal (if c then p >>= f else q >>= f) :=
  ite (yes.bind next) (no.bind next)

end Formal

theorem advance_formal : Formal advance := by
  intro ts formal
  cases ts with
  | nil => exact formal
  | cons t rest => exact (List.forall_mem_cons.mp formal).2

theorem peek_formal : Formal peek := by
  refine .get fun ts formal => ?_
  cases ts with
  | nil => exact .pure none
  | cons t rest =>
      cases t with
      | bad fault =>
          intro _ _
          exact formal (.bad fault) (List.mem_cons_self ..)
      | _ => exact .pure _

theorem atSymbol_formal (s : Symbol) : Formal (atSymbol s) := peek_formal.bind fun _ => .pure _

theorem skip_formal (s : Symbol) : Formal (skip s) :=
  (atSymbol_formal s).bind fun _ => .ite (advance_formal.bind fun _ => .pure true) (.pure false)

theorem skipName_formal (name : String) : Formal (skipName name) :=
  peek_formal.bind fun _ => .ite (advance_formal.bind fun _ => .pure true) (.pure false)

theorem expect_formal (s : Symbol) : Formal (expect s) :=
  (skip_formal s).bind fun _ => .ite (.pure ()) (.fail _)

theorem name_formal : Formal name := by
  refine peek_formal.bind fun t => ?_
  split
  · exact advance_formal.bind fun _ => .pure _
  · exact .fail _

section

variable {α : Type} {op? : Token → Option (Expr → Expr → Expr)} {operand : Parser Expr}

theorem chain_formal (formal : Formal operand) (fuel : Nat) (left : Expr) :
    Formal (chain op? operand fuel left) := by
  induction fuel generalizing left with
  | zero => exact .pure left
  | succ fuel ih =>
      refine peek_formal.bind fun t => ?_
      split
      · exact advance_formal.bind fun _ => formal.bind fun right => ih _
      · exact .pure left

theorem level_formal (formal : Formal operand) : Formal (level op? operand) :=
  formal.bind fun left => .get fun ts _ => chain_formal formal ts.length left

theorem items_formal {item : Parser α} (formal : Formal item) (close : Symbol) (fuel : Nat)
    (start : Bool) : Formal (items close item fuel start) := by
  induction fuel generalizing start with
  | zero => exact .fail _
  | succ fuel ih =>
      have rest : Formal (do return (← item) :: (← items close item fuel false)) :=
        formal.bind fun x => (ih false).bind fun xs => .pure _
      refine (skip_formal close).bind fun _ => .ite (.pure []) ?_
      cases start with
      | true => exact rest
      | false =>
          refine (expect_formal .comma).bind fun _ => (skip_formal close).bind fun _ => ?_
          exact .ite (.pure []) rest

theorem itemsTo_formal {item : Parser α} (formal : Formal item) (close : Symbol) :
    Formal (itemsTo close item) :=
  .get fun _ _ => items_formal formal close _ true

end

theorem formal_of_textRun {s : String} {ts : List Token} (formal : ∀ t ∈ ts, t.Formal) :
    ∀ t ∈ (textRun s ts).2, t.Formal := by
  induction ts generalizing s with
  | nil => exact formal
  | cons t rest ih =>
      cases t with
      | text more => exact ih (List.forall_mem_cons.mp formal).2
      | _ => exact formal

section

variable {expr simple : Parser Expr}

theorem group_formal (formal : Formal expr) : Formal (group expr) := by
  refine (skip_formal .closeParen).bind fun _ => .ite (.pure _) ?_
  refine formal.bind fun e => (atSymbol_formal .comma).bind fun _ => .ite ?_ ?_
  · exact .get fun _ _ => (items_formal formal .closeParen _ false).bind fun _ => .pure _
  · exact (expect_formal .closeParen).bind fun _ => .pure e

theorem entry_formal (formal : Formal expr) : Formal (entry expr) :=
  formal.bind fun _ => (expect_formal .colon).bind fun _ => formal.bind fun _ => .pure _

theorem primary_formal (formal : Formal expr) : Formal (primary expr) := by
  refine peek_formal.bind fun t => ?_
  split
  · exact .fail _
  · refine advance_formal.bind fun _ => ?_
    split
    · exact .ite (.pure _) (.ite (.pure _) (.ite (.pure _) (.pure _)))
    · exact .get fun ts fine => .set (formal_of_textRun fine) (.pure _)
    · exact .pure _
    · exact .pure _
    · exact group_formal formal
    · exact (itemsTo_formal formal .closeSquare).bind fun _ => .pure _
    · exact (itemsTo_formal (entry_formal formal) .closeBrace).bind fun _ => .pure _
    · exact .fail _

variable (formal : Formal expr) (formalSimple : Formal simple)

include formal formalSimple

theorem argument_formal (named : Bool) : Formal (argument expr simple named) := by
  have refused (e : Expr) : Formal (do
      if named then fail "non-keyword arg after keyword arg" else return (ArgForm.positional, e)) :=
    .ite (.fail _) (.pure _)
  refine (skip_formal .doubleStar).bind fun _ => .ite (formal.bind fun _ => .pure _) ?_
  refine (skip_formal .star).bind fun _ => .ite (formal.bind fun _ => .pure _) ?_
  refine formal.bind fun e => ?_
  split
  · refine (skip_formal .assign).bind fun _ => .ite (formalSimple.bind fun _ => .pure _) ?_
    exact refused _
  · exact refused _

theorem argumentsFrom_formal (fuel : Nat) (start named : Bool) :
    Formal (argumentsFrom expr simple fuel start named) := by
  induction fuel generalizing start named with
  | zero => exact .fail _
  | succ fuel ih =>
      have rest : Formal (do
          let arg ← argument expr simple named
          let rest ← argumentsFrom expr simple fuel false (named || isNamedForm arg.1)
          return arg :: rest) :=
        (argument_formal formal formalSimple named).bind fun _ => (ih _ _).bind fun _ => .pure _
      refine (skip_formal .closeParen).bind fun _ => .ite (.pure []) ?_
      cases start with
      | true => exact rest
      | false =>
          refine (expect_formal .comma).bind fun _ => (skip_formal .closeParen).bind fun _ => ?_
          exact .ite (.pure []) rest

theorem arguments_formal : Formal (arguments expr simple) :=
  (expect_formal .openParen).bind fun _ =>
    .get fun _ _ => argumentsFrom_formal formal formalSimple _ true false

omit formalSimple in
theorem subscript_formal (e : Expr) : Formal (subscript expr e) := by
  have given : Formal (some <$> expr) := .map formal
  refine (atSymbol_formal .colon).bind fun _ => .iteBind (.pure none) given fun start => ?_
  refine (skip_formal .colon).bind fun _ => .ite ?_ ?_
  · refine (atSymbol_formal _).bind fun _ => (atSymbol_formal _).bind fun _ => ?_
    refine .iteBind (.pure none) given fun stop => ?_
    refine (skip_formal .colon).bind fun _ => (atSymbol_formal _).bind fun _ => ?_
    refine .iteBind (.pure none) given fun step => ?_
    exact (expect_formal .closeSquare).bind fun _ => .pure _
  · refine (expect_formal .closeSquare).bind fun _ => ?_
    split
    · exact .pure _
    · exact .fail _

theorem postfixes_formal (fuel : Nat) (e : Expr) : Formal (postfixes expr simple fuel e) := by
  induction fuel generalizing e with
  | zero => exact .pure e
  | succ fuel ih =>
      refine peek_formal.bind fun t => ?_
      split
      · refine advance_formal.bind fun _ => peek_formal.bind fun t => ?_
        split
        · exact advance_formal.bind fun _ => ih _
        · exact advance_formal.bind fun _ => ih _
        · exact .fail _
      · exact advance_formal.bind fun _ => (subscript_formal formal e).bind fun e => ih e
      · exact (arguments_formal formal formalSimple).bind fun _ => ih _
      · exact .pure e

omit formalSimple in
theorem signed_formal (fuel : Nat) : Formal (signed expr fuel) := by
  induction fuel with
  | zero => exact primary_formal formal
  | succ fuel ih =>
      refine (skip_formal .minus).bind fun _ => .ite ?_ (primary_formal formal)
      exact ih.bind fun _ => .pure _

theorem operand_formal : Formal (operand expr simple) :=
  .get fun _ _ => (signed_formal formal _).bind fun _ =>
    .get fun _ _ => postfixes_formal formal formalSimple _ _

theorem testArguments_formal : Formal (testArguments expr simple) := by
  refine peek_formal.bind fun _ => .ite (arguments_formal formal formalSimple) (.ite ?_ (.pure []))
  exact (operand_formal formal formalSimple).bind fun _ => .pure _

theorem suffixes_formal (fuel : Nat) (e : Expr) : Formal (suffixes expr simple fuel e) := by
  induction fuel generalizing e with
  | zero => exact .pure e
  | succ fuel ih =>
      refine peek_formal.bind fun _ => .ite ?_ (.ite ?_ (.pure e))
      · refine advance_formal.bind fun _ => name_formal.bind fun _ => ?_
        refine (atSymbol_formal .openParen).bind fun _ => .ite ?_ ?_
        · exact (arguments_formal formal formalSimple).bind fun _ => ih _
        · exact ih _
      · refine advance_formal.bind fun _ => (skipName_formal "not").bind fun _ => ?_
        refine name_formal.bind fun _ => (testArguments_formal formal formalSimple).bind fun _ => ?_
        exact ih _

theorem unary_formal : Formal (unary expr simple) :=
  (operand_formal formal formalSimple).bind fun _ =>
    .get fun _ _ => suffixes_formal formal formalSimple _ _

end

section

variable {p : Parser Expr} (formal : Formal p)

include formal

theorem sum_formal : Formal (sum p) :=
  List.foldlRecOn arithmetic _ formal fun _ read _ _ => level_formal read

theorem comparisons_formal (fuel : Nat) (left : Expr) : Formal (comparisons p fuel left) := by
  induction fuel generalizing left with
  | zero => exact .pure left
  | succ fuel ih =>
      refine peek_formal.bind fun t => ?_
      split
      · split
        · exact advance_formal.bind fun _ => formal.bind fun _ => ih _
        · refine .ite ?_ (.pure left)
          refine advance_formal.bind fun _ => (skipName_formal "in").bind fun _ => .ite ?_ (.fail _)
          exact formal.bind fun _ => ih _
      · exact .pure left

theorem comparison_formal : Formal (comparison p) :=
  formal.bind fun _ => .get fun _ _ => comparisons_formal formal _ _

theorem negation_formal (fuel : Nat) : Formal (negation p fuel) := by
  induction fuel with
  | zero => exact formal
  | succ fuel ih =>
      exact (skipName_formal "not").bind fun _ => .ite (ih.bind fun _ => .pure _) formal

theorem negated_formal : Formal (negated p) := .get fun _ _ => negation_formal formal _

theorem conditions_formal (fuel : Nat) (e : Expr) : Formal (conditions p fuel e) := by
  induction fuel generalizing e with
  | zero => exact .pure e
  | succ fuel ih =>
      refine (skipName_formal "if").bind fun _ => .ite ?_ (.pure e)
      refine formal.bind fun _ => (skipName_formal "else").bind fun _ => .ite ?_ (ih _)
      exact formal.bind fun _ => (ih _).bind fun _ => ih _

theorem conditional_formal : Formal (conditional p) :=
  formal.bind fun _ => .get fun _ _ => conditions_formal formal _ _

end

theorem simple_formal (depth : Nat) : Formal (simple depth) := by
  induction depth with
  | zero => exact .fail _
  | succ depth ih =>
      have operands := comparison_formal (sum_formal (unary_formal (conditional_formal ih) ih))
      exact level_formal (level_formal (negated_formal operands))

theorem expression_formal : Formal expression := conditional_formal (simple_formal maxNesting)

end Parser

/-- Code that is no expression is so by a fault of form. -/
theorem parse_formal (code : String) : Fails Fault.Formal (parse code) := by
  intro fault failed
  have read := Parser.expression_formal _ (Token.scan_formal code.toList)
  unfold parse at failed
  cases ran : Parser.expression (Token.scan code.toList) with
  | error found =>
      rw [ran] at read failed
      cases failed
      exact read
  | ok result =>
      obtain ⟨e, rest⟩ := result
      rw [ran] at read failed
      simp only [bind, Except.bind] at failed
      split at failed
      · cases failed
      · cases failed
        exact read _ (List.mem_cons_self ..)
      · cases failed
        exact trivial

end Expr

end Haml
