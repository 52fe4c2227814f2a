import Haml.Compile
import Haml.Proofs.Outcome
/-! The instructions that a node is compiled to, one rule for each way a node can be compiled. -/

namespace Haml.Compile

mutual

/-- `Emits o depth n is` says that the node `n` is compiled to the instructions `is`. -/
inductive Emits (o : Options) : Nat → Node → List Instruction → Prop
  | element {depth : Nat} {t : Tag} {line : Nat} {compiled : CompiledTag} {inner : ElementContent} :
      tag o t line = .ok compiled → content o t line = .ok inner →
      Emits o depth ⟨.tag t, line, []⟩ [.element depth compiled inner line]
  | nest {depth : Nat} {t : Tag} {line : Nat} {compiled : CompiledTag} {children : List Node}
      {inner : List Instruction} :
      tag o t line = .ok compiled → children ≠ [] → EmitsAll o (innerDepth t depth) children inner →
      Emits o depth ⟨.tag t, line, children⟩
        (.openTag depth compiled line :: inner ++ [.closeTag depth t.name t.trimInner t.trimOuter])
  | text {depth : Nat} {text : String} {line : Nat} {children : List Node} {i : Instruction} :
      textLine o depth text line = .ok i → Emits o depth ⟨.text text, line, children⟩ [i]
  | output {depth : Nat} {code : String} {escaping : Escaping} {line : Nat} {children : List Node} :
      o.suppressEval = false →
      Emits o depth ⟨.output code escaping, line, children⟩
        [.output depth code (escapes o escaping) line]
  | suppressedOutput {depth : Nat} {code : String} {escaping : Escaping} {line : Nat}
      {children : List Node} :
      o.suppressEval = true → Emits o depth ⟨.output code escaping, line, children⟩ []
  | script {depth : Nat} {code : String} {line : Nat} {children : List Node}
      {body : List Instruction} :
      o.suppressEval = false → EmitsAll o depth children body →
      Emits o depth ⟨.script code, line, children⟩ [.script code line body]
  | suppressedScript {depth : Nat} {code : String} {line : Nat} {children : List Node}
      {body : List Instruction} :
      o.suppressEval = true → EmitsAll o depth children body →
      Emits o depth ⟨.script code, line, children⟩ body
  | inlineComment {depth : Nat} {c : Comment} {text : String} {line : Nat} {children : List Node} :
      c.text = some text →
      Emits o depth ⟨.comment c, line, children⟩
        [.text depth (commentStart c ++ " " ++ text ++ " " ++ commentEnd c)]
  | comment {depth : Nat} {c : Comment} {line : Nat} {children : List Node}
      {inner : List Instruction} :
      c.text = none → EmitsAll o (depth + 1) children inner →
      Emits o depth ⟨.comment c, line, children⟩
        (.text depth (commentStart c) :: inner ++ [.text depth (commentEnd c)])
  | silentComment {depth line : Nat} {children : List Node} :
      Emits o depth ⟨.silentComment, line, children⟩ []
  | filter {depth : Nat} {name body : String} {line : Nat} {children : List Node} {f : Filter} :
      filter o name line = .ok f →
      Emits o depth ⟨.filter name body, line, children⟩ [.filter depth name f body line]
  | doctype {depth : Nat} {argument : String} {line : Nat} {children : List Node} :
      Emits o depth ⟨.doctype argument, line, children⟩
        ((Doctype.text? argument o.format o.attributeWrapper).map (.text depth ·)).toList

inductive EmitsAll (o : Options) : Nat → List Node → List Instruction → Prop
  | nil {depth : Nat} : EmitsAll o depth [] []
  | cons {depth : Nat} {n : Node} {rest : List Node} {first others : List Instruction} :
      Emits o depth n first → EmitsAll o depth rest others →
      EmitsAll o depth (n :: rest) (first ++ others)

end

theorem emits (o : Options) :
    (∀ depth n is, node o depth n = .ok is → Emits o depth n is) ∧
      ∀ depth ns is, nodes o depth ns = .ok is → EmitsAll o depth ns is := by
  have both := node.mutual_induct
    (fun depth n => ∀ is, node o depth n = .ok is → Emits o depth n is)
    (fun depth ns => ∀ is, nodes o depth ns = .ok is → EmitsAll o depth ns is)
    ?tag ?text ?output ?script ?inlineComment ?comment ?silentComment ?filter ?doctype ?nil ?cons
  · exact both
  case tag =>
    intro depth t line children ih is h
    rw [node] at h
    obtain ⟨compiled, htag, rest⟩ := bind_ok h
    clear h
    by_cases leaf : children = []
    · subst leaf
      obtain ⟨inner, hcontent, done⟩ := bind_ok rest
      cases done
      exact .element htag hcontent
    · rw [if_neg (by simpa using leaf)] at rest
      obtain ⟨inner, hinner, done⟩ := bind_ok rest
      cases done
      exact .nest htag leaf (ih inner hinner)
  case text =>
    intro depth text line children is h
    rw [node] at h
    obtain ⟨i, htext, h⟩ := bind_ok h
    cases h
    exact .text htext
  case output =>
    intro depth code escaping line children is h
    rw [node] at h
    cases suppressed : o.suppressEval <;> simp only [suppressed] at h <;> cases h
    · exact .output suppressed
    · exact .suppressedOutput suppressed
  case script =>
    intro depth code line children ih is h
    rw [node] at h
    obtain ⟨body, hbody, h⟩ := bind_ok h
    cases suppressed : o.suppressEval <;> simp only [suppressed] at h <;> cases h
    · exact .script suppressed (ih body hbody)
    · exact .suppressedScript suppressed (ih body hbody)
  case inlineComment =>
    intro depth c line children text htext is h
    rw [node] at h
    simp only [htext] at h
    cases h
    exact .inlineComment htext
  case comment =>
    intro depth c line children htext ih is h
    rw [node] at h
    simp only [htext] at h
    obtain ⟨inner, hinner, h⟩ := bind_ok h
    cases h
    exact .comment htext (ih inner hinner)
  case silentComment =>
    intro depth line children is h
    rw [node] at h
    cases h
    exact .silentComment
  case filter =>
    intro depth name body line children is h
    rw [node] at h
    obtain ⟨f, hfilter, h⟩ := bind_ok h
    cases h
    exact .filter hfilter
  case doctype =>
    intro depth argument line children is h
    rw [node] at h
    cases h
    exact .doctype
  case nil =>
    intro depth is h
    rw [nodes] at h
    cases h
    exact .nil
  case cons =>
    intro depth n rest ihn ihrest is h
    rw [nodes] at h
    obtain ⟨first, hfirst, h⟩ := bind_ok h
    obtain ⟨others, hothers, h⟩ := bind_ok h
    cases h
    exact .cons (ihn first hfirst) (ihrest others hothers)

/-- What makes all instructions satisfy `P`, where the nodes they come from satisfy `N`. -/
structure Carries (o : Options) (N : Node → Prop) (P : Instruction → Prop) : Prop where
  children : ∀ {kind line children}, N ⟨kind, line, children⟩ → ∀ n ∈ children, N n
  element : ∀ {depth t line children compiled inner}, N ⟨.tag t, line, children⟩ →
    tag o t line = .ok compiled → content o t line = .ok inner →
    P (.element depth compiled inner line)
  openTag : ∀ {depth t line compiled}, tag o t line = .ok compiled →
    P (.openTag depth compiled line)
  closeTag : ∀ depth name trimInner trimOuter, P (.closeTag depth name trimInner trimOuter)
  text : ∀ depth text, P (.text depth text)
  textLine : ∀ {depth text line i}, textLine o depth text line = .ok i → P i
  output : ∀ {depth code escaping line children}, o.suppressEval = false →
    N ⟨.output code escaping, line, children⟩ → P (.output depth code (escapes o escaping) line)
  script : ∀ {code line body}, o.suppressEval = false → (∀ i ∈ body, P i) →
    P (.script code line body)
  filter : ∀ {depth name body line children f}, N ⟨.filter name body, line, children⟩ →
    filter o name line = .ok f → P (.filter depth name f body line)

section

variable {o : Options} {N : Node → Prop} {P : Instruction → Prop}

theorem forall_mem_enclosed {first last : Instruction} {inner : List Instruction} (start : P first)
    (inside : ∀ i ∈ inner, P i) (stop : P last) : ∀ i ∈ first :: inner ++ [last], P i := by
  refine List.forall_mem_append.mpr ⟨List.forall_mem_cons.mpr ⟨start, inside⟩, ?_⟩
  exact List.forall_mem_singleton.mpr stop

mutual

theorem Emits.all (carries : Carries o N P) {depth : Nat} {n : Node} {is : List Instruction} :
    Emits o depth n is → N n → ∀ i ∈ is, P i
  | .element opened filled, here =>
      List.forall_mem_singleton.mpr (carries.element here opened filled)
  | .nest opened _ nested, here =>
      forall_mem_enclosed (carries.openTag opened) (nested.all carries (carries.children here))
        (carries.closeTag ..)
  | .text written, _ => List.forall_mem_singleton.mpr (carries.textLine written)
  | .output evaluated, here => List.forall_mem_singleton.mpr (carries.output evaluated here)
  | .suppressedOutput _, _ => List.forall_mem_nil P
  | .script evaluated body, here =>
      List.forall_mem_singleton.mpr
        (carries.script evaluated (body.all carries (carries.children here)))
  | .suppressedScript _ body, here => body.all carries (carries.children here)
  | .inlineComment _, _ => List.forall_mem_singleton.mpr (carries.text ..)
  | .comment _ nested, here =>
      forall_mem_enclosed (carries.text ..) (nested.all carries (carries.children here))
        (carries.text ..)
  | .silentComment, _ => List.forall_mem_nil P
  | .filter found, here => List.forall_mem_singleton.mpr (carries.filter here found)
  | .doctype, _ => by
      intro i member
      obtain ⟨text, -, rfl⟩ := Option.map_eq_some_iff.mp (Option.mem_toList.mp member)
      exact carries.text ..

theorem EmitsAll.all (carries : Carries o N P) {depth : Nat} {ns : List Node}
    {is : List Instruction} :
    EmitsAll o depth ns is → (∀ n ∈ ns, N n) → ∀ i ∈ is, P i
  | .nil, _ => List.forall_mem_nil P
  | .cons first others, each => by
      obtain ⟨here, rest⟩ := List.forall_mem_cons.mp each
      exact List.forall_mem_append.mpr ⟨first.all carries here, others.all carries rest⟩

end

end

theorem tag_keeps {o : Options} {t : Tag} {line : Nat} {compiled : CompiledTag}
    (ok : tag o t line = .ok compiled) :
    compiled.name = t.name ∧ compiled.trimInner = t.trimInner ∧
      compiled.trimOuter = t.trimOuter := by
  obtain ⟨known, -, done⟩ := bind_ok ok
  cases done
  exact ⟨rfl, rfl, rfl⟩

theorem emitsAll_of_compile {forest : Forest} {o : Options} {t : Template}
    (compiled : forest.compile o = .ok t) :
    EmitsAll o 0 forest t.instructions ∧ t.id = o.templateId ∧ t.settings = o.renderSettings := by
  obtain ⟨is, his, h⟩ := bind_ok compiled
  cases h
  exact ⟨(emits o).2 0 forest is his, rfl, rfl⟩

end Haml.Compile
