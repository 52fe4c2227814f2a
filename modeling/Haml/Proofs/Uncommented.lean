import Haml.Proofs.Emission
import Haml.Proofs.Structure
/-! Silent comments: they are compiled to nothing, and no instruction changes with them except those
of a tag that holds nothing else, which opens and closes around them instead of being one element. -/

namespace Haml

mutual

/-- A node without the silent comments nested in it. -/
def Node.uncommented : Node → Node
  | ⟨kind, line, children⟩ => ⟨kind, line, Forest.uncommented children⟩

def Forest.uncommented : Forest → Forest
  | [] => []
  | n :: rest =>
      if n.kind = .silentComment then Forest.uncommented rest
      else n.uncommented :: Forest.uncommented rest

end

/-- Whether a tag that is compiled, the node itself or one nested in it, has nothing but silent
comments nested in it. -/
inductive Node.Hollow : Node → Prop
  | here {t : Tag} {line : Nat} {children : List Node} : children ≠ [] →
      (∀ n ∈ children, n.kind = .silentComment) → Hollow ⟨.tag t, line, children⟩
  | tag {t : Tag} {line : Nat} {children : List Node} {n : Node} : n ∈ children → n.Hollow →
      Hollow ⟨.tag t, line, children⟩
  | script {code : String} {line : Nat} {children : List Node} {n : Node} : n ∈ children → n.Hollow →
      Hollow ⟨.script code, line, children⟩
  | comment {c : Comment} {line : Nat} {children : List Node} {n : Node} : c.text = none →
      n ∈ children → n.Hollow → Hollow ⟨.comment c, line, children⟩

theorem Forest.uncommented_eq_nil {ns : List Node} :
    Forest.uncommented ns = [] ↔ ∀ n ∈ ns, n.kind = .silentComment := by
  induction ns with
  | nil => simp [Forest.uncommented]
  | cons n rest ih =>
      rw [Forest.uncommented, List.forall_mem_cons]
      split
      · next silent => rw [ih, and_iff_right silent]
      · next visible => exact ⟨nofun, fun both => absurd both.1 visible⟩

theorem Node.not_hollow_of_silentComment {n : Node} (silent : n.kind = .silentComment) :
    ¬ n.Hollow := by
  intro hollow
  cases hollow <;> cases silent

mutual

def Instruction.count : Instruction → Nat
  | .script _ _ body => Instruction.countAll body + 1
  | _ => 1

def Instruction.countAll : List Instruction → Nat
  | [] => 0
  | i :: rest => i.count + Instruction.countAll rest

end

namespace Instruction

theorem countAll_append (is others : List Instruction) :
    countAll (is ++ others) = countAll is + countAll others := by
  induction is with
  | nil => rw [List.nil_append, countAll, Nat.zero_add]
  | cons i rest ih => rw [List.cons_append, countAll, countAll, ih, Nat.add_assoc]

theorem countAll_enclosed {first last : Instruction} (inner : List Instruction)
    (start : first.count = 1) (stop : last.count = 1) :
    countAll (first :: inner ++ [last]) = countAll inner + 2 := by
  rw [countAll_append, countAll, countAll, countAll, start, stop]
  omega

end Instruction

namespace Compile

open Instruction (count countAll countAll_append countAll_enclosed)

variable {o : Options}

theorem nodes_cons_of_silentComment {n : Node} (silent : n.kind = .silentComment) (depth : Nat)
    (rest : List Node) : nodes o depth (n :: rest) = nodes o depth rest := by
  obtain ⟨kind, line, children⟩ := n
  cases silent
  rw [nodes, node]
  cases nodes o depth rest <;> rfl

/-- Where no tag is hollow, the nodes without their comments are compiled to the same instructions. -/
theorem uncommented_eq (o : Options) :
    (∀ depth n, ¬ n.Hollow → node o depth n.uncommented = node o depth n) ∧
      ∀ depth ns, (∀ n ∈ ns, ¬ n.Hollow) →
        nodes o depth (Forest.uncommented ns) = nodes o depth ns := by
  have both := node.mutual_induct
    (fun depth n => ¬ n.Hollow → node o depth n.uncommented = node o depth n)
    (fun depth ns => (∀ n ∈ ns, ¬ n.Hollow) →
      nodes o depth (Forest.uncommented ns) = nodes o depth ns)
    ?tag ?text ?output ?script ?inlineComment ?comment ?silentComment ?filter ?doctype ?nil ?cons
  · exact both
  case tag =>
    intro depth t line children ih solid
    have same := ih fun n member hollow => solid (.tag member hollow)
    have empty : (Forest.uncommented children).isEmpty = children.isEmpty := by
      by_cases blank : children = []
      · subst blank
        rfl
      · have filled : Forest.uncommented children ≠ [] := fun nil =>
          solid (.here blank (Forest.uncommented_eq_nil.mp nil))
        rw [List.isEmpty_eq_false_iff.mpr blank, List.isEmpty_eq_false_iff.mpr filled]
    rw [Node.uncommented, node, node, empty, same]
  case script =>
    intro depth code line children ih solid
    rw [Node.uncommented, node, node, ih fun n member hollow => solid (.script member hollow)]
  case comment =>
    intro depth c line children text ih solid
    rw [Node.uncommented, node, node, text]
    simp only [ih fun n member hollow => solid (.comment text member hollow)]
  case inlineComment =>
    intro depth c line children text written _
    rw [Node.uncommented, node, node, written]
  case text | output | silentComment | filter | doctype =>
    intros
    rw [Node.uncommented, node, node]
  case nil =>
    intros
    rw [Forest.uncommented]
  case cons =>
    intro depth n rest here others solid
    obtain ⟨first, more⟩ := List.forall_mem_cons.mp solid
    rw [Forest.uncommented]
    split
    · next silent => rw [others more, nodes_cons_of_silentComment silent]
    · rw [nodes, nodes, here first, others more]

mutual

theorem Emits.count_uncommented {depth : Nat} {n : Node} {is js : List Instruction} :
    Emits o depth n is → node o depth n.uncommented = .ok js →
      countAll js ≤ countAll is ∧ (n.Hollow → countAll js < countAll is)
  | .element _ _, other => by
      rw [Node.uncommented, node] at other
      obtain ⟨compiled, -, rest⟩ := bind_ok other
      obtain ⟨inner, -, done⟩ := bind_ok rest
      cases done
      refine ⟨Nat.le_refl _, ?_⟩
      rintro (⟨filled, -⟩ | ⟨member, -⟩)
      · exact absurd rfl filled
      · cases member
  | .nest _ _ nested, other => by
      rw [Node.uncommented, node] at other
      obtain ⟨compiled, -, rest⟩ := bind_ok other
      split at rest
      · obtain ⟨inner, -, done⟩ := bind_ok rest
        cases done
        rw [countAll_enclosed _ rfl rfl]
        exact ⟨Nat.le_add_left .., fun _ => Nat.lt_add_left _ Nat.one_lt_two⟩
      · next filled =>
          obtain ⟨inner, within, done⟩ := bind_ok rest
          cases done
          obtain ⟨most, fewer⟩ := nested.count_uncommented within
          rw [countAll_enclosed _ rfl rfl, countAll_enclosed _ rfl rfl]
          refine ⟨Nat.add_le_add_right most 2, fun hollow => ?_⟩
          cases hollow with
          | here _ silent =>
              rw [Forest.uncommented_eq_nil.mpr silent] at filled
              exact absurd rfl filled
          | tag member inside => exact Nat.add_lt_add_right (fewer ⟨_, member, inside⟩) 2
  | .script evaluated body, other => by
      rw [Node.uncommented, node] at other
      obtain ⟨inner, within, done⟩ := bind_ok other
      simp only [evaluated] at done
      cases done
      obtain ⟨most, fewer⟩ := body.count_uncommented within
      refine ⟨Nat.add_le_add_right most 1, ?_⟩
      rintro (_ | _ | ⟨member, inside⟩)
      exact Nat.add_lt_add_right (fewer ⟨_, member, inside⟩) 1
  | .suppressedScript suppressed body, other => by
      rw [Node.uncommented, node] at other
      obtain ⟨inner, within, done⟩ := bind_ok other
      simp only [suppressed] at done
      cases done
      obtain ⟨most, fewer⟩ := body.count_uncommented within
      exact ⟨most, fun | .script member inside => fewer ⟨_, member, inside⟩⟩
  | .comment bare nested, other => by
      rw [Node.uncommented, node, bare] at other
      obtain ⟨inner, within, done⟩ := bind_ok other
      cases done
      obtain ⟨most, fewer⟩ := nested.count_uncommented within
      rw [countAll_enclosed _ rfl rfl, countAll_enclosed _ rfl rfl]
      refine ⟨Nat.add_le_add_right most 2, ?_⟩
      rintro (_ | _ | _ | ⟨-, member, inside⟩)
      exact Nat.add_lt_add_right (fewer ⟨_, member, inside⟩) 2
  | .inlineComment written, other => by
      rw [Node.uncommented, node, written] at other
      cases other
      refine ⟨Nat.le_refl _, ?_⟩
      rintro (_ | _ | _ | ⟨bare, -, -⟩)
      cases written.symm.trans bare
  | .text written, other => by
      rw [Node.uncommented, node, written] at other
      cases other
      exact ⟨Nat.le_refl _, nofun⟩
  | .output evaluated, other => by
      rw [Node.uncommented, node, evaluated] at other
      cases other
      exact ⟨Nat.le_refl _, nofun⟩
  | .suppressedOutput suppressed, other => by
      rw [Node.uncommented, node, suppressed] at other
      cases other
      exact ⟨Nat.le_refl _, nofun⟩
  | .silentComment, other => by
      rw [Node.uncommented, node] at other
      cases other
      exact ⟨Nat.le_refl _, nofun⟩
  | .filter found, other => by
      rw [Node.uncommented, node, found] at other
      cases other
      exact ⟨Nat.le_refl _, nofun⟩
  | .doctype, other => by
      rw [Node.uncommented, node] at other
      cases other
      exact ⟨Nat.le_refl _, nofun⟩

theorem EmitsAll.count_uncommented {depth : Nat} {ns : List Node} {is js : List Instruction} :
    EmitsAll o depth ns is → nodes o depth (Forest.uncommented ns) = .ok js →
      countAll js ≤ countAll is ∧ ((∃ n ∈ ns, n.Hollow) → countAll js < countAll is)
  | .nil, other => by
      rw [Forest.uncommented, nodes] at other
      cases other
      exact ⟨Nat.le_refl _, fun ⟨_, member, _⟩ => by cases member⟩
  | .cons first others, other => by
      rw [Forest.uncommented] at other
      split at other
      · next silent =>
          obtain ⟨most, fewer⟩ := others.count_uncommented other
          rw [countAll_append]
          refine ⟨Nat.le_add_left_of_le most, fun ⟨n, member, hollow⟩ => ?_⟩
          rcases List.mem_cons.mp member with rfl | later
          · exact absurd hollow (Node.not_hollow_of_silentComment silent)
          · exact Nat.lt_add_left _ (fewer ⟨n, later, hollow⟩)
      · rw [nodes] at other
        obtain ⟨here, compiled, rest⟩ := bind_ok other
        obtain ⟨more, compiledMore, done⟩ := bind_ok rest
        cases done
        obtain ⟨most, fewer⟩ := first.count_uncommented compiled
        obtain ⟨mostLater, fewerLater⟩ := others.count_uncommented compiledMore
        rw [countAll_append, countAll_append]
        refine ⟨Nat.add_le_add most mostLater, fun ⟨n, member, hollow⟩ => ?_⟩
        rcases List.mem_cons.mp member with rfl | later
        · exact Nat.add_lt_add_of_lt_of_le (fewer hollow) mostLater
        · exact Nat.add_lt_add_of_le_of_lt most (fewerLater ⟨n, later, hollow⟩)

end

abbrev FailAlike {α : Type} : Except Error α → Except Error α → Prop := InStep fun _ _ => True

theorem failAlike_bind {α β : Type} {x y : Except Error α} (alike : FailAlike x y)
    {f g : α → Except Error β} (rest : ∀ a b, FailAlike (f a) (g b)) :
    FailAlike (x >>= f) (y >>= g) := alike.bind fun a b _ => rest a b

theorem failAlike_tag {depth line : Nat} {t : Tag} {children : List Node}
    (nested : children ≠ [] → t.content = none)
    (inside : FailAlike (nodes o (innerDepth t depth) (Forest.uncommented children))
      (nodes o (innerDepth t depth) children)) :
    FailAlike (node o depth ⟨.tag t, line, Forest.uncommented children⟩)
      (node o depth ⟨.tag t, line, children⟩) := by
  rw [node, node]
  refine (InStep.same (R := Eq) (fun _ => rfl) _).bind ?_
  rintro compiled _ rfl
  by_cases leaf : children = []
  · subst leaf
    exact .same (fun _ => trivial) _
  · have filled : ¬ children.isEmpty = true := by simpa using leaf
    rw [if_neg filled]
    split
    · next hollow =>
        -- A tag around comments has no content that could fail, and neither could the comments.
        rw [List.isEmpty_iff.mp hollow, nodes] at inside
        rw [content, nested leaf]
        generalize nodes o (innerDepth t depth) children = inner at inside
        cases inside
        exact .ok trivial
    · exact failAlike_bind inside fun _ _ => .ok trivial

/-- Nodes are compiled without their comments exactly if they are with them, up to the same error. -/
theorem uncommented_failAlike (o : Options) :
    (∀ depth n, n.WellNested → FailAlike (node o depth n.uncommented) (node o depth n)) ∧
      ∀ depth ns, (∀ n ∈ ns, n.WellNested) →
        FailAlike (nodes o depth (Forest.uncommented ns)) (nodes o depth ns) := by
  have both := node.mutual_induct
    (fun depth n => n.WellNested → FailAlike (node o depth n.uncommented) (node o depth n))
    (fun depth ns => (∀ n ∈ ns, n.WellNested) →
      FailAlike (nodes o depth (Forest.uncommented ns)) (nodes o depth ns))
    ?tag ?text ?output ?script ?inlineComment ?comment ?silentComment ?filter ?doctype ?nil ?cons
  · exact both
  case tag =>
    intro depth t line children ih nested
    obtain ⟨allowed, below⟩ := nested
    rw [Node.uncommented]
    exact failAlike_tag (fun filled => (allowed filled).1) (ih below)
  case script =>
    intro depth code line children ih nested
    obtain ⟨-, below⟩ := nested
    rw [Node.uncommented, node, node]
    exact failAlike_bind (ih below) fun _ _ => .ok trivial
  case comment =>
    intro depth c line children bare ih nested
    obtain ⟨-, below⟩ := nested
    rw [Node.uncommented, node, node, bare]
    exact failAlike_bind (ih below) fun _ _ => .ok trivial
  case inlineComment =>
    intro depth c line children text written _
    rw [Node.uncommented, node, node, written]
    exact .ok trivial
  case text | output | silentComment | filter | doctype =>
    intros
    rw [Node.uncommented, node, node]
    exact .same (fun _ => trivial) _
  case nil =>
    intros
    exact .ok trivial
  case cons =>
    intro depth n rest here others nested
    obtain ⟨first, more⟩ := List.forall_mem_cons.mp nested
    rw [Forest.uncommented]
    split
    · next silent =>
        rw [nodes_cons_of_silentComment silent]
        exact others more
    · rw [nodes, nodes]
      refine failAlike_bind (here first) fun _ _ => ?_
      exact failAlike_bind (others more) fun _ _ => .ok trivial

end Compile

/-- A forest that compiles gives the same instructions without its silent comments exactly if no tag
that is compiled has nothing but such comments nested in it. One that is nested as documents are
fails to compile exactly if it does without them, with the same error. -/
theorem Forest.compile_uncommented (forest : Forest) (o : Options) :
    (∀ t, forest.compile o = .ok t →
      (Forest.compile (Forest.uncommented forest) o = .ok t ↔ ∀ n ∈ forest, ¬ n.Hollow)) ∧
    ((∀ n ∈ forest, n.WellNested) →
      ∀ e, Forest.compile (Forest.uncommented forest) o = .error e ↔ forest.compile o = .error e) := by
  constructor
  · intro t compiled
    constructor
    · intro same n member hollow
      obtain ⟨is, instructions, done⟩ := bind_ok compiled
      obtain ⟨js, others, again⟩ := bind_ok same
      cases done
      cases again
      obtain ⟨-, fewer⟩ := ((Compile.emits o).2 0 forest is instructions).count_uncommented others
      exact Nat.lt_irrefl _ (fewer ⟨n, member, hollow⟩)
    · intro solid
      rw [← compiled, Forest.compile, Forest.compile, (Compile.uncommented_eq o).2 0 forest solid]
  · intro nested e
    have alike := (Compile.uncommented_failAlike o).2 0 forest nested
    exact (Compile.failAlike_bind alike fun _ _ => .ok trivial).eq_error_iff e

def annotatedBreak : Forest :=
  [⟨.tag ⟨"br", [], false, false, false, none⟩, 1, [⟨.silentComment, 2, []⟩]⟩]

/-- The tag is opened and closed around the note, and closes itself without it. -/
theorem annotatedBreak_hollow :
    ∃ t t', Document.read .auto "%br\n  -# note" = .ok annotatedBreak ∧
      Forest.compile annotatedBreak .standard = .ok t ∧
      Forest.compile (Forest.uncommented annotatedBreak) .standard = .ok t' ∧
      t.instructions = [.openTag 0 ⟨"br", .empty, [], false, false⟩ 1, .closeTag 0 "br" false false] ∧
      t'.instructions = [.element 0 ⟨"br", .empty, [], false, false⟩ .selfClosing 1] :=
  ⟨_, _, by decide +kernel, rfl, rfl, rfl, rfl⟩

end Haml
