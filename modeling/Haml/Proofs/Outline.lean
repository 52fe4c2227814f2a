import Haml.Document
import Haml.Proofs.Outcome
/-! Outlines: the nodes of a forest in the order of its lines, and how lines join a forest one by
one. -/

namespace Haml

mutual

/-- The nodes of a tree, each with its depth, parents before their children. -/
def Node.preorder (depth : Nat) : Node → List (Nat × Node)
  | ⟨kind, line, children⟩ =>
      (depth, ⟨kind, line, children⟩) :: Forest.preorderAt (depth + 1) children

def Forest.preorderAt (depth : Nat) : List Node → List (Nat × Node)
  | [] => []
  | n :: rest => n.preorder depth ++ Forest.preorderAt depth rest

end

def Forest.preorder (forest : Forest) : List (Nat × Node) := Forest.preorderAt 0 forest

theorem Forest.preorderAt_append (depth : Nat) (ns others : List Node) :
    preorderAt depth (ns ++ others) = preorderAt depth ns ++ preorderAt depth others := by
  induction ns with
  | nil => rfl
  | cons n ns ih => rw [List.cons_append, preorderAt, preorderAt, ih, List.append_assoc]

theorem Forest.preorderAt_singleton (depth : Nat) (n : Node) :
    preorderAt depth [n] = n.preorder depth := by
  rw [preorderAt, preorderAt, List.append_nil]

theorem Forest.mem_preorderAt {depth : Nat} {ns : List Node} {p : Nat × Node}
    (member : p ∈ preorderAt depth ns) : ∃ n ∈ ns, p ∈ n.preorder depth := by
  induction ns with
  | nil => cases member
  | cons n ns ih =>
      rw [preorderAt] at member
      rcases List.mem_append.mp member with here | there
      · exact ⟨n, List.mem_cons_self .., here⟩
      · obtain ⟨m, among, inside⟩ := ih there
        exact ⟨m, List.mem_cons_of_mem n among, inside⟩

def NodeKind.MayNest : NodeKind → Prop
  | .tag t => t.content = none ∧ t.selfClosing = false
  | .script _ => True
  | .comment c => c.text = none
  | .text _ | .output .. | .doctype _ | .filter .. | .silentComment => False

theorem NodeKind.mayNest_of_nestingFault?_eq_none {kind : NodeKind}
    (allowed : kind.nestingFault? = none) : kind.MayNest := by
  cases kind with
  | tag t =>
      simp only [nestingFault?] at allowed
      split at allowed
      · cases allowed
      · next empty =>
          split at allowed
          · cases allowed
          · next opened => exact ⟨by simpa using empty, by simpa using opened⟩
  | script code => trivial
  | comment c =>
      simp only [nestingFault?] at allowed
      split at allowed
      · cases allowed
      · next empty =>
          simp only [Bool.not_eq_true, Option.isSome_eq_false_iff, Option.isNone_iff_eq_none]
            at empty
          exact empty
  | text text => cases allowed
  | output code escaping => cases allowed
  | doctype argument => cases allowed
  | filter name body => cases allowed
  | silentComment => cases allowed

inductive Node.WellNested : Node → Prop
  | intro {kind : NodeKind} {line : Nat} {children : List Node} :
      (children ≠ [] → kind.MayNest) → (∀ n ∈ children, n.WellNested) →
      Node.WellNested ⟨kind, line, children⟩

theorem Node.WellNested.addChild {n child : Node} (nested : n.WellNested)
    (inside : child.WellNested) (allowed : n.kind.MayNest) : (n.addChild child).WellNested := by
  obtain ⟨-, below⟩ := nested
  refine .intro (fun _ => allowed) fun m member => ?_
  rcases List.mem_append.mp member with before | last
  · exact below m before
  · obtain rfl := List.mem_singleton.mp last
    exact inside

theorem Node.WellNested.mayNest {n : Node} (nested : n.WellNested) (depth : Nat) :
    ∀ p ∈ n.preorder depth, p.2.children ≠ [] → p.2.kind.MayNest := by
  induction nested generalizing depth with
  | intro allowed _ ih =>
      intro p member
      rw [Node.preorder] at member
      rcases List.mem_cons.mp member with rfl | inside
      · exact allowed
      · obtain ⟨m, among, found⟩ := Forest.mem_preorderAt inside
        exact ih m among (depth + 1) p found

/-- What a node says of its line: the number, the depth of nesting, and what stands there. -/
structure Entry where
  line : Nat
  depth : Nat
  kind : NodeKind

def Entry.of (p : Nat × Node) : Entry := ⟨p.2.line, p.1, p.2.kind⟩

def Node.entries (depth : Nat) (n : Node) : List Entry := (n.preorder depth).map Entry.of

def Forest.entries (forest : Forest) : List Entry := forest.preorder.map Entry.of

theorem Node.entries_addChild (depth : Nat) (n child : Node) :
    (n.addChild child).entries depth = n.entries depth ++ child.entries (depth + 1) := by
  obtain ⟨kind, line, children⟩ := n
  simp only [entries, addChild, preorder, Forest.preorderAt_append, Forest.preorderAt_singleton,
    List.map_cons, List.map_append, List.cons_append]
  rfl

namespace Outline

def pathEntries : List Node → List Entry
  | [] => []
  | n :: path => pathEntries path ++ n.entries path.length

def entries (o : Outline) : List Entry := Forest.entries o.roots ++ pathEntries o.path

/-- Outlines that can be extended to well-nested forests. -/
structure WellNested (o : Outline) : Prop where
  roots : ∀ n ∈ o.roots, n.WellNested
  path : ∀ n ∈ o.path, n.WellNested
  parents : ∀ n ∈ o.path.tail, n.kind.MayNest

theorem entries_close (o : Outline) : o.close.entries = o.entries := by
  obtain ⟨roots, path⟩ := o
  match path with
  | [] => rfl
  | [n] =>
      simp only [close, entries, pathEntries, Forest.entries, Forest.preorder,
        Forest.preorderAt_append, Forest.preorderAt_singleton, List.map_append, List.append_nil]
      rfl
  | n :: parent :: path =>
      simp only [close, entries, pathEntries, Node.entries_addChild, List.length_cons,
        List.append_assoc]

theorem length_path_close (o : Outline) : o.close.path.length = o.path.length - 1 := by
  obtain ⟨roots, path⟩ := o
  match path with
  | [] => rfl
  | [n] => rfl
  | n :: parent :: path => rfl

theorem WellNested.close {o : Outline} (nested : o.WellNested) : o.close.WellNested := by
  obtain ⟨roots, path⟩ := o
  obtain ⟨done, opened, parents⟩ := nested
  match path with
  | [] => exact ⟨done, opened, parents⟩
  | [n] =>
      refine ⟨fun m member => ?_, nofun, nofun⟩
      rcases List.mem_append.mp member with before | last
      · exact done m before
      · obtain rfl := List.mem_singleton.mp last
        exact opened m (List.mem_cons_self ..)
  | n :: parent :: path =>
      have allowed := parents parent (List.mem_cons_self ..)
      have outer : ∀ m ∈ path, m.WellNested := fun m member =>
        opened m (List.mem_cons_of_mem n (List.mem_cons_of_mem parent member))
      refine ⟨done, fun m member => ?_, fun m member => ?_⟩
      · rcases List.mem_cons.mp member with rfl | above
        · exact (opened parent (List.mem_cons_of_mem n (List.mem_cons_self ..))).addChild
            (opened n (List.mem_cons_self ..)) allowed
        · exact outer m above
      · exact parents m (List.mem_cons_of_mem parent member)

theorem closeTo_induction {P : Outline → Prop} (closes : ∀ o, P o → P o.close) {o : Outline}
    (start : P o) (depth : Nat) : P (o.closeTo depth) := by
  unfold closeTo
  induction o.path.length - depth with
  | zero => exact start
  | succ count ih => exact closes _ ih

theorem entries_closeTo (o : Outline) (depth : Nat) : (o.closeTo depth).entries = o.entries :=
  closeTo_induction (P := fun o' => o'.entries = o.entries)
    (fun o' same => (entries_close o').trans same) rfl depth

theorem length_path_repeat_close (o : Outline) (count : Nat) :
    (Nat.repeat close count o).path.length = o.path.length - count := by
  induction count with
  | zero => rfl
  | succ count ih =>
      rw [Nat.repeat, length_path_close, ih]
      omega

theorem length_path_closeTo (o : Outline) (depth : Nat) :
    (o.closeTo depth).path.length = min o.path.length depth := by
  rw [closeTo, length_path_repeat_close]
  omega

/-- A line that may be nested stands below as many open nodes as its depth says. -/
theorem descend_ok {o next : Outline} {depth line : Nat} (nested : o.WellNested)
    (descends : o.descend depth line = .ok next) :
    next.entries = o.entries ∧ next.path.length = depth ∧ next.WellNested ∧
      ∀ n ∈ next.path, n.kind.MayNest := by
  unfold descend at descends
  split at descends
  · cases descends
  · next deep =>
      simp only at descends
      split at descends
      · cases descends
      · next allowed =>
          cases descends
          have closed : (o.closeTo depth).WellNested :=
            closeTo_induction (fun _ nested => nested.close) nested depth
          refine ⟨entries_closeTo o depth, ?_, closed, fun n member => ?_⟩
          · rw [length_path_closeTo]
            omega
          · cases path : (o.closeTo depth).path with
            | nil =>
                rw [path] at member
                cases member
            | cons top others =>
                rw [path] at member allowed
                rcases List.mem_cons.mp member with rfl | above
                · exact NodeKind.mayNest_of_nestingFault?_eq_none allowed
                · refine closed.parents n ?_
                  rw [path]
                  exact above

theorem entries_push (o : Outline) (kind : NodeKind) (line : Nat) :
    (o.push ⟨kind, line, []⟩).entries = o.entries ++ [⟨line, o.path.length, kind⟩] := by
  rw [entries, push, pathEntries, entries, List.append_assoc]
  rfl

theorem WellNested.push {o : Outline} (nested : o.WellNested)
    (allowed : ∀ n ∈ o.path, n.kind.MayNest) (kind : NodeKind) (line : Nat) :
    (o.push ⟨kind, line, []⟩).WellNested := by
  refine ⟨nested.roots, fun n member => ?_, allowed⟩
  rcases List.mem_cons.mp member with rfl | above
  · exact .intro (fun filled => absurd rfl filled) nofun
  · exact nested.path n above

theorem entries_finish (o : Outline) : Forest.entries o.finish = o.entries := by
  have closed := length_path_closeTo o 0
  rw [Nat.min_zero, List.length_eq_zero_iff] at closed
  rw [← entries_closeTo o 0, entries, closed, pathEntries, List.append_nil]
  rfl

theorem wellNested_finish {o : Outline} (nested : o.WellNested) :
    ∀ n ∈ o.finish, n.WellNested :=
  (closeTo_induction (P := WellNested) (fun _ nested => nested.close) nested 0).roots

end Outline

end Haml
