import Haml.Proofs.Alone
import Haml.Proofs.Arrival
import Haml.Proofs.Printing.Lines
/-! Printing: forests written out as lines, and the reading of such lines as the same forests. -/

namespace Haml

namespace Outline

def attach (o : Outline) (nodes : List Node) : Outline :=
  match o.path with
  | [] => ⟨o.roots ++ nodes, []⟩
  | parent :: path => ⟨o.roots, { parent with children := parent.children ++ nodes } :: path⟩

theorem attach_nil (o : Outline) : o.attach [] = o := by
  obtain ⟨roots, path⟩ := o
  cases path with
  | nil => rw [attach, List.append_nil]
  | cons parent path =>
      obtain ⟨kind, line, children⟩ := parent
      simp only [attach, List.append_nil]

theorem attach_attach (o : Outline) (nodes others : List Node) :
    (o.attach nodes).attach others = o.attach (nodes ++ others) := by
  obtain ⟨roots, path⟩ := o
  cases path with
  | nil => simp only [attach, List.append_assoc]
  | cons parent path => simp only [attach, List.append_assoc]

theorem kinds_attach (o : Outline) (nodes : List Node) :
    (o.attach nodes).path.map Node.kind = o.path.map Node.kind := by
  obtain ⟨roots, path⟩ := o
  cases path with
  | nil => rfl
  | cons parent path => rfl

theorem close_push (o : Outline) (n : Node) : (o.push n).close = o.attach [n] := by
  obtain ⟨roots, path⟩ := o
  cases path with
  | nil => rfl
  | cons parent path => rfl

theorem attach_push (o : Outline) (kind : NodeKind) (line : Nat) (nodes : List Node) :
    (o.push ⟨kind, line, []⟩).attach nodes = o.push ⟨kind, line, nodes⟩ := rfl

theorem closeTo_length (o : Outline) : o.closeTo o.path.length = o := by
  rw [closeTo, Nat.sub_self]
  rfl

theorem closeTo_of_succ {o : Outline} {depth : Nat} (deeper : depth + 1 ≤ o.path.length) :
    o.closeTo depth = (o.closeTo (depth + 1)).close := by
  have count : o.path.length - depth = (o.path.length - (depth + 1)) + 1 := by omega
  rw [closeTo, count, Nat.repeat, closeTo]

structure Admits (o : Outline) (depth : Nat) : Prop where
  deep : depth ≤ o.path.length
  allows : ∀ kind ∈ ((o.closeTo depth).path.map Node.kind).head?, kind.nestingFault? = none

theorem Admits.descend {o : Outline} {depth : Nat} (admits : o.Admits depth) (line : Nat) :
    o.descend depth line = .ok (o.closeTo depth) := by
  obtain ⟨deep, allows⟩ := admits
  unfold Outline.descend
  rw [if_neg (by omega)]
  cases path : (o.closeTo depth).path with
  | nil => simp only [path, List.head?_nil, Option.bind_none]
  | cons parent above =>
      have allowed : parent.kind.nestingFault? = none := by
        rw [path] at allows
        exact allows parent.kind rfl
      simp only [path, List.head?_cons, Option.bind_some, allowed]

theorem Admits.length_closeTo {o : Outline} {depth : Nat} (admits : o.Admits depth) :
    (o.closeTo depth).path.length = depth := by
  rw [length_path_closeTo]
  exact Nat.min_eq_right admits.deep

theorem Admits.closeTo_push {o : Outline} {depth : Nat} (admits : o.Admits depth) (n : Node) :
    ((o.closeTo depth).push n).closeTo (depth + 1) = (o.closeTo depth).push n := by
  have length : ((o.closeTo depth).push n).path.length = depth + 1 :=
    congrArg Nat.succ admits.length_closeTo
  rw [← length]
  exact closeTo_length _

theorem Admits.push {o : Outline} {depth : Nat} (admits : o.Admits depth) {n : Node}
    (allowed : n.kind.nestingFault? = none) : ((o.closeTo depth).push n).Admits (depth + 1) := by
  refine ⟨?_, fun kind member => ?_⟩
  · exact Nat.le_of_eq (congrArg Nat.succ admits.length_closeTo).symm
  · rw [admits.closeTo_push] at member
    cases member
    exact allowed

theorem repeat_close_succ (count : Nat) (o : Outline) :
    Nat.repeat close (count + 1) o = Nat.repeat close count o.close := by
  induction count with
  | zero => rfl
  | succ count ih => rw [Nat.repeat, ih, Nat.repeat]

theorem finish_push (o : Outline) (n : Node) : (o.push n).finish = (o.attach [n]).finish := by
  have same : (o.attach [n]).path.length = o.path.length := by
    have kinds := congrArg List.length (o.kinds_attach [n])
    simpa using kinds
  have length : (o.push n).path.length = o.path.length + 1 := rfl
  rw [finish, finish, closeTo, closeTo, same, length, Nat.sub_zero, Nat.sub_zero, repeat_close_succ,
    close_push]

end Outline

/-- A tree to be printed: a header, with blank lines above it, the lines of its raw block, and the
trees nested under it. -/
inductive Plan where
  | node (blanks : List (List Char)) (header : List Char) (body : List (List Char))
      (children : List Plan)

def NodeKind.withBody (body : List (List Char)) : NodeKind → NodeKind
  | .filter name _ => .filter name (String.ofList (List.intercalate ['\n'] body))
  | kind => kind

theorem NodeKind.nestingFault?_withBody (body : List (List Char)) (kind : NodeKind) :
    (kind.withBody body).nestingFault? = kind.nestingFault? := by
  cases kind with
  | filter name none => rfl
  | _ => rfl

namespace Plan

mutual

def lines (u : Indent) (depth : Nat) : Plan → List (List Char)
  | node blanks header body children =>
      blanks ++ (u.lead depth ++ header) ::
        (body.map (Line.inBlock u (depth + 1)) ++ forestLines u (depth + 1) children)

def forestLines (u : Indent) (depth : Nat) : List Plan → List (List Char)
  | [] => []
  | p :: plans => p.lines u depth ++ forestLines u depth plans

end

def print (u : Indent) (plans : List Plan) (blanks : List (List Char)) : String :=
  String.ofList (List.intercalate ['\n'] (forestLines u 0 plans ++ blanks))

/-- Trees that can be given back: each header can be read on its own, only those of filters have a
raw block, and only those that lines may be nested under have children. -/
inductive WellFormed : Plan → Prop
  | intro {blanks : List (List Char)} {text : List Char} {body : List (List Char)}
      {children : List Plan} {header : Header} :
      (∀ raw ∈ blanks, ∀ c ∈ raw, Text.isIndent c = true) → Line.IsText text →
      Header.alone text = .ok header →
      (body ≠ [] → ∃ name inner, header.kind = .filter name inner) → Line.IsBody body →
      (children ≠ [] → header.kind.nestingFault? = none) → (∀ p ∈ children, p.WellFormed) →
      WellFormed (node blanks text body children)

/-- Whether a tree is what has been printed: it has the same shape, each node is what its header is
on its own, and filters hold the lines of their raw blocks. -/
inductive Describes : Plan → Node → Prop
  | intro {blanks : List (List Char)} {text : List Char} {body : List (List Char)}
      {children : List Plan} {header : Header} {line : Nat} {nodes : List Node} :
      Header.alone text = .ok header → List.Forall₂ Describes children nodes →
      Describes (node blanks text body children) ⟨header.kind.withBody body, line, nodes⟩

variable {u : Indent} {depth : Nat}

theorem shallow_forestLines {plans : List Plan} {rest : List (List Char)}
    (formed : ∀ p ∈ plans, p.WellFormed) (shallow : Line.Shallow u depth rest) :
    Line.Shallow u depth (forestLines u depth plans ++ rest) := by
  cases plans with
  | nil => exact shallow
  | cons p plans =>
      obtain ⟨indent, isText, -⟩ := formed p (List.mem_cons_self ..)
      rw [forestLines, lines, List.append_assoc, List.append_assoc, List.cons_append]
      exact (Line.Shallow.header (Nat.le_refl depth) isText).append indent

/-- A printed header is read as what it is on its own, with the lines of its raw block. -/
theorem among_printed {unit : Option Indent} {kind : NodeKind} {body after : List (List Char)}
    (wide : Indent.Wide (some u)) (settled : Indent.Settled u unit depth)
    (filter : body ≠ [] → ∃ name inner, kind = .filter name inner) (isBody : Line.IsBody body)
    (shallow : kind.nestingFault? ≠ none → Line.Shallow u depth after) (number : Nat) :
    ∃ k later, Header.among unit number depth
        (body.map (Line.inBlock u (depth + 1)) ++ after) kind =
        .ok ⟨kind.withBody body, body.length + k, later⟩ ∧ Indent.Settled u later depth ∧
      ∀ raw ∈ after.take k, Text.allBlank raw = true := by
  by_cases filters : ∃ name inner, kind = .filter name inner
  · obtain ⟨name, inner, rfl⟩ := filters
    obtain ⟨k, later, taken, settles, blank⟩ :=
      isBody.takeBlock wide (shallow nofun) settled (number + 1)
    refine ⟨k, later, ?_, settles, blank⟩
    rw [Header.among, taken]
    rfl
  · obtain rfl : body = [] := by_contra fun filled => filters (filter filled)
    cases kind with
    | filter name inner => exact absurd ⟨name, inner, rfl⟩ filters
    | silentComment =>
        have blank := (shallow nofun).skipCount settled
        refine ⟨_, unit, ?_, settled, blank⟩
        rw [List.map_nil, List.nil_append, List.length_nil, Nat.zero_add]
        rfl
    | tag t => exact ⟨0, unit, rfl, settled, nofun⟩
    | text text => exact ⟨0, unit, rfl, settled, nofun⟩
    | script code => exact ⟨0, unit, rfl, settled, nofun⟩
    | output code escaping => exact ⟨0, unit, rfl, settled, nofun⟩
    | comment c => exact ⟨0, unit, rfl, settled, nofun⟩
    | doctype argument => exact ⟨0, unit, rfl, settled, nofun⟩

/-- What the reading of printed lines comes to: trees have joined those under the same parent. -/
structure Joins (u : Indent) (depth : Nat) (o : Outline) (nodes : List Node)
    (unit : Option Indent) (later : Outline) : Prop where
  fits : Indent.Fits u unit depth
  deep : depth ≤ later.path.length
  same : later.closeTo depth = (o.closeTo depth).attach nodes

theorem Joins.admits {o later : Outline} {nodes : List Node} {unit : Option Indent}
    (joins : Joins u depth o nodes unit later) (admits : o.Admits depth) : later.Admits depth := by
  refine ⟨joins.deep, ?_⟩
  rw [joins.same, Outline.kinds_attach]
  exact admits.allows

def Reads (u : Indent) (p : Plan) : Prop :=
  ∀ (depth number : Nat) (unit : Option Indent) (o : Outline) (rest : List (List Char)),
    Indent.Fits u unit depth → o.Admits depth → Line.Shallow u depth rest →
    ∃ settled later n, Joins u depth o [n] settled later ∧ p.Describes n ∧
      Document.readLines unit o number 0 (p.lines u depth ++ rest) =
        Document.readLines settled later (number + (p.lines u depth).length) 0 rest

/-- The lines of trees are read one tree after the other. -/
theorem reads_forestLines {plans : List Plan} (formed : ∀ p ∈ plans, p.WellFormed)
    (reads : ∀ p ∈ plans, p.Reads u) (number : Nat) {unit : Option Indent} {o : Outline}
    {rest : List (List Char)} (fits : Indent.Fits u unit depth) (deep : depth ≤ o.path.length)
    (admits : plans ≠ [] → o.Admits depth) (shallow : Line.Shallow u depth rest) :
    ∃ settled later nodes, Joins u depth o nodes settled later ∧
      List.Forall₂ Describes plans nodes ∧
      Document.readLines unit o number 0 (forestLines u depth plans ++ rest) =
        Document.readLines settled later (number + (forestLines u depth plans).length) 0 rest := by
  induction plans generalizing number unit o with
  | nil =>
      refine ⟨unit, o, [], ⟨fits, deep, ?_⟩, .nil, rfl⟩
      rw [Outline.attach_nil]
  | cons p plans ih =>
      obtain ⟨readsHere, readsRest⟩ := List.forall_mem_cons.mp reads
      obtain ⟨formedHere, formedRest⟩ := List.forall_mem_cons.mp formed
      have opened := admits (List.cons_ne_nil p plans)
      obtain ⟨settled, later, n, joins, describes, first⟩ :=
        readsHere depth number unit o _ fits opened (shallow_forestLines formedRest shallow)
      obtain ⟨last, final, nodes, joinsRest, describesRest, second⟩ :=
        ih formedRest readsRest (number + (p.lines u depth).length) joins.fits joins.deep
          fun _ => joins.admits opened
      refine ⟨last, final, n :: nodes, ⟨joinsRest.fits, joinsRest.deep, ?_⟩,
        .cons describes describesRest, ?_⟩
      · rw [joinsRest.same, joins.same, Outline.attach_attach]
        rfl
      · rw [forestLines, List.append_assoc, first, second, List.length_append, Nat.add_assoc]

/-- The line of a header is read as its node, and so are the lines below that it takes. -/
theorem readLines_among {text : List Char} {header found : Header} {after : List (List Char)}
    {unit first : Option Indent} {o : Outline} {number : Nat} (isText : Line.IsText text)
    (alone : Header.alone text = .ok header) (admits : o.Admits depth)
    (read : Line.read unit number (u.lead depth ++ text) = .ok (⟨number, depth, text⟩, first))
    (among : Header.among first number depth after header.kind = .ok found) :
    Document.readLines unit o number 0 ((u.lead depth ++ text) :: after) =
      Document.readLines found.unit ((o.closeTo depth).push ⟨found.kind, number, []⟩)
        (number + 1 + found.taken) 0 (after.drop found.taken) := by
  have node : Document.readNode unit o number (u.lead depth ++ text) after =
      .ok (⟨number, depth, text⟩, o.closeTo depth, found) := by
    rw [Document.readNode, read]
    simp only [bind, Except.bind]
    rw [admits.descend]
    simp only
    rw [Header.read_eq_among alone, among]
    rfl
  rw [Document.readLines_node isText.allBlank_lead, node]
  rfl

theorem readLines_header {text : List Char} {header : Header} {body after : List (List Char)}
    {unit : Option Indent} {o : Outline} (wide : Indent.Wide (some u)) (isText : Line.IsText text)
    (alone : Header.alone text = .ok header) (isBody : Line.IsBody body)
    (filter : body ≠ [] → ∃ name inner, header.kind = .filter name inner)
    (fits : Indent.Fits u unit depth) (admits : o.Admits depth)
    (shallow : header.kind.nestingFault? ≠ none → Line.Shallow u depth after) (number : Nat) :
    ∃ settled, Indent.Settled u settled depth ∧
      Document.readLines unit o number 0 ((u.lead depth ++ text) ::
        (body.map (Line.inBlock u (depth + 1)) ++ after)) =
        Document.readLines settled
          ((o.closeTo depth).push ⟨header.kind.withBody body, number, []⟩)
          (number + 1 + body.length) 0 after := by
  obtain ⟨first, read, settles⟩ := Line.read_lead wide fits isText
  obtain ⟨k, settled, among, settledAfter, blank⟩ :=
    among_printed wide settles filter isBody shallow number
  refine ⟨settled, settledAfter, ?_⟩
  have rest : (body.map (Line.inBlock u (depth + 1)) ++ after).drop (body.length + k) =
      after.drop k := by
    rw [← List.drop_drop, List.drop_left' (List.length_map _)]
  rw [readLines_among isText alone admits read among]
  simp only
  rw [rest, ← Nat.add_assoc, ← Document.readLines_taken, Document.readLines_taken_blank blank]

theorem reads_node {blanks : List (List Char)} {text : List Char} {body : List (List Char)}
    {children : List Plan} {header : Header} (wide : Indent.Wide (some u))
    (indent : ∀ raw ∈ blanks, ∀ c ∈ raw, Text.isIndent c = true) (isText : Line.IsText text)
    (alone : Header.alone text = .ok header)
    (filter : body ≠ [] → ∃ name inner, header.kind = .filter name inner)
    (isBody : Line.IsBody body) (allowed : children ≠ [] → header.kind.nestingFault? = none)
    (formed : ∀ p ∈ children, p.WellFormed) (reads : ∀ p ∈ children, p.Reads u) :
    (node blanks text body children).Reads u := by
  intro depth number unit o rest fits admits shallow
  have blank : ∀ raw ∈ blanks, Text.allBlank raw = true := fun raw member =>
    Line.allBlank_of_isIndent (indent raw member)
  -- A header with a raw block has no children, so that its block ends at the tree that follows.
  have below (fault : header.kind.nestingFault? ≠ none) :
      Line.Shallow u depth (forestLines u (depth + 1) children ++ rest) := by
    by_cases leaf : children = []
    · subst leaf
      exact shallow
    · exact absurd (allowed leaf) fault
  obtain ⟨settled, settles, first⟩ := readLines_header wide isText alone isBody filter fits admits
    below (number + blanks.length)
  have whole := admits.closeTo_push
  have deep : depth + 1 ≤ ((o.closeTo depth).push ⟨header.kind.withBody body,
      number + blanks.length, []⟩).path.length :=
    Nat.le_of_eq (congrArg Nat.succ admits.length_closeTo).symm
  have parent : children ≠ [] → ((o.closeTo depth).push ⟨header.kind.withBody body,
      number + blanks.length, []⟩).Admits (depth + 1) := fun filled =>
    admits.push ((NodeKind.nestingFault?_withBody body header.kind).trans (allowed filled))
  obtain ⟨last, later, nodes, joins, describes, second⟩ :=
    reads_forestLines formed reads (number + blanks.length + 1 + body.length) settles.fits deep
      parent (shallow.mono (Nat.le_succ depth))
  refine ⟨last, later, ⟨header.kind.withBody body, number + blanks.length, nodes⟩,
    ⟨joins.fits.pred, Nat.le_of_succ_le joins.deep, ?_⟩, .intro alone describes, ?_⟩
  · rw [Outline.closeTo_of_succ joins.deep, joins.same, whole, Outline.attach_push,
      Outline.close_push]
  · rw [lines, List.append_assoc, Document.readLines_blanks blank, List.cons_append,
      List.append_assoc, first, second]
    simp only [List.length_append, List.length_cons, List.length_map]
    congr 1
    omega

theorem WellFormed.reads {p : Plan} (formed : p.WellFormed) (wide : Indent.Wide (some u)) :
    p.Reads u := by
  induction formed with
  | intro indent isText alone filter isBody allowed formed ih =>
      exact reads_node wide indent isText alone filter isBody allowed formed ih

def IsLine (raw : List Char) : Prop := '\n' ∉ raw ∧ raw.getLast? ≠ some '\r'

theorem isLine_of_isIndent {raw : List Char} (indent : ∀ c ∈ raw, Text.isIndent c = true) :
    IsLine raw := by
  constructor
  · intro member
    cases indent '\n' member
  · intro last
    cases indent '\r' (List.mem_of_getLast? last)

theorem isLine_lead {raw : List Char} (isLine : IsLine raw) (filled : raw ≠ []) :
    IsLine (u.lead depth ++ raw) := by
  obtain ⟨whole, last⟩ := isLine
  have lead := isLine_of_isIndent (u.isIndent_of_mem depth)
  constructor
  · intro member
    rcases List.mem_append.mp member with before | after
    · exact lead.1 before
    · exact whole after
  · rw [List.getLast?_append_of_ne_nil _ filled]
    exact last

theorem isLine_inBlock {raw : List Char} (isLine : IsLine raw) :
    IsLine (Line.inBlock u depth raw) := by
  by_cases empty : raw = []
  · subst empty
    exact ⟨nofun, nofun⟩
  · rw [Line.inBlock, List.isEmpty_eq_false_iff.mpr empty, if_neg Bool.false_ne_true]
    exact isLine_lead isLine empty

theorem mem_forestLines {plans : List Plan} {raw : List Char}
    (member : raw ∈ forestLines u depth plans) : ∃ p ∈ plans, raw ∈ p.lines u depth := by
  induction plans with
  | nil => cases member
  | cons p plans ih =>
      rw [forestLines] at member
      rcases List.mem_append.mp member with here | there
      · exact ⟨p, List.mem_cons_self .., here⟩
      · obtain ⟨q, among, inside⟩ := ih there
        exact ⟨q, List.mem_cons_of_mem p among, inside⟩

theorem WellFormed.isLine {p : Plan} (formed : p.WellFormed) :
    ∀ depth, ∀ raw ∈ p.lines u depth, IsLine raw := by
  induction formed with
  | @intro blanks text body children _ indent isText _ _ isBody _ _ ih =>
      intro depth raw member
      rw [lines] at member
      rcases List.mem_append.mp member with blank | member
      · exact isLine_of_isIndent (indent raw blank)
      rcases List.mem_cons.mp member with rfl | member
      · refine isLine_lead ⟨isText.whole, fun last => ?_⟩ isText.starts.ne_nil
        cases isText.last '\r' last
      rcases List.mem_append.mp member with block | below
      · obtain ⟨line, among, rfl⟩ := List.mem_map.mp block
        exact isLine_inBlock (isBody.whole line among)
      · obtain ⟨child, among, inside⟩ := mem_forestLines below
        exact ih child among (depth + 1) raw inside

end Plan

namespace Document

theorem readLines_print {lines : List (List Char)}
    (isLine : ∀ raw ∈ lines, Plan.IsLine raw) (unit : Option Indent) :
    readLines unit .empty 1 0 (Text.physicalLines (List.intercalate ['\n'] lines)) =
      readLines unit .empty 1 0 lines := by
  by_cases empty : lines = []
  · subst empty
    rfl
  · rw [Text.physicalLines_intercalate empty isLine]

/-- A forest that has been printed is read again as it was, whatever it is indented by, and whether
or not that is preset. -/
theorem read_print {u : Indent} (wide : Indent.Wide (some u)) {plans : List Plan}
    (formed : ∀ p ∈ plans, p.WellFormed) {blanks : List (List Char)}
    (indent : ∀ raw ∈ blanks, ∀ c ∈ raw, Text.isIndent c = true) {unit : IndentUnit}
    (chosen : unit = .auto ∨ unit = u.option) :
    ∃ forest, Document.read unit (Plan.print u plans blanks) = .ok forest ∧
      List.Forall₂ Plan.Describes plans forest := by
  have wideUnit : Indent.Fits u (Indent.preset unit) 0 := by
    rcases chosen with rfl | rfl
    · exact .inr ⟨rfl, Nat.zero_le 1⟩
    · exact .inl (Indent.preset_option wide)
  have isLine : ∀ raw ∈ Plan.forestLines u 0 plans ++ blanks, Plan.IsLine raw := by
    intro raw member
    rcases List.mem_append.mp member with printed | blank
    · obtain ⟨p, among, inside⟩ := Plan.mem_forestLines printed
      exact (formed p among).isLine 0 raw inside
    · exact Plan.isLine_of_isIndent (indent raw blank)
  have admits : Outline.empty.Admits 0 := ⟨Nat.zero_le _, nofun⟩
  have shallow : Line.Shallow u 0 (blanks ++ []) := Line.Shallow.nil.append indent
  obtain ⟨settled, later, nodes, joins, describes, reads⟩ :=
    Plan.reads_forestLines formed (fun p among => (formed p among).reads wide) 1 wideUnit
      (Nat.zero_le _) (fun _ => admits) shallow
  refine ⟨nodes, ?_, describes⟩
  have blank : ∀ raw ∈ blanks, Text.allBlank raw = true := fun raw member =>
    Line.allBlank_of_isIndent (indent raw member)
  calc Document.read unit (Plan.print u plans blanks)
      = readLines (Indent.preset unit) .empty 1 0 (Plan.forestLines u 0 plans ++ blanks) := by
        rw [Document.read, Plan.print, String.toList_ofList, readLines_print isLine]
    _ = readLines settled later (1 + (Plan.forestLines u 0 plans).length) 0 (blanks ++ []) := by
        rw [← reads, List.append_nil]
    _ = .ok later.finish := by
        rw [readLines_blanks blank]
        rfl
    _ = .ok nodes := by
        rw [Outline.finish, joins.same]
        rfl

def samplePlans : List Plan :=
  [.node [] "%p".toList [] [.node [" \t".toList] "= x".toList [] []],
    .node [[]] ":plain".toList ["a".toList, [], "  b".toList] []]

theorem samplePlans_read :
    Plan.print (.spaces 2) samplePlans [[]] = "%p\n \t\n  = x\n\n:plain\n  a\n\n    b\n" ∧
      ∃ forest, Document.read .auto (Plan.print (.spaces 2) samplePlans [[]]) = .ok forest ∧
        List.Forall₂ Plan.Describes samplePlans forest := by
  refine ⟨by rfl, read_print ?_ ?_ ?_ (.inl rfl)⟩
  · intro width same
    cases same
    decide
  · have empty : Line.IsBody [] := ⟨nofun, nofun, nofun, nofun⟩
    have block : Line.IsBody ["a".toList, [], "  b".toList] := by
      refine ⟨by decide, by decide, ?_, by decide⟩
      rintro raw ⟨⟩
      exact ⟨'a', rfl, rfl⟩
    have paragraph : Header.alone "%p".toList =
        .ok ⟨.tag ⟨"p", [], false, false, false, none⟩, 0, none⟩ := by
      simp [Header.alone, Header.read, Line.sigil, Sigil.classify, Tag.read, Tag.takeName,
        Tag.takeShorthands, Tag.takeLists, Tag.inlineContent?, Tag.isNameChar, bind, Except.bind,
        pure, Except.pure]
    have output : Header.alone "= x".toList = .ok ⟨.output "x" .standard, 0, none⟩ := rfl
    have plain : Header.alone ":plain".toList = .ok ⟨.filter "plain" "", 0, none⟩ := rfl
    have inner : (Plan.node [" \t".toList] "= x".toList [] []).WellFormed :=
      .intro (List.forall_mem_singleton.mpr (List.all_eq_true.mp rfl))
        ⟨by decide, ⟨'=', rfl, rfl⟩, by rintro c ⟨⟩; rfl⟩ output (by simp) empty (by simp) (by simp)
    refine List.forall_mem_cons.mpr ⟨?_, List.forall_mem_singleton.mpr ?_⟩
    · exact .intro (by simp) ⟨by decide, ⟨'%', rfl, rfl⟩, by rintro c ⟨⟩; rfl⟩ paragraph (by simp)
        empty (fun _ => rfl) (List.forall_mem_singleton.mpr inner)
    · exact .intro (by simp) ⟨by decide, ⟨':', rfl, rfl⟩, by rintro c ⟨⟩; rfl⟩ plain
        (fun _ => ⟨_, _, rfl⟩) block (by simp) (by simp)
  · exact List.forall_mem_singleton.mpr (by simp)

end Document

end Haml
