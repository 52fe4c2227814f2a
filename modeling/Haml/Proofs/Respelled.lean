import Haml.Proofs.Ordered
import Haml.Proofs.Respelled.Documents
import Mathlib.Data.List.Forall2
/-! Respelled documents: which spellings of names make a difference to the data that a document
stands for. Those of properties make none, and those of nodes show in the keys. -/

namespace Haml.Kdl

/-- The name written as its value, without quotes. -/
def Name.bare (n : Name) : Name := ⟨n.value, n.value⟩

def Entry.bare (e : Entry) : Entry := ⟨e.name.map Name.bare, e.value⟩

mutual

/-- A node whose properties are bare, and whose name is respelled, as are the names of all nodes
below it. -/
def Node.respell (f : Name → Name) : Node → Node
  | ⟨name, entries, none⟩ => ⟨f name, entries.map Entry.bare, none⟩
  | ⟨name, entries, some nodes⟩ => ⟨f name, entries.map Entry.bare, some (respellAll f nodes)⟩

def respellAll (f : Name → Name) : List Node → List Node
  | [] => []
  | n :: nodes => n.respell f :: respellAll f nodes

end

def Document.bare (d : Document) : Document := respellAll Name.bare d

def Document.bareProperties (d : Document) : Document := respellAll id d

/-- Whether nodes side by side have names of different values, at every depth. -/
inductive Document.Distinct : Document → Prop
  | intro {d : Document} (apart : (d.map fun n => n.name.value).Nodup)
      (below : ∀ n ∈ d, ∀ nodes, n.children = some nodes → Distinct nodes) : Distinct d

section Respell

variable {f : Name → Name} {nodes others : List Node}

theorem Node.respell_eq (n : Node) :
    n.respell f = ⟨f n.name, n.entries.map Entry.bare, n.children.map (respellAll f)⟩ := by
  obtain ⟨name, entries, _ | nodes⟩ := n
  · rfl
  · rfl

theorem respellAll_eq_map (f : Name → Name) (nodes : List Node) :
    respellAll f nodes = nodes.map fun n => n.respell f := by
  induction nodes with
  | nil => rfl
  | cons n nodes ih => rw [respellAll, ih, List.map_cons]

theorem respellAll_eq_iff :
    respellAll f nodes = respellAll f others ↔
      List.Forall₂ (fun n other => n.respell f = other.respell f) nodes others := by
  rw [respellAll_eq_map, respellAll_eq_map, ← List.forall₂_eq_eq_eq, List.forall₂_map_left_iff,
    List.forall₂_map_right_iff]

theorem value_eq {n other : Node} (alike : n.respell Name.bare = other.respell Name.bare) :
    n.name.value = other.name.value := by
  rw [Node.respell_eq, Node.respell_eq] at alike
  exact congrArg (fun n => n.name.value) alike

theorem values_eq (alike : respellAll Name.bare nodes = respellAll Name.bare others) :
    nodes.map (fun n => n.name.value) = others.map fun n => n.name.value := by
  rw [← List.forall₂_eq_eq_eq, List.forall₂_map_left_iff, List.forall₂_map_right_iff]
  exact (respellAll_eq_iff.mp alike).imp fun n other => value_eq

end Respell

/-! The data of respelled documents -/

@[elab_as_elim]
theorem Node.nested_induction {motive : Node → Prop}
    (node : ∀ name entries children,
      (∀ nodes, children = some nodes → ∀ n ∈ nodes, motive n) → motive ⟨name, entries, children⟩)
    (n : Node) : motive n :=
  @Node.rec motive (fun children => ∀ nodes, children = some nodes → ∀ n ∈ nodes, motive n)
    (fun nodes => ∀ n ∈ nodes, motive n) node nofun
    (fun _ all _ same => Option.some.inj same ▸ all) nofun
    (fun _ _ first others => List.forall_mem_cons.mpr ⟨first, others⟩) n

theorem entriesDatum_several (e next : Entry) (entries : List Entry) :
    entriesDatum (e :: next :: entries) =
      if (e :: next :: entries).all fun e => e.name.isSome then
        .ofEntries ((e :: next :: entries).filterMap fun e =>
          e.name.map fun name => (name.value, e.value))
      else .list ((e :: next :: entries).map Entry.value) := by
  obtain ⟨_ | name, d⟩ := e
  · rfl
  · rfl

theorem entriesDatum_bare (entries : List Entry) :
    entriesDatum (entries.map Entry.bare) = entriesDatum entries := by
  rcases entries with _ | ⟨e, _ | ⟨next, entries⟩⟩
  · rfl
  · obtain ⟨_ | name, d⟩ := e
    · rfl
    · rfl
  · have all : ((e :: next :: entries).map Entry.bare).all (fun e => e.name.isSome) =
        (e :: next :: entries).all fun e => e.name.isSome := by
      rw [List.all_map]
      exact congrArg _ (funext fun e => Option.isSome_map)
    have table : ((e :: next :: entries).map Entry.bare).filterMap
          (fun e => e.name.map fun name => (name.value, e.value)) =
        (e :: next :: entries).filterMap fun e => e.name.map fun name => (name.value, e.value) := by
      rw [List.filterMap_map]
      exact congrArg (List.filterMap · _) (funext fun e => Option.map_map ..)
    have values : ((e :: next :: entries).map Entry.bare).map Entry.value =
        (e :: next :: entries).map Entry.value := List.map_map
    rw [List.map_cons, List.map_cons, entriesDatum_several, entriesDatum_several,
      ← List.map_cons, ← List.map_cons, all, table, values]

theorem fields_eq_map (nodes : List Node) :
    fields nodes = nodes.map fun n => (n.name.spelling, n.datum) := by
  induction nodes with
  | nil => rfl
  | cons n nodes ih => rw [fields, ih, List.map_cons]

theorem fields_respellAll {nodes : List Node}
    (same : ∀ n ∈ nodes, (n.respell id).datum = n.datum) :
    fields (respellAll id nodes) = fields nodes := by
  rw [fields_eq_map, fields_eq_map, respellAll_eq_map, List.map_map]
  refine List.map_congr_left fun n member => ?_
  rw [Function.comp_apply, same n member, Node.respell_eq]
  rfl

theorem Node.datum_respell (n : Node) : (n.respell id).datum = n.datum := by
  induction n using Node.nested_induction with
  | node name entries children below =>
      cases children with
      | none => exact entriesDatum_bare entries
      | some nodes => exact congrArg Datum.ofEntries (fields_respellAll (below nodes rfl))

theorem Document.datum_bareProperties (d : Document) : d.bareProperties.datum = d.datum :=
  congrArg Datum.ofEntries (fields_respellAll fun n _ => n.datum_respell)

/-! The spellings that data tell -/

theorem Node.Reads.name_reads {n : Node} (reads : n.Reads) : n.name.Reads := by
  obtain ⟨named, -, -⟩ := reads
  exact named

theorem nodup_fields {nodes : List Node} (reads : ∀ n ∈ nodes, n.Reads)
    (apart : (nodes.map fun n => n.name.value).Nodup) : (Dict.keys (fields nodes)).Nodup := by
  rw [Dict.keys, fields_eq_map, List.map_map]
  refine List.Nodup.map_on (fun n member other inside same => ?_) apart.of_map
  have value := (reads n member).name_reads.value_eq (reads other inside).name_reads same
  exact List.inj_on_of_nodup_map apart member inside value

theorem mem_fields {nodes : List Node} {key : String} {d : Datum} :
    (key, d) ∈ fields nodes ↔ ∃ n ∈ nodes, n.name.spelling = key ∧ n.datum = d := by
  simp only [fields_eq_map, List.mem_map, Prod.mk.injEq]

/-- Where names differ in value, nodes of the same data have the same names and data: a key is the
spelling of one value. -/
theorem exists_named {nodes others : List Node} (reads : ∀ n ∈ nodes, n.Reads)
    (reads' : ∀ n ∈ others, n.Reads) (apart : (nodes.map fun n => n.name.value).Nodup)
    (apart' : (others.map fun n => n.name.value).Nodup)
    (same : Datum.ofEntries (fields nodes) = .ofEntries (fields others)) :
    ∀ n ∈ nodes, ∃ m ∈ others, n.name = m.name ∧ n.datum = m.datum := by
  intro n member
  have here : (n.name.spelling, n.datum) ∈ fields nodes := mem_fields.mpr ⟨n, member, rfl, rfl⟩
  rw [← Dict.mem_ofList (nodup_fields reads apart), Datum.table.inj same,
    Dict.mem_ofList (nodup_fields reads' apart')] at here
  obtain ⟨m, inside, spelling, datum⟩ := mem_fields.mp here
  have value : m.name.value = n.name.value :=
    (reads' m inside).name_reads.value_eq (reads n member).name_reads spelling
  refine ⟨m, inside, ?_, datum.symm⟩
  rw [Name.mk.injEq]
  exact ⟨value.symm, spelling.symm⟩

/-- Whether the datum of a node tells how the names of the nodes below it are spelled. -/
def Node.Tells (n : Node) : Prop :=
  ∀ other : Node, n.Reads → other.Reads →
    (∀ nodes, n.children = some nodes → Document.Distinct nodes) →
    n.respell Name.bare = other.respell Name.bare → n.name = other.name → n.datum = other.datum →
    n.respell id = other.respell id

theorem respellAll_eq {nodes others : List Node} (tell : ∀ n ∈ nodes, n.Tells)
    (reads : ∀ n ∈ nodes, n.Reads) (reads' : ∀ n ∈ others, n.Reads)
    (distinct : Document.Distinct nodes)
    (alike : respellAll Name.bare nodes = respellAll Name.bare others)
    (same : Datum.ofEntries (fields nodes) = .ofEntries (fields others)) :
    respellAll id nodes = respellAll id others := by
  obtain ⟨apart, below⟩ := distinct
  have apart' : (others.map fun n => n.name.value).Nodup := values_eq alike ▸ apart
  obtain ⟨lengths, pairs⟩ := List.forall₂_iff_zip.mp (respellAll_eq_iff.mp alike)
  refine respellAll_eq_iff.mpr (List.forall₂_iff_zip.mpr ⟨lengths, fun {n other} paired => ?_⟩)
  obtain ⟨member, member'⟩ := List.of_mem_zip paired
  obtain ⟨m, inside, named, datum⟩ := exists_named reads reads' apart apart' same n member
  -- The node of the same name is the one at the same place.
  have value : m.name.value = other.name.value := named ▸ value_eq (pairs paired)
  obtain rfl : m = other := List.inj_on_of_nodup_map apart' inside member' value
  exact tell n member m (reads n member) (reads' m inside) (below n member) (pairs paired) named
    datum

theorem Node.tells (n : Node) : n.Tells := by
  induction n using Node.nested_induction with
  | node name entries children tell =>
      rintro ⟨name', entries', children'⟩ ⟨-, -, reads⟩ ⟨-, -, reads'⟩ distinct alike named datum
      rw [Node.respell_eq, Node.respell_eq, Node.mk.injEq] at alike ⊢
      obtain ⟨-, properties, nested⟩ := alike
      refine ⟨named, properties, ?_⟩
      cases children with
      | none =>
          cases children' with
          | none => rfl
          | some nodes' => cases nested
      | some nodes =>
          cases children' with
          | none => cases nested
          | some nodes' =>
              exact congrArg some (respellAll_eq (tell nodes rfl) (reads nodes rfl)
                (reads' nodes' rfl) (distinct nodes rfl) (Option.some.inj nested) datum)

/-- Names are written so that they read as their values. Documents whose names have the same values
are the same data if their nodes are spelled the same, however their properties are; and only then
if no two nodes side by side have names of one value. -/
theorem read_respelled {source other : String} {d d' : Document} (first : parse source = some d)
    (second : parse other = some d') (alike : d.bare = d'.bare) :
    (∀ n ∈ d, n.Reads) ∧
      (d.bareProperties = d'.bareProperties → read source = read other) ∧
      (d.Distinct → read source = read other → d.bareProperties = d'.bareProperties) := by
  have data : read source = some d.datum := congrArg (Option.map Document.datum) first
  have data' : read other = some d'.datum := congrArg (Option.map Document.datum) second
  rw [data, data']
  refine ⟨reads_of_parse first, fun same => ?_, fun distinct same => ?_⟩
  · rw [← d.datum_bareProperties, same, d'.datum_bareProperties]
  · exact respellAll_eq (fun n _ => n.tells) (reads_of_parse first) (reads_of_parse second) distinct
      alike (Option.some.inj same)

/-- A property in quotes is the same data as one without them, and a node in a node is not. -/
theorem read_respelled_quoted :
    read "a \"p\"=1" = read "a p=1" ∧ read "o\x7b\"a\"\x7d" ≠ read "o\x7ba\x7d" := by
  refine ⟨?_, ?_⟩
  · have quoted : parse "a \"p\"=1" =
        some [⟨⟨"a", "a"⟩, [⟨some ⟨"p", "\"p\""⟩, .int 1⟩], none⟩] := rfl
    have bare : parse "a p=1" = some [⟨⟨"a", "a"⟩, [⟨some ⟨"p", "p"⟩, .int 1⟩], none⟩] := rfl
    exact (read_respelled quoted bare rfl).2.1 rfl
  · have quoted : parse "o\x7b\"a\"\x7d" =
        some [⟨⟨"o", "o"⟩, [], some [⟨⟨"a", "\"a\""⟩, [], none⟩]⟩] := rfl
    have bare : parse "o\x7ba\x7d" = some [⟨⟨"o", "o"⟩, [], some [⟨⟨"a", "a"⟩, [], none⟩]⟩] := rfl
    intro same
    have distinct : Document.Distinct [⟨⟨"o", "o"⟩, [], some [⟨⟨"a", "\"a\""⟩, [], none⟩]⟩] := by
      refine .intro (List.nodup_singleton _) (List.forall_mem_singleton.mpr ?_)
      rintro inner ⟨⟩
      exact .intro (List.nodup_singleton _) (List.forall_mem_singleton.mpr nofun)
    have spelled := (read_respelled quoted bare rfl).2.2 distinct same
    simp [Document.bareProperties, respellAll, Node.respell] at spelled

/-- A name in quotes is not the key that it is without them. -/
theorem read_quoted_node :
    ∃ quoted bare, parse "\"a\" 1" = some quoted ∧ parse "a 1" = some bare ∧
      quoted.bare = bare.bare ∧ read "\"a\" 1" ≠ read "a 1" := by
  refine ⟨[⟨⟨"a", "\"a\""⟩, [⟨none, .int 1⟩], none⟩], [⟨⟨"a", "a"⟩, [⟨none, .int 1⟩], none⟩], rfl,
    rfl, rfl, fun same => ?_⟩
  have quoted : read "\"a\" 1" = some (.table [("\"a\"", .int 1)]) := rfl
  have bare : read "a 1" = some (.table [("a", .int 1)]) := rfl
  rw [quoted, bare] at same
  simp at same

end Haml.Kdl
