import Haml.Proofs.Respelled.Names
/-! Documents in KDL as they are read: every name in them, at any depth, is written so that it reads
as its value. -/

namespace Haml.Kdl

def Entry.Reads (e : Entry) : Prop := ∀ name, e.name = some name → name.Reads

inductive Node.Reads : Node → Prop
  | intro {n : Node} (named : n.name.Reads) (properties : ∀ e ∈ n.entries, e.Reads)
      (below : ∀ nodes, n.children = some nodes → ∀ m ∈ nodes, Reads m) : Reads n

theorem entry_reads {cs rest : List Char} {e : Entry} (found : entry cs = some (e, rest)) :
    e.Reads := by
  obtain ⟨⟨d, after⟩, -, found⟩ := Option.bind_eq_some_iff.mp found
  dsimp only at found
  split at found
  · next name given named =>
      have reads : name.Reads := by
        split at named
        · next read =>
            split at named
            · cases named
              exact Name.reads_of_read read
            · cases named
        · cases named
      obtain ⟨start, -, found⟩ := Option.bind_eq_some_iff.mp found
      obtain ⟨⟨d', after'⟩, -, found⟩ := Option.bind_eq_some_iff.mp found
      dsimp only at found
      split at found
      · cases found
        rintro name ⟨⟩
        exact reads
      · cases found
  · split at found
    · cases found
      exact nofun
    · cases found

structure ReadersRead (steps : Nat) : Prop where
  nodes {nested : Bool} {cs rest : List Char} {read : List Node} :
    nodes steps nested cs = some (read, rest) → ∀ n ∈ read, n.Reads
  node {cs rest : List Char} {n : Node} : node steps cs = some (n, rest) → n.Reads
  body {cs rest : List Char} {entries : List Entry} {children : Option (List Node)} :
    body steps cs = some ((entries, children), rest) →
      (∀ e ∈ entries, e.Reads) ∧ ∀ nodes, children = some nodes → ∀ n ∈ nodes, n.Reads

namespace ReadersRead

variable {steps : Nat} {cs rest : List Char} (below : ReadersRead steps)

include below

theorem nodes_succ {nested : Bool} {read : List Node}
    (found : Kdl.nodes (steps + 1) nested cs = some (read, rest)) : ∀ n ∈ read, n.Reads := by
  obtain ⟨behind, -, found⟩ := Option.bind_eq_some_iff.mp found
  dsimp only at found
  split at found
  · split at found
    · cases found
    · cases found
      exact nofun
  · split at found
    · cases found
      exact nofun
    · cases found
  -- a node that is left out, and one that is kept
  · obtain ⟨start, -, found⟩ := Option.bind_eq_some_iff.mp found
    obtain ⟨dropped, -, found⟩ := Option.bind_eq_some_iff.mp found
    exact below.nodes found
  · obtain ⟨⟨first, after⟩, here, found⟩ := Option.bind_eq_some_iff.mp found
    obtain ⟨⟨more, after'⟩, later, found⟩ := Option.bind_eq_some_iff.mp found
    cases found
    exact List.forall_mem_cons.mpr ⟨below.node here, below.nodes later⟩

theorem node_succ {n : Node} (found : Kdl.node (steps + 1) cs = some (n, rest)) : n.Reads := by
  obtain ⟨start, -, found⟩ := Option.bind_eq_some_iff.mp found
  obtain ⟨⟨name, after⟩, named, found⟩ := Option.bind_eq_some_iff.mp found
  dsimp only at found
  split at found
  · cases found
  · obtain ⟨⟨⟨entries, children⟩, after'⟩, held, found⟩ := Option.bind_eq_some_iff.mp found
    cases found
    obtain ⟨properties, nested⟩ := below.body held
    exact .intro (Name.reads_of_read named) properties nested

theorem body_succ {entries : List Entry} {children : Option (List Node)}
    (found : Kdl.body (steps + 1) cs = some ((entries, children), rest)) :
    (∀ e ∈ entries, e.Reads) ∧ ∀ nodes, children = some nodes → ∀ n ∈ nodes, n.Reads := by
  obtain ⟨behind, -, found⟩ := Option.bind_eq_some_iff.mp found
  split at found
  · cases found
    exact ⟨nofun, nofun⟩
  · cases found
    exact ⟨nofun, nofun⟩
  · cases found
    exact ⟨nofun, nofun⟩
  · cases found
    exact ⟨nofun, nofun⟩
  -- what is left out, the nodes in braces, and an entry
  · obtain ⟨after, -, found⟩ := Option.bind_eq_some_iff.mp found
    split at found
    · obtain ⟨dropped, -, found⟩ := Option.bind_eq_some_iff.mp found
      exact below.body found
    · obtain ⟨dropped, -, found⟩ := Option.bind_eq_some_iff.mp found
      exact below.body found
  · obtain ⟨⟨nodes, after⟩, read, found⟩ := Option.bind_eq_some_iff.mp found
    obtain ⟨⟨⟨others, more⟩, after'⟩, -, found⟩ := Option.bind_eq_some_iff.mp found
    dsimp only at found
    split at found
    · cases found
      exact ⟨nofun, fun _ same => Option.some.inj same ▸ below.nodes read⟩
    · cases found
  · split at found
    · cases found
      exact ⟨nofun, nofun⟩
    · split at found
      · cases found
      · obtain ⟨⟨e, after⟩, here, found⟩ := Option.bind_eq_some_iff.mp found
        obtain ⟨⟨⟨others, more⟩, after'⟩, later, found⟩ := Option.bind_eq_some_iff.mp found
        cases found
        obtain ⟨properties, nested⟩ := below.body later
        exact ⟨List.forall_mem_cons.mpr ⟨entry_reads here, properties⟩, nested⟩

end ReadersRead

theorem readersRead (steps : Nat) : ReadersRead steps := by
  induction steps with
  | zero => exact ⟨nofun, nofun, nofun⟩
  | succ steps ih => exact ⟨ih.nodes_succ, ih.node_succ, ih.body_succ⟩

theorem reads_of_parse {source : String} {d : Document} (found : parse source = some d) :
    ∀ n ∈ d, n.Reads := by
  obtain ⟨⟨read, rest⟩, taken, rfl⟩ := Option.map_eq_some_iff.mp found
  exact (readersRead _).nodes taken

end Haml.Kdl
