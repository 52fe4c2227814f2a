import Haml.Datum
/-! The tables of a TOML document while it is read: what may still be added to each of them. -/

namespace Haml.Toml

inductive Origin where
  /-- Named by a header of its own. -/
  | header
  /-- Named on the way to another table in a header. -/
  | passed
  /-- Named on the way to a value in a dotted key. -/
  | dotted
  deriving DecidableEq

inductive Tree where
  | value (d : Datum)
  | table (origin : Origin) (entries : List (String × Tree))
  /-- The tables of a doubled header, the latest first. -/
  | tables (elements : List (List (String × Tree)))

abbrev Entries := List (String × Tree)

namespace Tree

def find? (key : String) : Entries → Option Tree
  | [] => none
  | (k, t) :: rest => if k = key then some t else find? key rest

def put (key : String) (tree : Tree) : Entries → Entries
  | [] => [(key, tree)]
  | (k, t) :: rest => if k = key then (k, tree) :: rest else (k, t) :: put key tree rest

/-- Changes the table that a path of header keys leads to; missing tables on the way are passed. -/
def alongHeader (f : Entries → Option Entries) : List String → Entries → Option Entries
  | [], entries => f entries
  | key :: path, entries =>
      match find? key entries with
      | none => (alongHeader f path []).map fun inner => put key (.table .passed inner) entries
      | some (.table origin inner) =>
          (alongHeader f path inner).map fun inner => put key (.table origin inner) entries
      | some (.tables (latest :: earlier)) =>
          (alongHeader f path latest).map fun latest =>
            put key (.tables (latest :: earlier)) entries
      | some (.tables []) | some (.value _) => none

/-- Changes the table that the keys before the last of a dotted key lead to. Tables with a header
are closed to dotted keys from outside. -/
def alongKey (f : Entries → Option Entries) : List String → Entries → Option Entries
  | [], entries => f entries
  | key :: path, entries =>
      match find? key entries with
      | none => (alongKey f path []).map fun inner => put key (.table .dotted inner) entries
      | some (.table origin inner) =>
          if origin = .header then none
          else (alongKey f path inner).map fun inner => put key (.table origin inner) entries
      | some (.tables _) | some (.value _) => none

def addValue (key : String) (d : Datum) (entries : Entries) : Option Entries :=
  if (find? key entries).isSome then none else some (put key (.value d) entries)

def assign (path keys : List String) (last : String) (d : Datum) (root : Entries) :
    Option Entries :=
  alongHeader (alongKey (addValue last d) keys) path root

def openTable (key : String) (entries : Entries) : Option Entries :=
  match find? key entries with
  | none => some (put key (.table .header []) entries)
  | some (.table .passed inner) => some (put key (.table .header inner) entries)
  | some _ => none

def openElement (key : String) (entries : Entries) : Option Entries :=
  match find? key entries with
  | none => some (put key (.tables [[]]) entries)
  | some (.tables elements) => some (put key (.tables ([] :: elements)) entries)
  | some _ => none

mutual

def toDatum : Tree → Datum
  | .value d => d
  | .table _ entries => Datum.ofEntries (toEntries entries)
  | .tables elements => .list (toTables elements).reverse

def toEntries : List (String × Tree) → List (String × Datum)
  | [] => []
  | (k, t) :: rest => (k, toDatum t) :: toEntries rest

def toTables : List (List (String × Tree)) → List Datum
  | [] => []
  | entries :: rest => .ofEntries (toEntries entries) :: toTables rest

end

end Tree

end Haml.Toml
