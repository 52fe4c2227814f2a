import Haml.Config
import Haml.Proofs.Ordered
/-! Visits of sources: what comes of the data that a configuration names, in whatever order its
sources are visited. -/

namespace Haml

namespace Dict

variable {α : Type} {d new others : Dict α}

theorem Ordered.insert_comm (ordered : d.Ordered) {key other : String} (apart : key ≠ other)
    (first second : α) :
    (d.insert key first).insert other second = (d.insert other second).insert key first := by
  refine ((ordered.insert _ _).insert _ _).ext ((ordered.insert _ _).insert _ _) fun k => ?_
  rw [find?_insert, find?_insert, find?_insert, find?_insert]
  by_cases here : key = k
  · subst here
    rw [if_neg apart.symm, if_pos rfl, if_pos rfl]
  · rw [if_neg here, if_neg here]

theorem Ordered.merge_perm (ordered : d.Ordered) (perm : new.Perm others)
    (distinct : new.keys.Nodup) : d.merge new = d.merge others := by
  induction perm generalizing d with
  | nil => rfl
  | cons entry perm ih => exact ih (ordered.insert _ _) (List.nodup_cons.mp distinct).2
  | swap first second rest =>
      have apart : second.1 ≠ first.1 := fun same =>
        (List.nodup_cons.mp distinct).1 (List.mem_cons.mpr (.inl same))
      have same := ordered.insert_comm apart second.2 first.2
      exact congrArg (fun d : Dict α => d.merge rest) same
  | trans perm _ ih last =>
      exact (ih ordered distinct).trans (last ordered ((perm.map Prod.fst).nodup distinct))

end Dict

namespace DataSource

variable {files : Files Id} {directory : String} {order : Dict DataSource} {d loaded : Dict Datum}

def Loads (files : Files Id) (directory : String) (s : DataSource) : Prop :=
  ∃ datum, s.load files directory = .ok datum

theorem loadAll_cons (files : Files Id) (directory name : String) (s : DataSource)
    (rest : Dict DataSource) (d : Dict Datum) :
    loadAll files directory ((name, s) :: rest) d =
      match s.load files directory with
      | .error e => .error e
      | .ok datum => loadAll files directory rest (d.insert name datum) := by
  rw [loadAll]
  change (match s.load files directory with
    | .error e => (.error e : Except Error (Dict Datum))
    | .ok datum => loadAll files directory rest (d.insert name datum)) = _
  rfl

def loadedValues (files : Files Id) (directory : String) (order : Dict DataSource) : Dict Datum :=
  order.filterMap fun (name, s) => (s.load files directory).toOption.map (name, ·)

theorem loads_or (files : Files Id) (directory : String) (s : DataSource) :
    s.Loads files directory ∨ ∃ e, s.load files directory = .error e := by
  cases result : s.load files directory with
  | ok datum => exact .inl ⟨datum, result⟩
  | error e => exact .inr ⟨e, rfl⟩

theorem loadedValues_perm (files : Files Id) (directory : String) {others : Dict DataSource}
    (perm : order.Perm others) :
    (loadedValues files directory order).Perm (loadedValues files directory others) :=
  perm.filterMap _

theorem keys_loadedValues_sublist (files : Files Id) (directory : String)
    (order : Dict DataSource) : (loadedValues files directory order).keys.Sublist order.keys := by
  induction order with
  | nil => exact List.Sublist.slnil
  | cons entry rest ih =>
      obtain ⟨name, s⟩ := entry
      unfold loadedValues at ih ⊢
      obtain ⟨datum, result⟩ | ⟨e, result⟩ := s.loads_or files directory
      · simpa [result, Except.toOption, Dict.keys] using ih
      · simpa [result, Except.toOption, Dict.keys] using ih.cons name

theorem nodup_loadedValues (files : Files Id) (directory : String) (distinct : order.keys.Nodup) :
    (loadedValues files directory order).keys.Nodup :=
  (keys_loadedValues_sublist files directory order).nodup distinct

/-- All sources are loaded if each of them can be, and what is loaded are their data. -/
theorem loadAll_ok : loadAll files directory order d = .ok loaded ↔
    (∀ entry ∈ order, entry.2.Loads files directory) ∧
      loaded = d.merge (loadedValues files directory order) := by
  induction order generalizing d with
  | nil =>
      constructor
      · rintro ⟨⟩
        exact ⟨List.forall_mem_nil _, rfl⟩
      · rintro ⟨-, rfl⟩
        rfl
  | cons entry rest ih =>
      obtain ⟨name, s⟩ := entry
      rw [loadAll_cons, List.forall_mem_cons]
      obtain ⟨datum, result⟩ | ⟨e, result⟩ := s.loads_or files directory
      · have values : loadedValues files directory ((name, s) :: rest) =
            (name, datum) :: loadedValues files directory rest := by
          simp [loadedValues, result, Except.toOption]
        rw [result, values]
        refine ih.trans ⟨?_, ?_⟩
        · rintro ⟨each, same⟩
          exact ⟨⟨⟨datum, result⟩, each⟩, same⟩
        · rintro ⟨⟨-, each⟩, same⟩
          exact ⟨each, same⟩
      · rw [result]
        refine ⟨nofun, ?_⟩
        rintro ⟨⟨⟨datum, found⟩, -⟩, -⟩
        cases result.symm.trans found

/-- Loading stops at the first source that fails, with its error. -/
theorem loadAll_error {e : Error} : loadAll files directory order d = .error e ↔
    ∃ before entry after, order = before ++ entry :: after ∧
      (∀ other ∈ before, other.2.Loads files directory) ∧
      entry.2.load files directory = .error e := by
  induction order generalizing d with
  | nil =>
      constructor
      · rintro ⟨⟩
      · rintro ⟨before, entry, after, split, -⟩
        exact absurd split (by simp)
  | cons first rest ih =>
      obtain ⟨name, s⟩ := first
      rw [loadAll_cons]
      obtain ⟨datum, result⟩ | ⟨f, result⟩ := s.loads_or files directory
      · rw [result]
        refine ih.trans ⟨?_, ?_⟩
        · rintro ⟨before, entry, after, rfl, each, fails⟩
          exact ⟨(name, s) :: before, entry, after, rfl,
            List.forall_mem_cons.mpr ⟨⟨datum, result⟩, each⟩, fails⟩
        · rintro ⟨before, entry, after, split, each, fails⟩
          cases before with
          | nil =>
              cases split
              cases result.symm.trans fails
          | cons other before =>
              cases split
              exact ⟨before, entry, after, rfl, (List.forall_mem_cons.mp each).2, fails⟩
      · rw [result]
        constructor
        · rintro ⟨⟩
          exact ⟨[], (name, s), rest, rfl, List.forall_mem_nil _, result⟩
        · rintro ⟨before, entry, after, split, each, fails⟩
          cases before with
          | nil =>
              cases split
              exact congrArg Except.error (Except.error.inj (result.symm.trans fails))
          | cons other before =>
              cases split
              obtain ⟨datum, found⟩ := (List.forall_mem_cons.mp each).1
              cases result.symm.trans found

end DataSource

namespace Config

open DataSource (Loads)

variable {files : Files Id} {directory : String}

/-- What comes of the data of a configuration if its sources are visited in this order. -/
def visit (files : Files Id) (directory : String) (c : Config) (order : Dict DataSource) :
    Except Error (Dict Datum) :=
  loadData files directory { c with data := order }

/-- Data that can be loaded in one order can be loaded in every order, and are the same. -/
theorem visit_ok {c : Config} (distinct : c.data.keys.Nodup) {order : Dict DataSource}
    (perm : order.Perm c.data) (loaded : Dict Datum) :
    c.visit files directory order = .ok loaded ↔ c.loadData files directory = .ok loaded := by
  have same := Dict.ordered_nil.merge_perm (DataSource.loadedValues_perm files directory perm)
    (DataSource.nodup_loadedValues files directory ((perm.map Prod.fst).nodup_iff.mpr distinct))
  have each : (∀ entry ∈ order, entry.2.Loads files directory) ↔
      ∀ entry ∈ c.data, entry.2.Loads files directory := by
    simp only [perm.mem_iff]
  refine DataSource.loadAll_ok.trans (Iff.trans ?_ DataSource.loadAll_ok.symm)
  rw [each, same]

/-- Every source that fails is the one that is reported in some order. -/
theorem exists_visit_error {c : Config} {entry : String × DataSource} {e : Error}
    (member : entry ∈ c.data) (fails : entry.2.load files directory = .error e) :
    ∃ order : Dict DataSource, order.Perm c.data ∧ c.visit files directory order = .error e := by
  obtain ⟨before, after, split⟩ := List.append_of_mem member
  refine ⟨entry :: (before ++ after), ?_, ?_⟩
  · rw [split]
    exact List.perm_middle.symm
  · exact DataSource.loadAll_error.mpr ⟨[], entry, _, rfl, List.forall_mem_nil _, fails⟩

theorem exists_of_visit_error {c : Config} {order : Dict DataSource} (perm : order.Perm c.data)
    {e : Error} (failed : c.visit files directory order = .error e) :
    ∃ entry ∈ c.data, entry.2.load files directory = .error e := by
  obtain ⟨before, entry, after, split, -, fails⟩ := DataSource.loadAll_error.mp failed
  have parts : order = before ++ entry :: after := split
  refine ⟨entry, perm.mem_iff.mp ?_, fails⟩
  rw [parts]
  exact List.mem_append_cons_self

/-- A table of data in any order: whether it can be loaded is the same in each, and so is what is
loaded. If it fails it fails with the error of the first source that does, so that the outcome is the
same in every order exactly if all sources that fail do so with one error. -/
theorem visit_perm (files : Files Id) (directory : String) {c : Config}
    (distinct : c.data.keys.Nodup)
    {order : Dict DataSource} (perm : order.Perm c.data) :
    (∀ loaded, c.visit files directory order = .ok loaded ↔
      c.loadData files directory = .ok loaded) ∧
    (∀ e, c.visit files directory order = .error e ↔
      ∃ before entry after, order = before ++ entry :: after ∧
        (∀ other ∈ before, other.2.Loads files directory) ∧
        entry.2.load files directory = .error e) ∧
    ((∀ others : Dict DataSource, others.Perm c.data →
        c.visit files directory others = c.loadData files directory) ↔
      ∀ entry ∈ c.data, ∀ other ∈ c.data, ∀ e f, entry.2.load files directory = .error e →
        other.2.load files directory = .error f → e = f) := by
  refine ⟨visit_ok distinct perm, fun e => DataSource.loadAll_error, ?_, ?_⟩
  · intro same entry member other among e f first second
    obtain ⟨front, atFront, reported⟩ := exists_visit_error member first
    obtain ⟨ahead, atAhead, reported'⟩ := exists_visit_error among second
    rw [same front atFront] at reported
    rw [same ahead atAhead] at reported'
    exact Except.error.inj (reported.symm.trans reported')
  · intro alike others perm
    cases second : c.loadData files directory with
    | ok loaded => exact (visit_ok distinct perm loaded).mpr second
    | error f =>
        cases first : c.visit files directory others with
        | ok loaded => cases second.symm.trans ((visit_ok distinct perm loaded).mp first)
        | error e =>
            obtain ⟨entry, member, fails⟩ := exists_of_visit_error perm first
            obtain ⟨other, among, fails'⟩ := exists_of_visit_error (.refl c.data) second
            rw [alike entry member other among e f fails fails']

def noFiles : Files Id where
  read _ := .error .missing
  isFile _ := pure false
  write _ _ := .error .notDirectory

/-- Two names of one file that is not there. -/
theorem visit_perm_missing :
    let c : Config := ⟨Options.standard, [("a", ⟨"gone.json", none⟩), ("b", ⟨"gone.json", none⟩)]⟩
    c.data.keys.Nodup ∧ c.data.reverse.Perm c.data ∧
      c.visit noFiles "site" c.data.reverse = c.loadData noFiles "site" := by
  intro c
  have distinct : c.data.keys.Nodup := by decide
  have perm := List.reverse_perm c.data
  have missing : ∀ entry ∈ c.data, entry.2.load noFiles "site" =
      .error (.dataFile "gone.json" (.unreadable FileFault.missing.text)) :=
    List.forall_mem_cons.mpr ⟨rfl, List.forall_mem_singleton.mpr rfl⟩
  obtain ⟨-, -, same⟩ := visit_perm noFiles "site" distinct perm
  refine ⟨distinct, perm, same.mpr ?_ _ perm⟩
  intro entry member other among e f first second
  rw [missing entry member] at first
  rw [missing other among] at second
  exact Except.error.inj (first.symm.trans second)

/-- Two files that are not there: the one that is visited first is the one that is reported. -/
theorem visit_order :
    let c : Config := ⟨Options.standard, [("a", ⟨"a.json", none⟩), ("b", ⟨"b.json", none⟩)]⟩
    c.visit noFiles "site" c.data ≠ c.visit noFiles "site" c.data.reverse := by
  intro c same
  have first : c.visit noFiles "site" c.data =
      .error (.dataFile "a.json" (.unreadable FileFault.missing.text)) := rfl
  have second : c.visit noFiles "site" c.data.reverse =
      .error (.dataFile "b.json" (.unreadable FileFault.missing.text)) := rfl
  rw [first, second] at same
  exact absurd (Except.error.inj same) (by decide)

end Config

end Haml
