import ClassModel.Document.Data

/-!
# Tables of TOML

How the lines of a TOML text add up to nested tables. A table comes to be under its own header, or
as a step of a longer name, or by a dotted key; each may be completed in some ways only, so every
table remembers how it came to be. A header for a table that so far was only a step of longer
names moves it behind the tables before it.
-/

namespace ClassModel.Document.Toml

/-- How a table came to be: as a step of a longer name, and in a dotted key. -/
structure Origin where
  implicit : Bool
  dotted : Bool
  deriving DecidableEq, Repr

def Origin.explicit : Origin := ⟨false, false⟩

inductive Node where
  | value (d : Data)
  | table (origin : Origin) (entries : List (String × Node))
  /-- Tables that share a header in double brackets, in order. -/
  | tables (members : List (List (String × Node)))

abbrev Entries := List (String × Node)

structure Table where
  origin : Origin
  entries : Entries

namespace Table

def empty : Table := ⟨.explicit, []⟩

end Table

namespace Entries

def get? (es : Entries) (key : String) : Option Node :=
  (es.find? (·.1 == key)).map (·.2)

def put (key : String) (node : Node) : Entries → Entries
  | [] => [(key, node)]
  | (k, n) :: rest => if k = key then (k, node) :: rest else (k, n) :: put key node rest

def erase (es : Entries) (key : String) : Entries := es.filter (·.1 != key)

end Entries

/-- Applies `f` to the table at the end of `path`, with steps that are missing made on the way, and
hands on what `f` finds there. A value is no table, and a dotted key enters only tables that have no
header of their own. -/
def descend (dotted : Bool) : List String → (Table → Option (α × Table)) → Table → Option (α × Table)
  | [], f, t => f t
  | key :: path, f, t =>
    let put (node : Node) : Table := { t with entries := Entries.put key node t.entries }
    match Entries.get? t.entries key with
    | none =>
      (descend dotted path f ⟨⟨true, dotted⟩, []⟩).map fun (x, u) => (x, put (.table u.origin u.entries))
    | some (.value _) => none
    | some (.tables members) =>
      match members.getLast? with
      | none => none
      | some m =>
        (descend dotted path f ⟨.explicit, m⟩).map fun (x, u) =>
          (x, put (.tables (members.dropLast ++ [u.entries])))
    | some (.table origin entries) =>
      if dotted && !origin.implicit then none
      else
        (descend dotted path f ⟨origin, entries⟩).map fun (x, u) =>
          (x, put (.table u.origin u.entries))

def silently (f : Table → Option Table) (t : Table) : Option (Unit × Table) := (f t).map ((), ·)

def Table.insert (path : List String) (key : String) (d : Data) (t : Table) : Option Table :=
  let add (t : Table) : Option Table :=
    if t.origin.dotted == path.isEmpty then none
    else if (Entries.get? t.entries key).isSome then none
    else some { t with entries := t.entries ++ [(key, .value d)] }
  (descend true path (silently add) t).map (·.2)

/-- The text so far: the finished tables, and the one under the last header. -/
structure Assembly where
  root : Table
  current : Table
  /-- The name in the last header, with its last key apart, and whether it had double brackets. -/
  header : Option (List String × String × Bool)

namespace Assembly

def start : Assembly := ⟨.empty, .empty, none⟩

def finish (a : Assembly) : Option Table :=
  match a.header with
  | none => some a.current
  | some (path, key, double) =>
    let place (t : Table) : Option Table :=
      match Entries.get? t.entries key, double with
      | none, false =>
        some { t with entries := t.entries ++ [(key, .table .explicit a.current.entries)] }
      | some (.tables members), true =>
        some { t with entries := Entries.put key (.tables (members ++ [a.current.entries])) t.entries }
      | _, _ => none
    (descend false path (silently place) a.root).map (·.2)

/-- A header in single brackets takes up what longer names have put under its name, nothing else. -/
def openTable (path : List String) (key : String) (root : Table) : Option Assembly :=
  let takeUp (t : Table) : Option (Entries × Table) :=
    match Entries.get? t.entries key with
    | none => some ([], t)
    | some (.table origin entries) =>
      if origin.implicit && !origin.dotted then
        some (entries, { t with entries := Entries.erase t.entries key })
      else none
    | some _ => none
  (descend false path takeUp root).map fun (entries, root) =>
    ⟨root, ⟨.explicit, entries⟩, some (path, key, false)⟩

def openTables (path : List String) (key : String) (root : Table) : Option Assembly :=
  let announce (t : Table) : Option Table :=
    match Entries.get? t.entries key with
    | none => some { t with entries := t.entries ++ [(key, .tables [])] }
    | some (.tables _) => some t
    | some _ => none
  (descend false path (silently announce) root).map fun (_, root) =>
    ⟨root, .empty, some (path, key, true)⟩

def addHeader (path : List String) (key : String) (double : Bool) (a : Assembly) :
    Option Assembly :=
  a.finish.bind (if double then openTables path key else openTable path key)

def addValue (path : List String) (key : String) (d : Data) (a : Assembly) : Option Assembly :=
  (a.current.insert path key d).map fun t => { a with current := t }

end Assembly

mutual

def Node.data : Node → Data
  | .value d => d
  | .table _ entries => .ofEntries (entriesData entries)
  | .tables members => .ofItems (membersData members)

def entriesData : List (String × Node) → List (String × Data)
  | [] => []
  | (k, n) :: es => (k, n.data) :: entriesData es

def membersData : List (List (String × Node)) → List Data
  | [] => []
  | m :: ms => .ofEntries (entriesData m) :: membersData ms

end

def Table.data (t : Table) : Data := .ofEntries (entriesData t.entries)

end ClassModel.Document.Toml
