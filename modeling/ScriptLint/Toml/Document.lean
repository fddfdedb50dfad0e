import ScriptLint.Toml.Fault

/-!
# Tables of a TOML document

A document is built entry by entry. Tables come about in three ways: a header defines one, a header
of a table inside implies one, and a dotted key makes one. What may still be added to a table depends
on how it came about.

## Main definitions

* `Toml.Item`, `Toml.Table` — a document that is being built
* `Toml.Builder` — a document and the table whose entries are being read
* `Toml.Builder.addEntry`, `Toml.Builder.openTable`, `Toml.Builder.openElement` — its three steps
* `Toml.Builder.finish` — the finished document
-/

namespace ScriptLint.Toml

mutual

/-- What a key stands for while a document is being built. -/
inductive Item where
  | value (v : Value)
  | table (t : Table)
  /-- A list of tables, each with a header of its own. -/
  | tables (ts : List Table)

/-- A table that is being built. It is *implied* if no header of its own has been read, and *dotted*
if dotted keys made it. -/
inductive Table where
  | mk (implied dotted : Bool) (entries : List (String × Item))

end

namespace Table

/-- A table without entries. -/
def empty : Table :=
  mk false false []

/-- A table that is not defined by a header of its own. -/
def implicit (dotted : Bool) : Table :=
  mk true dotted []

/-- Whether no header of the table has been read. -/
def isImplied : Table → Bool
  | mk implied _ _ => implied

/-- Whether dotted keys made the table. -/
def isDotted : Table → Bool
  | mk _ dotted _ => dotted

/-- The entries of a table. -/
def entries : Table → List (String × Item)
  | mk _ _ entries => entries

/-- A table with other entries. -/
def withEntries (t : Table) (entries : List (String × Item)) : Table :=
  mk t.isImplied t.isDotted entries

/-- What a key stands for. -/
def get? (t : Table) (name : String) : Option Item :=
  t.entries.lookup name

/-- Sets what a key stands for; a new key comes last. -/
def put (name : String) (item : Item) : List (String × Item) → List (String × Item)
  | [] => [(name, item)]
  | e :: more => if e.1 = name then (name, item) :: more else e :: put name item more

/-- A table in which a key stands for an item. -/
def insert (t : Table) (name : String) (item : Item) : Table :=
  t.withEntries (put name item t.entries)

/-- A table without a key. -/
def erase (t : Table) (name : String) : Table :=
  t.withEntries (t.entries.filter fun e => e.1 != name)

/-! ## Changes deep inside -/

/-- Changes the table that a path leads to. Tables on the way are made if they are missing. A dotted
key must not reach into a table that has a header of its own. The names in `above` lead to the
table. -/
def change (dotted : Bool) (f : Table → Except Cause Table) (above : List String) :
    List Key → Table → Except Cause Table
  | [], t => f t
  | key :: path, t =>
    let here := above ++ [key.written]
    match (t.get? key.name).getD (.table (.implicit dotted)) with
    | .value v => .error (.notTable here v.kindName)
    | .tables ts =>
      match ts.getLast? with
      | none => .error (.duplicateKey key.name none)
      | some last => do
        let changed ← change dotted f here path last
        return t.insert key.name (.tables (ts.dropLast ++ [changed]))
    | .table inner =>
      if dotted && !inner.isImplied then .error (.duplicateKey key.name none)
      else do
        let changed ← change dotted f here path inner
        return t.insert key.name (.table changed)

/-- Adds an entry under a key. The table that holds it must be a dotted one exactly if the key is
dotted; `owner` is the table that messages name. -/
def addEntry (t : Table) (path : List Key) (key : Key) (v : Value) (owner : Option (List String)) :
    Except Cause Table :=
  t.change true (fun inner =>
    if inner.isDotted == path.isEmpty then .error (.duplicateKey key.name none)
    else
      match inner.get? key.name with
      | some _ => .error (.duplicateKey key.name owner)
      | none => .ok (inner.insert key.name (.value v))) [] path

end Table

mutual

/-- The value of an item. -/
def Item.toValue : Item → Value
  | .value v => v
  | .table t => .table t.toEntries
  | .tables ts => .list (tablesToValues ts)

/-- The entries of a table as values. -/
def Table.toEntries : Table → List (String × Value)
  | .mk _ _ entries => itemsToEntries entries

/-- The values of several tables. -/
def tablesToValues : List Table → List Value
  | [] => []
  | t :: more => .table t.toEntries :: tablesToValues more

/-- The entries of several items. -/
def itemsToEntries : List (String × Item) → List (String × Value)
  | [] => []
  | (name, item) :: more => (name, item.toValue) :: itemsToEntries more

end

/-! ## Inline tables -/

/-- The first key of a path that stands for a table which is a value of its own. -/
def valueTable? (t : Table) : List Key → Option String
  | [] => none
  | key :: path =>
    match t.get? key.name with
    | some (.value (.table _)) => some key.name
    | some (.table inner) => valueTable? inner path
    | _ => none

/-- Adds an entry to an inline table. A table that is a value of its own cannot be extended. -/
def addInline (t : Table) (pair : List Key × Key × Value) : Except Cause Table :=
  match valueTable? t pair.1 with
  | some name => .error (.duplicateKey name none)
  | none => t.addEntry pair.1 pair.2.1 pair.2.2 none

/-- The table that the entries of an inline table make. -/
def inlineTable (pairs : List (List Key × Key × Value)) : Except Cause Value :=
  (pairs.foldlM addInline Table.empty).map fun t => .table t.toEntries

/-! ## Documents -/

/-- A document and the table whose entries are being read. That table is not in the document until it
is complete. -/
structure Builder where
  root : Table
  current : Table
  path : List Key
  /-- Whether the current table is an element of a list. -/
  isElement : Bool

namespace Builder

/-- The document before its first entry. -/
def empty : Builder :=
  ⟨.empty, .empty, [], false⟩

/-- Adds an entry to the current table. -/
def addEntry (b : Builder) (path : List Key) (key : Key) (v : Value) : Except Cause Builder := do
  let owner := b.path.map (·.written)
  return { b with current := ← b.current.addEntry path key v (some owner) }

/-- A key that is defined twice, by its place in a header. -/
def duplicate (path : List Key) : Cause :=
  let names := path.map (·.written)
  .duplicateKey (names.getLast?.getD "") (some names.dropLast)

/-- Adds a table to a list of tables. -/
def appendElement (path : List Key) (name : String) (element t : Table) : Except Cause Table :=
  match (t.get? name).getD (.tables []) with
  | .tables ts => .ok (t.insert name (.tables (ts ++ [element])))
  | _ => .error (duplicate path)

/-- Puts a complete table at its place. -/
def placeTable (path : List Key) (name : String) (complete t : Table) : Except Cause Table :=
  match t.get? name with
  | none => .ok (t.insert name (.table complete))
  | some (.table old) =>
    if old.isImplied then .ok (t.insert name (.table complete)) else .error (duplicate path)
  | some _ => .error (duplicate path)

/-- The document with the current table at its place. -/
def complete (b : Builder) : Except Cause Table :=
  match b.path.getLast? with
  | none => .ok b.current
  | some key =>
    let place := if b.isElement then appendElement else placeTable
    b.root.change false (place b.path key.name b.current) [] b.path.dropLast

/-- Takes an implied table out of the table that holds it. -/
def takeOut (path : List Key) (name : String) (t : Table) : Except Cause (Table × Table) :=
  match t.get? name with
  | none => .ok (.empty, t)
  | some (.table old) =>
    if old.isImplied && !old.isDotted then .ok (.mk false false old.entries, t.erase name)
    else .error (duplicate path)
  | some _ => .error (duplicate path)

/-- The table that a path leads to. -/
def find? (path : List Key) (t : Table) : Option Table :=
  match path with
  | [] => some t
  | key :: rest =>
    match t.get? key.name with
    | some (.table inner) => find? rest inner
    | some (.tables ts) => ts.getLast?.bind (find? rest)
    | _ => none

/-- Starts the table of a header. -/
def openTable (b : Builder) (path : List Key) : Except Cause Builder := do
  let root ← b.complete
  let name := (path.getLast?.map (·.name)).getD ""
  let root ← root.change false .ok [] path.dropLast
  let (current, _) ← takeOut path name ((find? path.dropLast root).getD .empty)
  let root ← root.change false (fun t => (takeOut path name t).map Prod.snd) [] path.dropLast
  return ⟨root, current, path, false⟩

/-- Starts an element of the list of a header. -/
def openElement (b : Builder) (path : List Key) : Except Cause Builder := do
  let root ← b.complete
  let name := (path.getLast?.map (·.name)).getD ""
  let root ← root.change false (fun t =>
    match (t.get? name).getD (.tables []) with
    | .tables ts => .ok (t.insert name (.tables ts))
    | _ => .error (duplicate path)) [] path.dropLast
  return ⟨root, .empty, path, true⟩

/-- The finished document. -/
def finish (b : Builder) : Except Cause (List (String × Value)) :=
  b.complete.map Table.toEntries

end Builder

end ScriptLint.Toml
