import Quorate.Value

/-!
# Tables under construction

A TOML document defines its tables line by line. While it is read, a table remembers how it came to be,
since that decides what later lines may add: a table with a header of its own is closed to dotted keys
and cannot have a second header, a table implied by the header of a subtable may still get its own, and a
table made by dotted keys grows by dotted keys only. Entries stand in the order in which they were first
defined; an implied table that gets its header moves to the end.
-/

namespace Quorate.Toml

/-- One line of a document that says something, with values of type `V`. -/
inductive Line (V : Type)
  /-- A value under a dotted key; `key` is its last part. -/
  | entry (path : List String) (key : String) (value : V)
  /-- The header of the table `key` within the table at `path`. -/
  | table (path : List String) (key : String)
  /-- The header of a further element of the list of tables `key` within the table at `path`. -/
  | element (path : List String) (key : String)
deriving Repr

/-- How a table came to be. -/
inductive Origin
  /-- It has a header, or is the document itself. -/
  | written
  /-- A header names one of its subtables. -/
  | implied
  /-- A dotted key names one of its entries. -/
  | dotted
deriving DecidableEq, Repr

/-- What stands under a key. -/
inductive Node
  | value (v : Value)
  | table (origin : Origin) (entries : List (String × Node))
  /-- A list of tables, each element with its own header. -/
  | elements (tables : List (List (String × Node)))
deriving Inhabited

/-- The entries of a table in order. -/
abbrev Entries := List (String × Node)

mutual

/-- The value that a finished node stands for. -/
def Node.toValue : Node → Value
  | .value v => v
  | .table _ entries => .map (finish entries)
  | .elements tables => .list (finishAll tables)

/-- The fields of a finished table. -/
def finish : Entries → List (String × Value)
  | [] => []
  | (key, node) :: rest => (key, node.toValue) :: finish rest

def finishAll : List Entries → List Value
  | [] => []
  | entries :: rest => .map (finish entries) :: finishAll rest

end

namespace Entries

/-- Change what stands under a key; a new entry goes to the end. -/
def alter (key : String) (change : Option Node → Option Node) : Entries → Option Entries
  | [] => (change none).map fun node => [(key, node)]
  | (k, node) :: rest =>
    if k = key then (change (some node)).map fun node => (k, node) :: rest
    else (alter key change rest).map ((k, node) :: ·)

/-- Change the table at the end of a path, which leads through the last elements of lists of tables and is
made where it does not exist. A path of dotted keys does not lead into a table with a header. -/
def within (dotted : Bool) (change : Origin → Entries → Option Entries) :
    (path : List String) → Origin → Entries → Option Entries
  | [], origin, entries => change origin entries
  | key :: path, _, entries =>
    alter key
      (fun
        | none =>
          let origin := if dotted then .dotted else .implied
          (within dotted change path origin []).map (.table origin)
        | some (.value _) => none
        | some (.elements tables) =>
          match tables.getLast? with
          | none => none
          | some last =>
            (within dotted change path .written last).map fun last =>
              .elements (tables.dropLast ++ [last])
        | some (.table origin entries) =>
          if dotted && origin == .written then none
          else (within dotted change path origin entries).map (.table origin))
      entries

/-- Add an entry that is not there. With a dotted path the table is one of dotted keys, and without path it
is not. -/
def define (path : List String) (key : String) (v : Value) (origin : Origin) (entries : Entries) :
    Option Entries :=
  within true
    (fun origin entries =>
      if (origin == .dotted) == path.isEmpty then none
      else alter key (fun
        | none => some (.value v)
        | some _ => none) entries)
    path origin entries

def openTable (path : List String) (key : String) (entries : Entries) : Option Entries :=
  within false
    (fun _ entries =>
      match entries.lookup key with
      | none => some (entries ++ [(key, .table .written [])])
      | some (.table .implied sub) =>
        some (entries.filter (fun (k, _) => k ≠ key) ++ [(key, .table .written sub)])
      | some _ => none)
    path .written entries

/-- Begin a further element of a list of tables. -/
def openElement (path : List String) (key : String) (entries : Entries) : Option Entries :=
  within false
    (fun _ entries => alter key
      (fun
        | none => some (.elements [[]])
        | some (.elements tables) => some (.elements (tables ++ [[]]))
        | some _ => none)
      entries)
    path .written entries

end Entries

/-- The document so far and the path of the table that the next entries belong to. -/
structure Draft where
  current : List String
  root : Entries

namespace Draft

def empty : Draft := ⟨[], []⟩

/-- The document with a further line, if the line fits. -/
def add (d : Draft) : Line Value → Option Draft
  | .entry path key v =>
    (Entries.within false (Entries.define path key v) d.current .written d.root).map (⟨d.current, ·⟩)
  | .table path key => (d.root.openTable path key).map (⟨path ++ [key], ·⟩)
  | .element path key => (d.root.openElement path key).map (⟨path ++ [key], ·⟩)

end Draft

/-- The map that the lines of a document define. -/
def assemble? (lines : List (Line Value)) : Option Value :=
  (lines.foldlM Draft.add .empty).map fun d => .map (finish d.root)

/-- The map that the entries of an inline table define. -/
def assembleInline? (entries : List (List String × String × Value)) : Option Value :=
  (entries.foldlM (fun done (path, key, v) => Entries.define path key v .written done) []).map fun done =>
    .map (finish done)

end Quorate.Toml
