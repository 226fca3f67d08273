import ExposureControl.Data.Document

/-!
# Assembling TOML tables

A TOML text defines tables piece by piece: by headers, by keys joined with points, and by headers
of table lists.  While it is read, every table remembers how it came about, because that decides
what may still be added to it.
-/

namespace ExposureControl.Toml

/-- A part of a document that is being assembled. -/
inductive Node
  /-- A finished value. -/
  | value (document : Document)
  /-- A table: whether it was only mentioned in a path so far, and whether joined keys made it. -/
  | table (implied dotted : Bool) (fields : List (String × Node))
  /-- Tables that were listed by headers, in order. -/
  | tables (items : List Node)

/-- A table that is being assembled. -/
structure Draft where
  implied : Bool
  dotted : Bool
  fields : List (String × Node)

namespace Draft

/-- A table that a header or a pair of braces opens. -/
def opened : Draft := ⟨false, false, []⟩

def node (draft : Draft) : Node := .table draft.implied draft.dotted draft.fields

def get? (draft : Draft) (key : String) : Option Node := draft.fields.lookup key

def set (draft : Draft) (key : String) (node : Node) : Draft :=
  if (draft.get? key).isSome then
    { draft with
      fields := draft.fields.map fun field => if field.1 = key then (key, node) else field }
  else { draft with fields := draft.fields ++ [(key, node)] }

/-- Change the last of a list of tables. -/
def changeLast (f : Draft → Option Draft) : List Node → Option (List Node)
  | [] => none
  | [.table implied dotted fields] => do return [(← f ⟨implied, dotted, fields⟩).node]
  | [_] => none
  | node :: rest => do return node :: (← changeLast f rest)

/-- Change the table at the end of a path, making the tables on the way that are missing.  A path
leads into the last table of a list and never into a value; a path of joined keys does not lead
into a table that a header made. -/
def changeAt (dotted : Bool) : (path : List String) → (Draft → Option Draft) → Draft →
    Option Draft
  | [], f, draft => f draft
  | key :: path, f, draft =>
    match draft.get? key with
    | none => do return draft.set key (← changeAt dotted path f ⟨true, dotted, []⟩).node
    | some (.value _) => none
    | some (.table implied child fields) =>
      if dotted && !implied then none
      else do return draft.set key (← changeAt dotted path f ⟨implied, child, fields⟩).node
    | some (.tables items) => do
      return draft.set key (.tables (← changeLast (changeAt dotted path f) items))

/-- Add a value under a path of joined keys.  No key is set twice, and joined keys add only to
tables that joined keys made. -/
def assign (path : List String) (value : Document) (draft : Draft) : Option Draft := do
  let key ← path.getLast?
  let parents := path.dropLast
  draft.changeAt true parents fun table =>
    if table.dotted = parents.isEmpty || (table.get? key).isSome then none
    else some (table.set key (.value value))

def assignAll (entries : List (List String × Document)) (draft : Draft) : Option Draft :=
  entries.foldlM (fun draft entry => draft.assign entry.1 entry.2) draft

/-- Add a table that a header opens, with its entries.  It may have been mentioned in the path of
an earlier header, but not been opened itself. -/
def addTable (path : List String) (entries : List (List String × Document)) (draft : Draft) :
    Option Draft := do
  let key ← path.getLast?
  draft.changeAt false path.dropLast fun parent => do
    let start ← match parent.get? key with
      | none => some opened
      | some (.table true false fields) => some ⟨false, false, fields⟩
      | some _ => none
    return parent.set key (← start.assignAll entries).node

def addListed (path : List String) (entries : List (List String × Document)) (draft : Draft) :
    Option Draft := do
  let key ← path.getLast?
  draft.changeAt false path.dropLast fun parent => do
    let earlier ← match parent.get? key with
      | none => some []
      | some (.tables items) => some items
      | some _ => none
    return parent.set key (.tables (earlier ++ [(← opened.assignAll entries).node]))

end Draft

mutual

def Node.toDocument : Node → Document
  | .value document => document
  | .table _ _ fields => .table (fieldDocuments fields)
  | .tables items => .list (itemDocuments items)

def fieldDocuments : List (String × Node) → List (String × Document)
  | [] => []
  | (key, node) :: rest => (key, node.toDocument) :: fieldDocuments rest

def itemDocuments : List Node → List Document
  | [] => []
  | node :: rest => node.toDocument :: itemDocuments rest

end

end ExposureControl.Toml
