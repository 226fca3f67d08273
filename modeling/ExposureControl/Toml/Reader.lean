import ExposureControl.Toml.Assembly
import ExposureControl.Toml.Lexical
import ExposureControl.Toml.Number

/-!
# Reading TOML

A TOML text is a sequence of blocks: the entries before the first header, and then each header
with the entries that follow it.  Reading fails as a whole, without saying where.
-/

namespace ExposureControl.Toml

/-- Read items separated by commas up to a closing bracket; a comma may follow the last one. -/
def readItems? (item : List Char → Option (Document × List Char)) :
    (fuel : Nat) → List Char → Option (List Document × List Char)
  | 0, _ => none
  | fuel + 1, cs =>
    match skipTrivia cs.length cs with
    | ']' :: rest => some ([], rest)
    | cs => do
      let (document, rest) ← item cs
      match skipTrivia rest.length rest with
      | ',' :: rest =>
        let (documents, rest) ← readItems? item fuel rest
        return (document :: documents, rest)
      | ']' :: rest => return ([document], rest)
      | _ => none

def readEntry? (value : List Char → Option (Document × List Char)) (cs : List Char) :
    Option ((List String × Document) × List Char) := do
  let (path, rest) ← readPath? cs
  let rest ← readChar? '=' rest
  let (document, rest) ← value (skipBlanks rest)
  return ((path, document), rest)

/-- Read at least one entry, separated by commas, up to a closing brace. -/
def readEntries? (value : List Char → Option (Document × List Char)) :
    (fuel : Nat) → List Char → Option (List (List String × Document) × List Char)
  | 0, _ => none
  | fuel + 1, cs => do
    let (entry, rest) ← readEntry? value cs
    match skipBlanks rest with
    | ',' :: rest =>
      let (entries, rest) ← readEntries? value fuel rest
      return (entry :: entries, rest)
    | '\x7d' :: rest => return ([entry], rest)
    | _ => none

def readInline? (value : List Char → Option (Document × List Char)) (cs : List Char) :
    Option (Document × List Char) :=
  match skipBlanks cs with
  | '\x7d' :: rest => some (.table [], rest)
  | cs => do
    let (entries, rest) ← readEntries? value (cs.length + 1) cs
    let draft ← Draft.opened.assignAll entries
    return (draft.node.toDocument, rest)

/-- Read a value with at most `depth` levels of brackets and braces. -/
def readValue? : (depth : Nat) → List Char → Option (Document × List Char)
  | depth, cs =>
    match cs with
    | '"' :: _ => (readString? cs).map fun (text, rest) => (.text text, rest)
    | '\'' :: _ => (readString? cs).map fun (text, rest) => (.text text, rest)
    | '[' :: rest =>
      match depth with
      | 0 => none
      | depth + 1 =>
        (readItems? (readValue? depth) (rest.length + 1) rest).map fun (items, rest) =>
          (.list items, rest)
    | '\x7b' :: rest =>
      match depth with
      | 0 => none
      | depth + 1 => readInline? (readValue? depth) rest
    | 't' :: 'r' :: 'u' :: 'e' :: rest => some (.bool true, rest)
    | 'f' :: 'a' :: 'l' :: 's' :: 'e' :: rest => some (.bool false, rest)
    | cs => (readStamp? cs).orElse fun _ => readNumber? cs

def maxDepth : Nat := 79

/-- How a block begins. -/
inductive Header
  /-- The entries before the first header. -/
  | none
  /-- A header that opens a table. -/
  | table (path : List String)
  /-- A header that adds a table to a list. -/
  | listed (path : List String)

/-- A header with the entries that follow it. -/
structure Block where
  header : Header
  entries : List (List String × Document)

def readHeader? : List Char → Option (Header × List Char)
  | '[' :: '[' :: rest => do
    let (path, rest) ← readPath? rest
    let rest ← readChar? ']' rest
    let rest ← readChar? ']' rest
    return (.listed path, ← readLineEnd? rest)
  | '[' :: rest => do
    let (path, rest) ← readPath? rest
    let rest ← readChar? ']' rest
    return (.table path, ← readLineEnd? rest)
  | _ => .none

/-- Read the rest of a text, given the block that its next entries belong to. -/
def readBlocks? : (fuel : Nat) → Block → List Char → Option (List Block)
  | 0, _, _ => none
  | fuel + 1, block, cs =>
    match skipBlanks cs with
    | [] => some [block]
    | '[' :: rest => do
      let (header, rest) ← readHeader? ('[' :: rest)
      let blocks ← readBlocks? fuel ⟨header, []⟩ rest
      return block :: blocks
    | cs =>
      if cs.head? = some '#' || (readNewline? cs).isSome then do
        readBlocks? fuel block (← readLineEnd? cs)
      else do
        let (entry, rest) ← readEntry? (readValue? maxDepth) cs
        let rest ← readLineEnd? rest
        readBlocks? fuel { block with entries := block.entries ++ [entry] } rest

def addBlock (draft : Draft) (block : Block) : Option Draft :=
  match block.header with
  | .none => draft.assignAll block.entries
  | .table path => draft.addTable path block.entries
  | .listed path => draft.addListed path block.entries

/-- Leave out a byte order mark. -/
def skipMark : List Char → List Char
  | '\uFEFF' :: rest => rest
  | cs => cs

/-- Read a TOML text as a document, whose top is a table. -/
def read? (text : String) : Option Document := do
  let cs := skipMark text.toList
  let blocks ← readBlocks? (cs.length + 2) ⟨.none, []⟩ cs
  let draft ← blocks.foldlM addBlock Draft.opened
  return draft.node.toDocument

end ExposureControl.Toml
