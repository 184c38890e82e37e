import Stencil.Toml.Moment

/-!
# TOML documents

What a document says, and how its tables come about. A table is defined once: by a header, by dotted
keys of one table, or as a value. A table that was only passed through on the way to another can be
given its header later.
-/

namespace Stencil.Toml

/-- A value of a document. -/
inductive Item where
  | str (s : String)
  | int (n : Int)
  | float (x : Float)
  | bool (b : Bool)
  | moment (m : Moment)
  | arr (items : List Item)
  | table (entries : List (String × Item))
  deriving Inhabited

/-- What stands under a key while a document is read: a finished value, a table with the way in which
it came about, or the tables of an array of tables, of which the last is open. -/
inductive Node where
  | value (v : Item)
  | table (implicit dotted : Bool) (entries : List (String × Node))
  | tables (all : List (List (String × Node)))
  deriving Inhabited

/-- The entries of a table that is being read. -/
abbrev Entries := List (String × Node)

/-- The entries with another node under a key. -/
def setNode (key : String) (n : Node) : Entries → Entries
  | [] => [(key, n)]
  | (k, m) :: rest => if k = key then (k, n) :: rest else (k, m) :: setNode key n rest

/-- Changes the table at the end of a path, and makes the tables on the way that are not there. The
change is told whether the table came about by dotted keys. Dotted keys do not lead into a table that
has its header, and nothing leads into a value. -/
def change (dotted : Bool) (f : Bool → Entries → Option Entries) :
    List String → Bool → Entries → Option Entries
  | [], byKeys, entries => f byKeys entries
  | key :: path, _, entries => do
    match entries.lookup key with
    | none =>
      let inner ← change dotted f path dotted []
      some (setNode key (.table true dotted inner) entries)
    | some (.value _) => none
    | some (.tables all) =>
      let last ← all.getLast?
      let inner ← change dotted f path false last
      some (setNode key (.tables (all.dropLast ++ [inner])) entries)
    | some (.table implicit byKeys inner) =>
      if dotted ∧ !implicit then none
      let inner ← change dotted f path byKeys inner
      some (setNode key (.table implicit byKeys inner) entries)

/-- Puts a value under a dotted key. -/
def putValue (key : List String) (v : Item) (entries : Entries) : Option Entries := do
  let name ← key.getLast?
  let path := key.dropLast
  change true
    (fun byKeys entries =>
      if byKeys = path.isEmpty ∨ (entries.lookup name).isSome then none
      else some (setNode name (.value v) entries))
    path false entries

/-- Opens the table of a header. One that was only passed through till now moves to the end. -/
def openTable (key : List String) (entries : Entries) : Option Entries := do
  let name ← key.getLast?
  change false
    (fun _ entries =>
      match entries.lookup name with
      | none => some (setNode name (.table false false []) entries)
      | some (.table true false inner) =>
        some (entries.filter (·.1 ≠ name) ++ [(name, .table false false inner)])
      | some _ => none)
    key.dropLast false entries

/-- Opens a further table of an array of tables. -/
def openArrayTable (key : List String) (entries : Entries) : Option Entries := do
  let name ← key.getLast?
  change false
    (fun _ entries =>
      match entries.lookup name with
      | none => some (setNode name (.tables [[]]) entries)
      | some (.tables all) => some (setNode name (.tables (all ++ [[]])) entries)
      | some _ => none)
    key.dropLast false entries

mutual

/-- The finished form of a node. -/
def Node.item : Node → Item
  | .value v => v
  | .table _ _ entries => .table (Node.entryItems entries)
  | .tables all => .arr (Node.tableItems all)

/-- The finished forms of the entries of a table. -/
def Node.entryItems : List (String × Node) → List (String × Item)
  | [] => []
  | (key, n) :: rest => (key, n.item) :: Node.entryItems rest

/-- The finished forms of the tables of an array. -/
def Node.tableItems : List (List (String × Node)) → List Item
  | [] => []
  | entries :: rest => .table (Node.entryItems entries) :: Node.tableItems rest

end

/-- The values under a path that every table on the way holds already. -/
def within (path : List String) (f : Entries → Option Entries) (entries : Entries) :
    Option Entries :=
  change false (fun _ inner => f inner) path false entries

mutual

/-- A value, at a depth of nesting. -/
def value : Nat → Nat → Read Item
  | 0, _, _ => none
  | fuel + 1, depth, cs =>
    match cs with
    | '[' :: cs =>
      if depthLimit ≤ depth + 1 then none
      else (items fuel (depth + 1) cs).map fun p => (.arr p.1, p.2)
    | '{' :: cs =>
      if depthLimit ≤ depth + 1 then none
      else
        match skipSpace cs with
        | '}' :: cs => some (.table [], cs)
        | cs => (pairs fuel (depth + 1) [] cs).map fun p => (.table (Node.entryItems p.1), p.2)
    | 't' :: 'r' :: 'u' :: 'e' :: cs => some (.bool true, cs)
    | 'f' :: 'a' :: 'l' :: 's' :: 'e' :: cs => some (.bool false, cs)
    | c :: cs =>
      if c = '"' ∨ c = '\'' then (string (c :: cs)).map fun p => (.str p.1, p.2)
      else
        match moment (c :: cs) with
        | some (m, cs) => some (.moment m, cs)
        | none =>
          match double (c :: cs) with
          | some (x, cs) => some (.float x, cs)
          | none => (integer (c :: cs)).map fun p => (.int p.1, p.2)
    | [] => none

/-- The values of an array after its bracket or a comma. -/
def items : Nat → Nat → Read (List Item)
  | 0, _, _ => none
  | fuel + 1, depth, cs =>
    match skipTrivia (fuel + 1) cs with
    | ']' :: cs => some ([], cs)
    | cs => do
      let (v, cs) ← value fuel depth cs
      match skipTrivia (fuel + 1) cs with
      | ',' :: cs => (items fuel depth cs).map fun p => (v :: p.1, p.2)
      | ']' :: cs => some ([v], cs)
      | _ => none

/-- The pairs of an inline table after its brace or a comma, added to those before them. -/
def pairs : Nat → Nat → Entries → Read Entries
  | 0, _, _, _ => none
  | fuel + 1, depth, entries, cs => do
    let (k, cs) ← key cs
    let cs ← expect '=' cs
    let (v, cs) ← value fuel depth (skipSpace cs)
    let entries ← putValue k v entries
    match skipSpace cs with
    | ',' :: cs => pairs fuel depth entries cs
    | '}' :: cs => some (entries, cs)
    | _ => none

end

/-- A document that is being read: its entries, and the table that the last header opened. -/
structure Draft where
  entries : Entries := []
  current : List String := []

/-- Reads one line, or several if a value spans them. -/
def line (draft : Draft) (cs : List Char) : Option (Draft × List Char) := do
  match skipSpace cs with
  | '[' :: '[' :: cs =>
    let (k, cs) ← key cs
    let cs ← expect ']' cs
    let cs ← expect ']' cs
    let cs ← finishLine cs
    let entries ← openArrayTable k draft.entries
    some (⟨entries, k⟩, cs)
  | '[' :: cs =>
    let (k, cs) ← key cs
    let cs ← expect ']' cs
    let cs ← finishLine cs
    let entries ← openTable k draft.entries
    some (⟨entries, k⟩, cs)
  | cs =>
    match finishLine cs with
    | some cs => some (draft, cs)
    | none =>
      let (k, cs) ← key cs
      let cs ← expect '=' cs
      let (v, cs) ← value (2 * cs.length + 2) 0 (skipSpace cs)
      let cs ← finishLine cs
      let entries ← within draft.current (putValue k v) draft.entries
      some ({ draft with entries }, cs)

/-- Reads all lines; `fuel` bounds their number. -/
def lines : Nat → Draft → List Char → Option Draft
  | _, draft, [] => some draft
  | 0, _, _ :: _ => none
  | fuel + 1, draft, c :: cs => do
    let (draft, rest) ← line draft (c :: cs)
    lines fuel draft rest

/-- The entries of a document, or nothing if it is malformed. A byte order mark may stand in front. -/
def read? (source : String) : Option (List (String × Item)) :=
  let cs := match source.toList with
    | '\uFEFF' :: cs => cs
    | cs => cs
  (lines (cs.length + 1) {} cs).map fun draft => Node.entryItems draft.entries

end Stencil.Toml
