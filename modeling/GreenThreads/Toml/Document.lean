import GreenThreads.Toml.Reader

/-!
# TOML documents

A document is a sequence of lines: pairs of a key and a value, and headers. The pairs after a
header belong to its table, those before the first header to the document itself. A table is
written in one place only; a header may come after those of the tables below it.
-/

namespace GreenThreads.Toml

/-! ## Reaching a table -/

/-- Changes the last one of the tables that headers in double brackets collected. -/
def modifyLast (f : Entries → Option Entries) : List Value → Option (List Value)
  | [] => none
  | [.table origin es] => (f es).map fun es => [.table origin es]
  | [_] => none
  | v :: rest => (modifyLast f rest).map (v :: ·)

/-- Changes the table that a path of headers leads to. Tables on the way that no one has named yet
are made, and of collected tables the last one is meant. -/
def modifyAt : List String → (Entries → Option Entries) → Entries → Option Entries
  | [], f, es => f es
  | key :: path, f, es =>
    match es.get? key with
    | none => (modifyAt path f []).map fun inner => es ++ [(key, .table .implied inner)]
    | some (.table .inline _) => none
    | some (.table origin inner) =>
      (modifyAt path f inner).map fun inner => es.replace key (.table origin inner)
    | some (.tables items) =>
      (modifyLast (modifyAt path f) items).map fun items => es.replace key (.tables items)
    | some _ => none

/-- Adds a pair below the table of the present header. A dotted key may enter tables that have no
header of their own, and the table that it ends in has to be one that dotted keys made; `last` says
whether the table reached so far is such a one, or the table of the header itself. -/
def insertPair : List String → String → Value → Bool → Entries → Option Entries
  | [], name, v, last, es =>
    if !last || (es.get? name).isSome then none else some (es ++ [(name, v)])
  | key :: path, name, v, _, es =>
    match es.get? key with
    | none =>
      (insertPair path name v true []).map fun inner => es ++ [(key, .table .dotted inner)]
    | some (.table .dotted inner) =>
      (insertPair path name v true inner).map fun inner => es.replace key (.table .dotted inner)
    | some (.table .implied inner) =>
      (insertPair path name v false inner).map fun inner => es.replace key (.table .implied inner)
    | some (.tables items) =>
      (modifyLast (insertPair path name v false) items).map fun items =>
        es.replace key (.tables items)
    | some _ => none

/-! ## Headers -/

/-- A header: the path to a table and its name there. -/
structure Header where
  path : List String
  name : String
  /-- Double brackets add one more table under the name. -/
  collects : Bool
deriving DecidableEq, Repr

/-- The state after some lines: the tables that are complete, and the one being written. -/
structure Draft where
  root : Entries := []
  header : Option Header := none
  current : Entries := []
deriving Repr

namespace Draft

/-- Puts the table being written into its place. -/
def close (d : Draft) : Option Entries :=
  match d.header with
  | none => some d.current
  | some h =>
    modifyAt h.path (fun es =>
      if h.collects then
        match es.get? h.name with
        | some (.tables items) =>
          some (es.replace h.name (.tables (items ++ [.table .header d.current])))
        | _ => none
      else some (es ++ [(h.name, .table .header d.current)])) d.root

/-- The table that a path of headers leads to. -/
def reach? : List String → Entries → Option Entries
  | [], es => some es
  | key :: path, es =>
    match es.get? key with
    | some (.table _ inner) => reach? path inner
    | some (.tables items) =>
      match items.getLast? with
      | some (.table _ inner) => reach? path inner
      | _ => none
    | _ => none

/-- Begins one more of the tables that a header collects. -/
def openCollected (root : Entries) (h : Header) : Option Draft :=
  (modifyAt h.path (fun es =>
    match es.get? h.name with
    | none => some (es ++ [(h.name, .tables [])])
    | some (.tables _) => some es
    | some _ => none) root).map fun root => { root, header := some h, current := [] }

/-- Begins the table of a header. A table that only the headers below it named so far is continued;
any other one that has the name already is an error. -/
def openSingle (root : Entries) (h : Header) : Option Draft := do
  let root ← modifyAt h.path some root
  match (← reach? h.path root).get? h.name with
  | none => return { root, header := some h, current := [] }
  | some (.table .implied es) =>
    let root ← modifyAt h.path (fun es => some (es.erase h.name)) root
    return { root, header := some h, current := es }
  | some _ => none

/-- Closes the table being written and begins the one of a header. -/
def openTable (d : Draft) (h : Header) : Option Draft :=
  d.close.bind fun root => if h.collects then openCollected root h else openSingle root h

/-- Adds a pair to the table being written. -/
def addPair (d : Draft) (path : List String) (name : String) (v : Value) : Option Draft :=
  (insertPair path name v true d.current).map fun current => { d with current }

end Draft

/-! ## Lines -/

/-- Reads a header after its first bracket, with the rest of its line. -/
def readHeader (cs : List Char) : Option (Header × List Char) :=
  match cs with
  | '[' :: cs =>
    match readKey cs with
    | some ((path, name), ']' :: ']' :: rest) =>
      (endLine? rest).map fun rest => (⟨path, name, true⟩, rest)
    | _ => none
  | _ =>
    match readKey cs with
    | some ((path, name), ']' :: rest) =>
      (endLine? rest).map fun rest => (⟨path, name, false⟩, rest)
    | _ => none

/-- Reads a pair with the rest of its line. -/
def readPair (cs : List Char) : Option ((List String × String × Value) × List Char) :=
  match readKey cs with
  | some ((path, name), '=' :: rest) =>
    match readValue maxDepth (skipBlanks rest) with
    | some (v, rest) => (endLine? rest).map fun rest => ((path, name, v), rest)
    | none => none
  | _ => none

/-- Reads at most `n` lines. -/
def readLines : Nat → Draft → List Char → Option Draft
  | 0, _, _ => none
  | n + 1, d, cs =>
    match skipBlanks cs with
    | [] => some d
    | '[' :: rest =>
      match readHeader rest with
      | some (h, rest) => (d.openTable h).bind fun d => readLines n d rest
      | none => none
    | cs =>
      match newline? (skipComment cs) with
      | some rest => readLines n d rest
      | none =>
        if (skipComment cs).isEmpty then some d
        else
          match readPair cs with
          | some ((path, name, v), rest) => (d.addPair path name v).bind fun d => readLines n d rest
          | none => none

/-- Reads a document. A mark of the byte order at its beginning is passed over. -/
def readDocument (s : String) : Option Entries :=
  let cs := s.toList
  let cs := if cs.head? = some '\uFEFF' then cs.tail else cs
  (readLines (cs.length + 1) {} cs).bind (·.close)

end GreenThreads.Toml
