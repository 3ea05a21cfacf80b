/-!
# Values of configuration files

The values that a TOML document is made of, and the rules by which statements build up its tables: a
key is given once, a table is opened once, and a table that was written out as a value or opened by
a header is not added to from elsewhere.
-/

namespace BoothFloor.Toml

/-- How a table came about. -/
inductive Origin where
  /-- Written out as a value. -/
  | inline
  /-- Named on the way to another table's header. -/
  | implied
  /-- Named on the way to a dotted key. -/
  | dotted
  /-- Opened by its own header. -/
  | header
  deriving DecidableEq, Repr, Inhabited

/-- A value. Numbers with a fraction, dates and times are kept as they are written, for no setting is
one of them. -/
inductive Value where
  | text (s : String)
  | integer (n : Int)
  | float (written : String)
  | boolean (b : Bool)
  | datetime (written : String)
  /-- An array; `tables` tells whether its elements are tables opened by headers. -/
  | array (tables : Bool) (items : List Value)
  | table (origin : Origin) (entries : List (String × Value))
  deriving Inhabited

abbrev Entries := List (String × Value)

namespace Entries

/-- Give a key that is there a new value, in place. -/
def put (es : Entries) (key : String) (v : Value) : Entries :=
  es.map fun e => if e.1 = key then (key, v) else e

/-- Change the table at the end of a path, with knowledge of how it came about. Tables on the way are
made as needed, as dotted ones if `dotted`; of an array of tables the last element is meant. Along
dotted keys no table may be entered that has its own header. -/
def within (dotted : Bool) (change : Origin → Entries → Option Entries) :
    List String → Origin → Entries → Option Entries
  | [], origin, es => change origin es
  | key :: path, _, es =>
    match es.lookup key with
    | none =>
      let fresh : Origin := if dotted then .dotted else .implied
      (within dotted change path fresh []).map fun sub => es ++ [(key, .table fresh sub)]
    | some (.table .inline _) => none
    | some (.table origin sub) =>
      if dotted && origin == .header then none
      else (within dotted change path origin sub).map fun sub => es.put key (.table origin sub)
    | some (.array true items) =>
      match items.getLast? with
      | some (.table _ last) =>
        (within dotted change path .header last).map fun last =>
          es.put key (.array true (items.dropLast ++ [.table .header last]))
      | _ => none
    | some _ => none

/-- Give a new key a value. A key of several parts reaches only into tables made by dotted keys. -/
def define (path : List String) (key : String) (v : Value) (es : Entries) : Option Entries :=
  within true
    (fun origin sub =>
      if (!path.isEmpty && origin != .dotted) || (sub.lookup key).isSome then none
      else some (sub ++ [(key, v)]))
    path .header es

/-- Open a table by its header. -/
def openTable (path : List String) (key : String) (es : Entries) : Option Entries :=
  within false
    (fun _ sub =>
      match sub.lookup key with
      | none => some (sub ++ [(key, .table .header [])])
      | some (.table .implied es) => some (sub.put key (.table .header es))
      | some _ => none)
    path .header es

/-- Append a table to an array of tables by its header. -/
def openElement (path : List String) (key : String) (es : Entries) : Option Entries :=
  within false
    (fun _ sub =>
      match sub.lookup key with
      | none => some (sub ++ [(key, .array true [.table .header []])])
      | some (.array true items) => some (sub.put key (.array true (items ++ [.table .header []])))
      | some _ => none)
    path .header es

/-- Give a new key a value in the table whose header is open. -/
def defineUnder (header path : List String) (key : String) (v : Value) (es : Entries) :
    Option Entries :=
  within false (fun _ sub => define path key v sub) header .header es

end Entries

end BoothFloor.Toml
