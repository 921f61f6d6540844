import TemplateLexer.Toml.Value

/-! Changes deep inside a table. Tables on the way that do not exist yet are made. -/

set_option autoImplicit false

namespace TemplateLexer.Toml.Table

def set (name : List Char) (value : Value) : Table → Table
  | [] => [(name, value)]
  | (other, old) :: later =>
    if other = name then (name, value) :: later else (other, old) :: set name value later

def changeLast (change : Table → Option Table) (items : List Value) : Option (List Value) :=
  match items.getLast? with
  | some (.table entries) => (change entries).map fun changed => items.dropLast ++ [.table changed]
  | _ => none

/-- Change the table that a key leads to. Where arrays are open, the way leads through the last
item of an array; a value of any other kind bars it. -/
def changeAt (arraysOpen : Bool) (change : Table → Option Table) : Key → Table → Option Table
  | [], table => change table
  | name :: names, table =>
    match table.lookup name with
    | none => (changeAt arraysOpen change names []).map fun made => table.set name (.table made)
    | some (.table entries) =>
      (changeAt arraysOpen change names entries).map fun changed => table.set name (.table changed)
    | some (.array items) =>
      if arraysOpen then
        (changeLast (changeAt arraysOpen change names) items).map fun changed =>
          table.set name (.array changed)
      else none
    | some _ => none

def add (name : List Char) (value : Value) (table : Table) : Option Table :=
  if (table.lookup name).isSome then none else some (table ++ [(name, value)])

def appendTable (name : List Char) (table : Table) : Option Table :=
  match table.lookup name with
  | none => some (table ++ [(name, .array [.table []])])
  | some (.array items) => some (table.set name (.array (items ++ [.table []])))
  | some _ => none

end TemplateLexer.Toml.Table
