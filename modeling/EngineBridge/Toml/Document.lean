import EngineBridge.Toml.Value

/-!
# Documents

A document is a list of sections, each a header and the assignments under it. Put together they
make one table. No table is defined twice, and no key is given a value twice.
-/

namespace EngineBridge.Toml

/-- A dotted key: the tables to go through, and the name in the last of them. -/
structure Path where
  tables : List String
  name : String
  deriving DecidableEq, Repr

structure Assignment where
  path : Path
  value : Toml

/-- What a section's assignments go into. -/
inductive Header where
  | root
  | table (path : Path)
  /-- A new row of an array of tables. -/
  | row (path : Path)
  deriving DecidableEq, Repr

structure Section where
  header : Header
  assignments : List Assignment

namespace Table

/-- Whether a path may lead into a table. A dotted key only goes through tables that no header
defines. -/
def admits (via origin : Origin) : Bool :=
  match origin with
  | .inline => false
  | .header => via = .implied
  | .implied | .dotted => true

/-- Change what is at the end of a path, in a table of this origin. Tables that are missing on the
way are made `via` the path. -/
def alter (via : Origin) (change : Origin → Table → Option Table) :
    List String → Origin → Table → Option Table
  | [], origin, t => change origin t
  | key :: path, _, t =>
    match t.get? key with
    | none => (alter via change path via []).map fun u => t ++ [(key, .table via u)]
    | some (.table o u) =>
      if admits via o then (alter via change path o u).map fun u => t.replace key (.table o u)
      else none
    | some (.tables rows) =>
      (alter via change path .header (rows.getLast?.getD [])).map fun row =>
        t.replace key (.tables (rows.dropLast ++ [row]))
    | some _ => none

/-- Give a key a value for the first time. A dotted key ends in a table that a dotted key made. -/
def assign (t : Table) (a : Assignment) : Option Table :=
  alter .dotted
    (fun origin t =>
      if (a.path.tables.isEmpty || origin = .dotted) && !t.has a.path.name then
        some (t ++ [(a.path.name, a.value)])
      else none)
    a.path.tables .header t

def assignAll (t : Table) (as : List Assignment) : Option Table := as.foldlM assign t

/-- Add a section to a document. A table that headers below it have named keeps what they put
there. -/
def addSection (t : Table) (s : Section) : Option Table :=
  match s.header with
  | .root => t.assignAll s.assignments
  | .table path =>
    alter .implied
      (fun _ parent =>
        let define (old : Table) : Option Table :=
          (old.assignAll s.assignments).map fun u =>
            parent.remove path.name ++ [(path.name, .table .header u)]
        match parent.get? path.name with
        | none => define []
        | some (.table .implied old) => define old
        | some _ => none)
      path.tables .header t
  | .row path =>
    alter .implied
      (fun _ parent =>
        (assignAll [] s.assignments).bind fun row =>
          match parent.get? path.name with
          | none => some (parent ++ [(path.name, .tables [row])])
          | some (.tables rows) => some (parent.replace path.name (.tables (rows ++ [row])))
          | some _ => none)
      path.tables .header t

end Table

/-- The table that the sections of a document make. -/
def ofSections (sections : List Section) : Option Table := sections.foldlM Table.addSection []

/-- A table written between braces. -/
def ofBraces (as : List Assignment) : Option Toml := (Table.assignAll [] as).map (.table .inline)

end EngineBridge.Toml
