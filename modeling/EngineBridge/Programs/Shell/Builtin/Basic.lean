import EngineBridge.Programs.Shell.Expansion

/-!
# Builtin commands

Their names, their arguments, and how they show texts.
-/

namespace EngineBridge.Shell

abbrev Args := List (List Char)

namespace Builtin

/-- Builtin commands whose failure ends the shell, and whose assignments stay. -/
def special : List String :=
  [".", ":", "break", "continue", "eval", "exec", "exit", "export", "local", "readonly", "return",
    "set", "shift", "times", "trap", "unset"]

def others : List String :=
  ["[", "alias", "bg", "cd", "chdir", "command", "echo", "false", "fg", "getopts", "hash", "jobs",
    "kill", "printf", "pwd", "read", "test", "true", "type", "ulimit", "umask", "unalias", "wait"]

def isBuiltin (name : String) : Bool := special.contains name || others.contains name

/-- Builtin commands whose arguments may assign. -/
def assigning : List String := ["alias", "export", "local", "readonly"]

/-- Options at the head of arguments, each with its argument if `spec` has a colon behind it, and
what follows them. -/
def optionsFrom (spec : List Char) : Nat → Args → Run (List (Char × List Char) × Args)
  | 0, args => return ([], args)
  | fuel + 1, args => do
    match args with
    | ('-' :: c :: cs) :: rest =>
      if c = '-' && cs.isEmpty then return ([], rest)
      else letters fuel (c :: cs) rest
    | _ => return ([], args)
where
  letters (fuel : Nat) (cs : List Char) (rest : Args) : Run (List (Char × List Char) × Args) := do
    match cs with
    | [] => optionsFrom spec fuel rest
    | c :: cs =>
      match if c = ':' then [] else spec.dropWhile (· ≠ c) with
      | [] => Run.fail ("Illegal option -".toList ++ [c])
      | _ :: ':' :: _ =>
        match if cs.isEmpty then rest.head? else some cs with
        | none => Run.fail ("No arg for -".toList ++ c :: " option".toList)
        | some a =>
          let rest := if cs.isEmpty then rest.drop 1 else rest
          let (more, rest) ← optionsFrom spec fuel rest
          return ((c, a) :: more, rest)
      | _ =>
        let (more, rest) ← letters fuel cs rest
        return ((c, []) :: more, rest)

def options (spec : String) (args : Args) : Run (List (Char × List Char) × Args) :=
  optionsFrom spec.toList (args.length + 1) args

/-- A number that is not negative. -/
def count (cs : List Char) : Run Nat := do
  let illegal : Run Nat := Run.fail ("Illegal number: ".toList ++ cs)
  match Number.ofArgument? cs with
  | some (.ofNat n) => if n < 2147483648 then return n else illegal
  | _ => illegal

/-- Text between single quotes, and its single quotes between double ones. -/
def shown (cs : List Char) : List Char := pieces (cs.length + 1) cs
where
  pieces : Nat → List Char → List Char
    | 0, _ => []
    | fuel + 1, cs =>
      let head := cs.takeWhile (· ≠ '\'')
      let rest := cs.drop head.length
      let quotes := rest.takeWhile (· = '\'')
      let after := rest.drop quotes.length
      let written := '\'' :: head ++ ['\'']
      if quotes.isEmpty then written
      else
        let written := written ++ '"' :: quotes ++ ['"']
        if after.isEmpty then written else written ++ pieces fuel after

/-- Write to the output. A command that cannot does not succeed. -/
def put (cs : List Char) : Run Unit := do
  if !(← Run.writeTo 1 cs) then
    let name := ((← get).command).getD ""
    Run.warn (name ++ ": I/O error").toList
    Run.setStatus 1

def putLine (cs : List Char) : Run Unit := put (cs ++ ['\n'])

/-- Write, and succeed if that is possible. -/
def answer (cs : List Char) : Run Unit := do
  Run.setStatus 0
  put cs

/-- In the order of their names. -/
def sorted {α : Type} (xs : List (String × α)) : List (String × α) :=
  xs.foldl (fun done x => place x done) []
where
  place (x : String × α) : List (String × α) → List (String × α)
    | [] => [x]
    | y :: rest => if x.1 < y.1 then x :: y :: rest else y :: place x rest

end Builtin

end EngineBridge.Shell
