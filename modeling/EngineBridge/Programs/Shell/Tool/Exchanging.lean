import EngineBridge.Programs.Shell.Pattern
import EngineBridge.Programs.Shell.Tool.Basic

/-!
# The character exchanger
-/

namespace EngineBridge.Shell.Tool.Exchanging

/-- All characters. -/
def alphabet : List Char := (List.range 256).map Char.ofNat

/-- A piece of a set. -/
inductive Piece where
  | char (c : Char)
  | range (lo hi : Char)
  | named (cs : List Char)
  /-- So many of a character; none if as many as are needed. -/
  | many (c : Char) (n : Option Nat)
  deriving DecidableEq, Repr

/-- Read escapes, and keep in mind which characters were escaped. -/
def unescaped : Nat → List Char → List (Char × Bool)
  | 0, _ => []
  | _, [] => []
  | fuel + 1, c :: rest =>
    if c ≠ '\\' then (c, false) :: unescaped fuel rest
    else
      let ds := (rest.take 3).takeWhile fun c => (Text.digit? 8 c).isSome
      if !ds.isEmpty then
        let (ds, n) := ((ds, Text.valueOf 8 ds) : List Char × Nat)
        let (ds, n) := if 255 < n then (ds.dropLast, Text.valueOf 8 ds.dropLast) else (ds, n)
        (Char.ofNat n, true) :: unescaped fuel (rest.drop ds.length)
      else
        match rest with
        | [] => [('\\', true)]
        | e :: rest =>
          let x :=
            match e with
            | 'a' => '\x07'
            | 'b' => '\x08'
            | 'f' => '\x0c'
            | 'n' => '\n'
            | 'r' => '\r'
            | 't' => '\t'
            | 'v' => '\x0b'
            | e => e
          (x, true) :: unescaped fuel rest

/-- The repetition that stands behind an opening bracket. -/
def many? : List (Char × Bool) → Option (Piece × List (Char × Bool))
  | (c, _) :: ('*', false) :: rest =>
    let count := rest.takeWhile fun x => x ≠ (']', false)
    let digits := count.map (·.1)
    if count.length < rest.length && digits.all Char.isDigit then
      let base := if digits.head? = some '0' then 8 else 10
      let n := Text.valueOf base digits
      some (.many c (if n = 0 then none else some n), rest.drop (count.length + 1))
    else none
  | _ => none

/-- The pieces of a set. -/
def pieces : Nat → List (Char × Bool) → Except String (List Piece)
  | 0, _ => .ok []
  | _, [] => .ok []
  | fuel + 1, ('[', false) :: rest =>
    let special : Option (Except String Piece × List (Char × Bool)) :=
      match rest with
      | (':', false) :: more =>
        let name := more.takeWhile fun x => x ≠ (':', false)
        if (more.drop name.length).take 2 = [(':', false), (']', false)] then
          let rest := more.drop (name.length + 2)
          let name := String.ofList (name.map (·.1))
          match Pattern.classes.lookup name with
          | some has => some (.ok (.named (alphabet.filter has)), rest)
          | none => some (.error ("invalid character class '" ++ name ++ "'"), rest)
        else none
      | ('=', false) :: (c, _) :: ('=', false) :: (']', false) :: more => some (.ok (.char c), more)
      | _ => (many? rest).map fun (p, rest) => (.ok p, rest)
    match special with
    | some (p, rest) => do return (← p) :: (← pieces fuel rest)
    | none => plain fuel ('[', false) rest
  | fuel + 1, x :: rest => plain fuel x rest
where
  plain (fuel : Nat) (x : Char × Bool) (rest : List (Char × Bool)) : Except String (List Piece) :=
    match rest with
    | ('-', false) :: (hi, _) :: more =>
      if hi < x.1 then
        .error ("range-endpoints of '" ++ String.ofList [x.1, '-', hi] ++
          "' are in reverse collating sequence order")
      else do return .range x.1 hi :: (← pieces fuel more)
    | _ => do return .char x.1 :: (← pieces fuel rest)

/-- The characters of a set. One that is repeated as needed makes the set as long as `size`. -/
def spread (size : Nat) (ps : List Piece) : List Char :=
  let fixed := ps.map fun
    | .char c => [c]
    | .range lo hi => (List.range (hi.toNat + 1 - lo.toNat)).map fun n => Char.ofNat (lo.toNat + n)
    | .named cs => cs
    | .many c (some n) => List.replicate n c
    | .many _ none => []
  let room := size - fixed.foldl (fun n cs => n + cs.length) 0
  (ps.zip fixed).flatMap fun
    | (.many c none, _) => List.replicate room c
    | (_, cs) => cs

/-- Drop a character of a set that follows itself. -/
def squeezed (set : List Char) : List Char → List Char
  | [] => []
  | [c] => [c]
  | c :: d :: rest =>
    if c = d && set.contains c then squeezed set (d :: rest) else c :: squeezed set (d :: rest)

/-- Replace characters. What a shorter second set lacks is its last character. -/
def exchanged (source target : List Char) (cs : List Char) : List Char :=
  let missing := List.replicate (source.length - target.length) (target.getLast?.getD ' ')
  let pairs := (source.zip (target ++ missing)).reverse
  cs.map fun c => (pairs.lookup c).getD c

def grammar : Grammar where
  letters := "cCdst"
  long := [("complement", 'c'), ("delete", 'd'), ("squeeze-repeats", 's'), ("truncate-set1", 't')]
  mixed := false

def missingOperand {α : Type} (lines : List String) : Run α :=
  giveUp "tr" ("\n".intercalate (lines ++ ["Try 'tr --help' for more information."])).toList

end Exchanging

open Exchanging in
def tr : Tool := fun args => do
  let i ← Exchanging.grammar.read "tr" args
  let (deletes, squeezes) := (i.has 'd', i.has 's')
  let quoted (cs : List Char) : String := "'" ++ String.ofList cs ++ "'"
  let needed := if deletes = squeezes then 2 else 1
  let most := if deletes && !squeezes then 1 else 2
  match i.operands with
  | [] => missingOperand ["missing operand"]
  | [a] =>
    if needed = 2 then
      missingOperand ["missing operand after " ++ quoted a,
        if squeezes then "Two strings must be given when both deleting and squeezing repeats."
        else "Two strings must be given when translating."]
  | _ => pure ()
  if let some extra := i.operands[most]? then
    missingOperand (["extra operand " ++ quoted extra] ++
      if most = 1 then ["Only one string may be given when deleting without squeezing repeats."]
      else [])
  let sets := i.operands.map fun cs =>
    Exchanging.pieces (cs.length + 1) (unescaped (cs.length + 1) cs)
  match sets.mapM id with
  | .error message => giveUp "tr" message.toList
  | .ok sets =>
    let first := spread 0 (sets.head?.getD [])
    let first := if i.has 'c' || i.has 'C' then alphabet.filter (!first.contains ·) else first
    let second := (sets[1]?).map (spread first.length)
    Run.setStatus 0
    match ← takeInput with
    | .error e => complain "tr" ("read error: " ++ reason e).toList
    | .ok source =>
      let act : List Char → List Char :=
        match deletes, squeezes, second with
        | true, false, _ => List.filter (!first.contains ·)
        | true, true, second =>
          fun cs => squeezed (second.getD []) (cs.filter (!first.contains ·))
        | false, true, none => squeezed first
        | false, squeezes, some target =>
          let source := if i.has 't' then first.take target.length else first
          fun cs =>
            let made := exchanged source target cs
            if squeezes then squeezed target made else made
        | false, false, none => id
      if source.more then throw .waiting
      write (act source.text)

end EngineBridge.Shell.Tool
