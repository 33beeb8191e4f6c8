import Shorthand.Toml.Outline
import Shorthand.Toml.Quoted
/-!
# TOML documents

A document is a sequence of lines: a key and its value, the header of a table, or the header of one more table of a
list.  Lists and inline tables may go over several lines, with comments in between and a comma at the end, and may be
nested to a depth of eighty.
-/
namespace Shorthand.Toml

/-! ## Space -/

def skipSpace (s : Text) : Text := s.dropWhile fun c => c = ' ' || c = '\t'

/-- `s` without white space, line breaks and comments in front, `comment` telling that it begins within a comment. -/
def skipFill? (comment : Bool) : Text → Option Text
  | [] => some []
  | c :: s =>
    if atLineBreak (c :: s) then skipFill? (comment && c = '\r') s
    else if comment then if isPlain c then skipFill? true s else none
    else if c = ' ' || c = '\t' then skipFill? false s
    else if c = '#' then skipFill? true s
    else some (c :: s)

/-- Nothing but space and a comment is left of the line. -/
def atLineEnd (s : Text) : Bool :=
  match skipSpace s with
  | [] => true
  | c :: s => c = '#' || atLineBreak (c :: s)

/-! ## Keys -/

/-- `c` may stand in a key without quotes. -/
def isKeyChar (c : Char) : Bool := c.isAlphanum || c = '_' || c = '-'

def readKeyPart? (s : Text) : Option (Text × Text) :=
  match s.takeWhile isKeyChar with
  | [] => readQuoted? s
  | part => some (part, s.dropWhile isKeyChar)

/-- Reads a key, part by part: the path to its table, and its last part. -/
def readKey? : Nat → Text → Option ((List Text × Text) × Text)
  | 0, _ => none
  | bound + 1, s =>
    match readKeyPart? (skipSpace s) with
    | none => none
    | some (part, left) =>
      match skipSpace left with
      | '.' :: left => (readKey? bound left).map fun ((path, key), left) => ((part :: path, key), left)
      | left => some (([], part), left)

/-! ## Values -/

abbrev ValueReader := Text → Option (Value × Text)

/-- Reads the values of a list, from behind its bracket or a comma. -/
def readItems? (readOne : ValueReader) : Nat → Text → Option (List Value × Text)
  | 0, _ => none
  | bound + 1, s =>
    match skipFill? false s with
    | none => none
    | some (']' :: left) => some ([], left)
    | some s =>
      match readOne s with
      | none => none
      | some (v, left) =>
        match skipFill? false left with
        | some (',' :: left) => (readItems? readOne bound left).map fun (vs, left) => (v :: vs, left)
        | some (']' :: left) => some ([v], left)
        | _ => none

def readPair? (readOne : ValueReader) (o : Outline) (s : Text) : Option (Outline × Text) :=
  match readKey? s.length s with
  | some ((path, key), '=' :: left) =>
    match readOne (skipSpace left) with
    | some (v, left) => (o.define? key v path).map fun o => (o, left)
    | none => none
  | _ => none

/-- Reads the entries of an inline table into an outline, from behind its brace or a comma. -/
def readEntries? (readOne : ValueReader) : Nat → Outline → Text → Option (Outline × Text)
  | 0, _, _ => none
  | bound + 1, o, s =>
    match skipFill? false s with
    | none => none
    | some ('\x7d' :: left) => some (o, left)
    | some s =>
      match readPair? readOne o s with
      | none => none
      | some (o, left) =>
        match skipFill? false left with
        | some (',' :: left) => readEntries? readOne bound o left
        | some ('\x7d' :: left) => some (o, left)
        | _ => none

def readValue? : Nat → ValueReader
  | depth, s =>
    match s with
    | '"' :: s => (readText? ('"' :: s)).map fun (t, left) => (.text t, left)
    | '\'' :: s => (readText? ('\'' :: s)).map fun (t, left) => (.text t, left)
    | '[' :: s =>
      match depth with
      | 0 => none
      | depth + 1 => (readItems? (readValue? depth) (s.length + 1) s).map fun (vs, left) => (.list vs, left)
    | '\x7b' :: s =>
      match depth with
      | 0 => none
      | depth + 1 =>
        (readEntries? (readValue? depth) (s.length + 1) [] s).map fun (o, left) => (.table (Outline.toTable o), left)
    | s => readScalar? s

/-- How deep values may be nested. -/
def depthLimit : Nat := 80

/-! ## Lines -/

/-- Reads a header from behind its brackets, and as many closing ones. -/
def readHeader? (closers : Text) (s : Text) : Option ((List Text × Text) × Text) :=
  match readKey? s.length s with
  | none => none
  | some (key, left) => if closers.isPrefixOf left then some (key, left.drop closers.length) else none

/-- Reads one line into the outline, `current` being the path that the last header gave. -/
def readLine? (o : Outline) (current : List Text) (s : Text) : Option ((Outline × List Text) × Text) :=
  match s with
  | '[' :: '[' :: s =>
    match readHeader? [']', ']'] s with
    | none => none
    | some ((path, key), left) =>
      (o.within? (Outline.openItem? key) path).map fun o => ((o, path ++ [key]), left)
  | '[' :: s =>
    match readHeader? [']'] s with
    | none => none
    | some ((path, key), left) =>
      (o.within? (Outline.openTable? key) path).map fun o => ((o, path ++ [key]), left)
  | s =>
    match readKey? s.length s with
    | some ((path, key), '=' :: left) =>
      match readValue? depthLimit (skipSpace left) with
      | some (v, left) =>
        (o.within? (Outline.define? key v path) current).map fun o => ((o, current), left)
      | none => none
    | _ => none

def readLines? : Nat → Outline → List Text → Text → Option Outline
  | 0, _, _, _ => none
  | bound + 1, o, current, s =>
    match skipFill? false s with
    | none => none
    | some [] => some o
    | some s =>
      match readLine? o current s with
      | none => none
      | some ((o, current), left) => if atLineEnd left then readLines? bound o current left else none

/-- The table that a document describes, if it is well formed.  A byte order mark in front does not count. -/
def read? (s : Text) : Option Table :=
  let s := if s.head? = some '\ufeff' then s.tail else s
  (readLines? (s.length + 1) [] [] s).map Outline.toTable

end Shorthand.Toml
