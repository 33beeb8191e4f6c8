import Shorthand.Document.Basic
import Shorthand.Snippet
import Shorthand.Text.Alphanumeric
import Shorthand.Text.Character
/-!
# Typing

What single keystrokes do to a document.  With `autoPairs`, an opening bracket brings its closer along unless a letter
or digit follows, typing a closer right before the same closer steps over it, and taking back an opener right before its
closer takes back both.
-/
namespace Shorthand.Document

open Text (closerOf isCloser isAlphanumeric)

/-- Typing `c` steps over the same closer behind the caret. -/
def stepsOver (d : Document) (c : Char) : Bool :=
  d.autoPairs && d.selection.span.isEmpty && isCloser c && d.text[d.selection.span.stop]? = some c

/-- The closer that typing `c` brings along. -/
def broughtCloser (d : Document) (c : Char) : Text :=
  if d.autoPairs && !d.text[d.selection.span.stop]?.any isAlphanumeric then (closerOf c).toList else []

/-- `d` after typing `c` over the selection, and the patch that did it. -/
def type? (d : Document) (c : Char) : Except DocumentError (Document × Patch) :=
  let span := d.selection.span
  if d.stepsOver c then .ok ({ d with selection := .point (span.stop + 1) }, .empty d.length)
  else d.replace? ⟨span.start, span.stop, c :: d.broughtCloser c⟩ (span.start + 1)

/-- `d` after typing the chars of a text, up to the first that it refuses, and the patches that did it. -/
def typeAll (d : Document) : Text → Document × Except DocumentError (List Patch)
  | [] => (d, .ok [])
  | c :: t =>
    match d.type? c with
    | .error error => (d, .error error)
    | .ok (d, p) =>
      let (d, patches) := typeAll d t
      (d, patches.map (p :: ·))

/-- The char before `pos` is an opening bracket and its closer stands at `pos`. -/
def isPairAround (d : Document) (pos : Nat) : Bool :=
  match d.text[pos - 1]?.bind closerOf with
  | some close => d.text[pos]? = some close
  | none => false

/-- `d` after taking back the selection or the char before the caret, and the patch that did it. -/
def backspace? (d : Document) : Except DocumentError (Document × Patch) :=
  let span := d.selection.span
  if !span.isEmpty then d.replace? ⟨span.start, span.stop, []⟩ span.start
  else if span.start = 0 then .ok (d, .empty d.length)
  else
    let stop := if d.autoPairs && d.isPairAround span.start then span.start + 1 else span.start
    d.replace? ⟨span.start - 1, stop, []⟩ (span.start - 1)

/-- `d` with the span replaced by a snippet and the caret at its first stop; the patch is left to be reported. -/
def insertSnippet? (d : Document) (span : Span) (snippet : Text) : Except DocumentError Document :=
  let flat := Snippet.flatten snippet
  match d.replace? ⟨span.start, span.stop, flat.text⟩ (span.start + flat.caret.getD flat.text.length) with
  | .error error => .error error
  | .ok (d', p) => .ok { d' with unreported := d'.unreported ++ [p] }

end Shorthand.Document
